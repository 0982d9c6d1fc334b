import Codebank.NetworkGame.Connections

namespace Codebank
namespace NetworkGame

open Foundation Function

/-!
# Paths and the search for a network

A `Path` is a stack of squares, the last appended one in front; the flags that say which
squares it visits are kept in the board.  `dfsFull` appends what the last square is connected
with, searches on, and takes it off again.
-/

/-- `Board.LEFT`, `Board.RIGHT`, `Board.TOP`, `Board.BOTTOM` and `Board.NONE`. -/
inductive Goal where
  | left
  | right
  | top
  | bottom
  | nowhere
  deriving DecidableEq

def Square.getGoal (square : Square) : Goal :=
  if square.getX = 0 then .left
  else if square.getX = DIMENSION - 1 then .right
  else if square.getY = 0 then .top
  else if square.getY = DIMENSION - 1 then .bottom
  else .nowhere

inductive LineDirection where
  | noDirection
  | vertical
  | horizontal
  | fwdDiag
  | bkwdDiag
  deriving DecidableEq

def MIN_NETWORK_LENGTH : Nat := 6

def getDirection (first second : Square) : LineDirection :=
  let dx := first.getX - second.getX
  let dy := first.getY - second.getY
  if dx = 0 then .vertical
  else if dy = 0 then .horizontal
  else if dx = -dy then .fwdDiag
  else if dx = dy then .bkwdDiag
  else .noDirection

structure Path where
  positions : List Square
  startGoal : Goal
  endGoal : Goal
  network : Bool

namespace Path

def new (start : Goal) : Path where
  positions := []
  startGoal := start
  endGoal :=
    match start with
    | .left => .right
    | .right => .left
    | .top => .bottom
    | .bottom => .top
    | .nowhere => .nowhere
  network := false

/-- The last two positions and a new one do not lie on a line. -/
def turns (positions : List Square) (square : Square) : Bool :=
  match positions with
  | [] => true
  | [p1] => decide (getDirection square p1 ≠ .noDirection)
  | p1 :: p2 :: _ =>
    !(decide (getDirection p1 p2 = .noDirection) ||
      decide (getDirection square p1 = getDirection p1 p2))

def canAppend (path : Path) (board : Board) (square : Square) : Bool :=
  if path.network || (board.grid square).visited || decide (path.endGoal = .nowhere) then
    false
  else if path.positions.length = 0 ∧ square.getGoal ≠ path.startGoal then
    false
  else if 0 < path.positions.length ∧ square.getGoal ≠ .nowhere ∧
      square.getGoal ≠ path.endGoal then
    false
  else if turns path.positions square = false then
    false
  else
    !(decide (path.positions.length < MIN_NETWORK_LENGTH - 1) &&
      decide (square.getGoal = path.endGoal))

/-- Whether the square was appended, the path and the board. -/
def append (path : Path) (board : Board) (square : Square) : Bool × Path × Board :=
  if path.canAppend board square then
    (true,
      { path with
        positions := square :: path.positions
        network := path.network || decide (square.getGoal = path.endGoal) },
      board.setVisited square true)
  else
    (false, path, board)

def pop (path : Path) (board : Board) : Path × Board :=
  match path.positions with
  | [] => (path, board)
  | square :: rest =>
    ({ path with positions := rest, network := false }, board.setVisited square false)

def last (path : Path) : Option Square :=
  path.positions.head?

end Path

namespace Board

/-- `getConnections`: what the eight directions lead to. -/
def getConnections (board : Board) (square : Square) : List (Option Square) :=
  (List.finRange 8).map (board.getConnection square)

/-- The loop over the connections: try to append each of them and to search on from there. -/
def searchConnections (dfsFull : Path -> Board -> Option (Bool × Path × Board)) (color : Color) :
    List (Option Square) -> Path -> Board -> Option (Bool × Path × Board)
  | [], path, board => some (false, path, board)
  | none :: rest, path, board => searchConnections dfsFull color rest path board
  | some square :: rest, path, board =>
    if board.color square = color then
      match path.append board square with
      | (false, same, unchanged) => searchConnections dfsFull color rest same unchanged
      | (true, longer, marked) =>
        match dfsFull longer marked with
        | none => none
        | some (found, back, unmarked) =>
          let popped := back.pop unmarked
          if found then some (true, popped.1, popped.2)
          else searchConnections dfsFull color rest popped.1 popped.2
    else
      searchConnections dfsFull color rest path board

/-- The turn in which a square was appended and the search went on from there. -/
theorem searchConnections_appended
    {search : Path -> Board -> Option (Bool × Path × Board)} {color : Color} {square : Square}
    {path longer back : Path} {board marked unmarked : Board} {found : Bool}
    (own : board.color square = color)
    (appended : path.append board square = (true, longer, marked))
    (searched : search longer marked = some (found, back, unmarked)) (rest : List (Option Square)) :
    searchConnections search color (some square :: rest) path board =
      if found then some (true, (back.pop unmarked).1, (back.pop unmarked).2)
      else searchConnections search color rest (back.pop unmarked).1 (back.pop unmarked).2 := by
  rw [searchConnections, if_pos own, appended]
  simp only [searched]

/-- The answer, with the path and the board afterwards; none when the nesting is deeper than
the fuel, or when the path is empty. -/
def dfsFull (color : Color) : Nat -> Path -> Board -> Option (Bool × Path × Board)
  | 0, _, _ => none
  | fuel + 1, path, board =>
    if path.network then
      some (true, path, board)
    else
      match path.last with
      | none => none
      | some square =>
        searchConnections (dfsFull color fuel) color (board.getConnections square) path board

end Board

/-- The squares of a side without the corners, as the constructor of `Board` stores them. -/
def goals (goal : Goal) : List Square :=
  let inner := ((List.finRange 8).drop 1).take 6
  match goal with
  | .left => inner.map fun j => (⟨0, by decide⟩, j)
  | .right => inner.map fun j => (⟨7, by decide⟩, j)
  | .top => inner.map fun i => (i, ⟨0, by decide⟩)
  | .bottom => inner.map fun i => (i, ⟨7, by decide⟩)
  | .nowhere => []

/-- The goal where `hasNetwork` starts. -/
def firstGoal (color : Color) : Goal :=
  match color with
  | .white => .left
  | _ => .top

namespace Board

/-- The loop over the squares of the goal. -/
def searchStarts (color : Color) (goal : Goal) (fuel : Nat) :
    List Square -> Board -> Option (Bool × Board)
  | [], board => some (false, board)
  | start :: rest, board =>
    if board.color start = color then
      let appended := (Path.new goal).append board start
      match dfsFull color fuel appended.2.1 appended.2.2 with
      | none => none
      | some (found, path, marked) =>
        if found then some (true, (path.pop marked).2)
        else searchStarts color goal fuel rest (path.pop marked).2
    else
      searchStarts color goal fuel rest board

/-- The answer and the board afterwards.  A path visits no square twice, so the calls of
`dfsFull` nest no deeper than there are squares. -/
def hasNetwork (board : Board) (color : Color) : Option (Bool × Board) :=
  searchStarts color (firstGoal color) (DIMENSION * DIMENSION) (goals (firstGoal color)) board

end Board

/-! ## Frames -/

namespace Board

variable {board : Board} {square : Square}

@[simp] theorem color_setVisited (board : Board) (square : Square) (visited : Bool) :
    (board.setVisited square visited).color = board.color := by
  funext other
  by_cases same : other = square
  · subst same
    simp [Board.color, setVisited]
  · simp [Board.color, setVisited, same]

theorem visited_setVisited (board : Board) (square other : Square) (visited : Bool) :
    ((board.setVisited square visited).grid other).visited =
      if other = square then visited else (board.grid other).visited := by
  by_cases same : other = square
  · subst same
    simp [setVisited]
  · simp [setVisited, same]

/-- A flag that is set and cleared is as before. -/
theorem setVisited_back (unvisited : (board.grid square).visited = false) :
    (board.setVisited square true).setVisited square false = board := by
  apply Board.ext
  · simp only [setVisited, update_self, update_idem]
    rw [<- unvisited]
    exact update_eq_self square board.grid
  · rfl
  · rfl

/-- What the directions lead to depends on the colours only. -/
theorem getConnection_congr {other : Board} (same : other.color = board.color) (square : Square)
    (direction : Fin 8) :
    other.getConnection square direction = board.getConnection square direction := by
  rw [getConnection, getConnection, same]

end Board

namespace Path

variable {path : Path} {board : Board} {square : Square}

theorem append_of_canAppend (can : path.canAppend board square = true) :
    path.append board square =
      (true,
        { path with
          positions := square :: path.positions
          network := path.network || decide (square.getGoal = path.endGoal) },
        board.setVisited square true) :=
  if_pos can

theorem append_of_not_canAppend (cannot : path.canAppend board square = false) :
    path.append board square = (false, path, board) := by
  rw [append, cannot]
  rfl

/-- Taking off what was appended leaves no trace. -/
theorem pop_appended (unvisited : (board.grid square).visited = false)
    (incomplete : path.network = false) :
    pop { path with
        positions := square :: path.positions
        network := path.network || decide (square.getGoal = path.endGoal) }
      (board.setVisited square true) = (path, board) := by
  rw [pop]
  simp only
  rw [Board.setVisited_back unvisited, <- incomplete]

end Path

end NetworkGame
end Codebank
