import Mathlib.Data.Fintype.Prod
import Codebank.Foundation.Sight
import Codebank.Foundation.Slots

namespace Codebank
namespace NetworkGame

open Foundation
open Function (update)

/-!
# The board

Every `Position` of the grid is one object, so a reference to it is the square where it
lies.  Coordinates are integers; a function that is asked about a square off the board
decides that before it looks at the grid, and `canMove`, which does not, is partial.
-/

/-- `MachinePlayer.BLACK`, `MachinePlayer.WHITE` and `MachinePlayer.EMPTY`. -/
inductive Color where
  | black
  | white
  | empty
  deriving DecidableEq

def DIMENSION : Nat := 8

/-- A square of the board: its column and its row. -/
abbrev Square := Fin 8 × Fin 8

namespace Square

def getX (square : Square) : Int :=
  square.1.val

def getY (square : Square) : Int :=
  square.2.val

theorem getX_nonneg (square : Square) : 0 <= square.getX :=
  Int.natCast_nonneg _

theorem getY_nonneg (square : Square) : 0 <= square.getY :=
  Int.natCast_nonneg _

theorem getX_lt (square : Square) : square.getX < 8 :=
  Int.ofNat_lt.mpr square.1.isLt

theorem getY_lt (square : Square) : square.getY < 8 :=
  Int.ofNat_lt.mpr square.2.isLt

theorem eq_of_coordinates {first second : Square} (sameX : first.getX = second.getX)
    (sameY : first.getY = second.getY) : first = second :=
  Prod.ext (Fin.ext (Int.ofNat_inj.mp sameX)) (Fin.ext (Int.ofNat_inj.mp sameY))

end Square

structure Position where
  color : Color
  visited : Bool
  connections : Fin 8 -> Option Square

/-- The directions of connections, as the change of the two coordinates. -/
def CONNECTION_STEPS : List (Int × Int) :=
  [(0, -1), (1, -1), (1, 0), (1, 1), (0, 1), (-1, 1), (-1, 0), (-1, -1)]

def connectionStep (direction : Fin 8) : Int × Int :=
  CONNECTION_STEPS.get direction

/-- `(i + 4) % 8` -/
def opposite (direction : Fin 8) : Fin 8 :=
  ⟨(direction.val + 4) % 8, Nat.mod_lt _ (by decide)⟩

theorem opposite_opposite : ∀ direction, opposite (opposite direction) = direction := by
  decide

theorem opposite_ne : ∀ direction, opposite direction ≠ direction := by
  decide

theorem connectionStep_opposite : ∀ direction,
    (connectionStep (opposite direction)).1 = -(connectionStep direction).1 ∧
      (connectionStep (opposite direction)).2 = -(connectionStep direction).2 := by
  decide

/-! ## Squares -/

def notOffBoard (x y : Int) : Bool :=
  decide (0 <= x) && decide (x < DIMENSION) && decide (0 <= y) && decide (y < DIMENSION)

theorem notOffBoard_iff {x y : Int} :
    notOffBoard x y = true <-> 0 <= x ∧ x < 8 ∧ 0 <= y ∧ y < 8 := by
  have size : (DIMENSION : Int) = 8 := rfl
  simp only [notOffBoard, Bool.and_eq_true, decide_eq_true_eq]
  omega

theorem notOffBoard_get (square : Square) : notOffBoard square.getX square.getY = true :=
  notOffBoard_iff.mpr ⟨square.getX_nonneg, square.getX_lt, square.getY_nonneg, square.getY_lt⟩

/-- The place of `grid[x][y]`. -/
def squareAt (x y : Int) (onBoard : notOffBoard x y = true) : Square :=
  (⟨x.toNat, by have bounds := notOffBoard_iff.mp onBoard; omega⟩,
    ⟨y.toNat, by have bounds := notOffBoard_iff.mp onBoard; omega⟩)

theorem getX_squareAt {x y : Int} (onBoard : notOffBoard x y = true) :
    (squareAt x y onBoard).getX = x :=
  Int.toNat_of_nonneg (notOffBoard_iff.mp onBoard).1

theorem getY_squareAt {x y : Int} (onBoard : notOffBoard x y = true) :
    (squareAt x y onBoard).getY = y :=
  Int.toNat_of_nonneg (notOffBoard_iff.mp onBoard).2.2.1

@[simp] theorem squareAt_get (square : Square) (onBoard) :
    squareAt square.getX square.getY onBoard = square :=
  Square.eq_of_coordinates (getX_squareAt onBoard) (getY_squareAt onBoard)

/-- A statement about coordinates on the board is one about a square. -/
theorem exists_square {x y : Int} (onBoard : notOffBoard x y = true) :
    ∃ square : Square, x = square.getX ∧ y = square.getY :=
  ⟨squareAt x y onBoard, (getX_squareAt onBoard).symm, (getY_squareAt onBoard).symm⟩

def notInCorner (x y : Int) : Bool :=
  !(x == 0 && y == 0) && !(x == 0 && y == DIMENSION - 1) && !(x == DIMENSION - 1 && y == 0) &&
    !(x == DIMENSION - 1 && y == DIMENSION - 1)

def notInOppositeGoal (color : Color) (x y : Int) : Bool :=
  match color with
  | .white => !(y == 0 || y == DIMENSION - 1)
  | .black => !(x == 0 || x == DIMENSION - 1)
  | .empty => true

/-- The coordinates of the nine squares around and at a place, as the two loops go through
them. -/
def around (x y : Int) : List (Int × Int) :=
  [y - 1, y, y + 1].flatMap fun y2 => [x - 1, x, x + 1].map fun x2 => (x2, y2)

/-- The next square of a direction. -/
def moved (step : Int × Int) (square : Square) : Option Square :=
  if onBoard : notOffBoard (square.getX + step.1) (square.getY + step.2) = true then
    some (squareAt _ _ onBoard)
  else
    none

theorem moved_eq_some {step : Int × Int} {square target : Square} :
    moved step square = some target <->
      target.getX = square.getX + step.1 ∧ target.getY = square.getY + step.2 := by
  unfold moved
  constructor
  · intro found
    by_cases onBoard : notOffBoard (square.getX + step.1) (square.getY + step.2) = true
    · rw [dif_pos onBoard] at found
      cases found
      exact ⟨getX_squareAt onBoard, getY_squareAt onBoard⟩
    · rw [dif_neg onBoard] at found
      cases found
  · rintro ⟨sameX, sameY⟩
    have onBoard : notOffBoard (square.getX + step.1) (square.getY + step.2) = true := by
      rw [<- sameX, <- sameY]
      exact notOffBoard_get target
    rw [dif_pos onBoard, Option.some.injEq]
    apply Square.eq_of_coordinates
    · rw [getX_squareAt, sameX]
    · rw [getY_squareAt, sameY]

/-! ## The board and its methods -/

@[ext] structure Board where
  grid : Square -> Position
  numWhite : Int
  numBlack : Int

namespace Board

def new : Board where
  grid _ := { color := .empty, visited := false, connections := fun _ => none }
  numWhite := 0
  numBlack := 0

def color (board : Board) (square : Square) : Color :=
  (board.grid square).color

def connections (board : Board) (square : Square) (direction : Fin 8) : Option Square :=
  (board.grid square).connections direction

def setColor (board : Board) (square : Square) (color : Color) : Board :=
  { board with
    grid := update board.grid square { board.grid square with color := color } }

def setVisited (board : Board) (square : Square) (visited : Bool) : Board :=
  { board with
    grid := update board.grid square { board.grid square with visited := visited } }

def setConnection (board : Board) (square : Square) (direction : Fin 8)
    (connection : Option Square) : Board :=
  { board with
    grid := update board.grid square
      { board.grid square with
        connections :=
          update (board.grid square).connections direction connection } }

/-- `notOffBoard(x, y) && grid[x][y].color == color` -/
def hasColor (board : Board) (color : Color) (x y : Int) : Bool :=
  if onBoard : notOffBoard x y = true then
    decide (board.color (squareAt x y onBoard) = color)
  else
    false

def notOccupied (board : Board) (square : Square) : Bool :=
  decide (board.color square = .empty)

def numNeighbors (board : Board) (color : Color) (x y : Int) : Nat :=
  (around x y).countP fun place =>
    board.hasColor color place.1 place.2 && (x != place.1 || y != place.2)

def notGroupOfThree (board : Board) (color : Color) (x y : Int) : Bool :=
  if board.numNeighbors color x y = 0 then
    true
  else if board.numNeighbors color x y = 1 then
    match (around x y).find? fun place => board.hasColor color place.1 place.2 with
    | some place => decide (board.numNeighbors color place.1 place.2 = 0)
    | none => false
  else
    false

def notTooManyChips (board : Board) (color : Color) : Bool :=
  match color with
  | .white => decide (board.numWhite < 10)
  | _ => decide (board.numBlack < 10)

def canPlace (board : Board) (color : Color) (x y : Int) : Bool :=
  if onBoard : notOffBoard x y = true then
    notInCorner x y && notInOppositeGoal color x y && board.notOccupied (squareAt x y onBoard) &&
      board.notGroupOfThree color x y && board.notTooManyChips color
  else
    false

def countColor (board : Board) (color : Color) : Int :=
  match color with
  | .white => board.numWhite
  | .black => board.numBlack
  | .empty => DIMENSION * DIMENSION - board.numBlack - board.numWhite

def changeColorCounter (board : Board) (color : Color) (value : Int) : Board :=
  match color with
  | .white => { board with numWhite := board.numWhite + value }
  | .black => { board with numBlack := board.numBlack + value }
  | .empty => board

/-- The answer and the board afterwards; with a source off the board the access to the grid
fails. -/
def canMove (board : Board) (color : Color) (xi yi xf yf : Int) : Option (Bool × Board) :=
  if onBoard : notOffBoard xi yi = true then
    let source := squareAt xi yi onBoard
    if board.color source ≠ color ∨ (xi = xf ∧ yi = yf) ∨ board.countColor color ≠ 10 then
      some (false, board)
    else
      let lifted := (board.setColor source .empty).changeColorCounter color (-1)
      let answer := lifted.canPlace color xf yf
      some (answer, (lifted.setColor source color).changeColorCounter color 1)
  else
    none

def getChip (board : Board) (x y : Int) : Color :=
  if onBoard : notOffBoard x y = true then board.color (squareAt x y onBoard) else .empty

/-- The loop ends at the edge, at most `DIMENSION` steps away. -/
def getConnection (board : Board) (square : Square) (direction : Fin 8) : Option Square :=
  firstHit (moved (connectionStep direction)) (fun place => board.color place != .empty) DIMENSION
    square

/-- One turn of the loop of `placeChip`. -/
def connect (connections : Fin 8 -> Option Square) (square : Square) (board : Board)
    (direction : Fin 8) : Board :=
  match connections direction with
  | none => board
  | some connection =>
    (board.setConnection square direction (some connection)).setConnection connection
      (opposite direction) (some square)

/-- `if (reference != null) reference.connections[direction] = connection` -/
def linkFrom (board : Board) (reference : Option Square) (direction : Fin 8)
    (connection : Option Square) : Board :=
  match reference with
  | none => board
  | some square => board.setConnection square direction connection

/-- One turn of the loop of `removeChip`, for a direction and the opposite one. -/
def disconnect (connections : Fin 8 -> Option Square) (square : Square) (board : Board)
    (direction : Fin 8) : Board :=
  let cleared := (board.setConnection square direction none).setConnection square
    (opposite direction) none
  (cleared.linkFrom (connections direction) (opposite direction)
    (connections (opposite direction))).linkFrom (connections (opposite direction)) direction
      (connections direction)

def removeAt (board : Board) (square : Square) : Board :=
  if board.color square = .empty then
    board
  else
    let lifted := (board.changeColorCounter (board.color square) (-1)).setColor square .empty
    ((List.finRange 8).take 4).foldl (disconnect (lifted.getConnection square) square) lifted

/-- The colour of the chip that was there, and the board afterwards. -/
def removeChip (board : Board) (x y : Int) : Color × Board :=
  if onBoard : notOffBoard x y = true then
    (board.color (squareAt x y onBoard), board.removeAt (squareAt x y onBoard))
  else
    (.empty, board)

def placeAt (board : Board) (color : Color) (square : Square) : Board :=
  let placed := (board.setColor square color).changeColorCounter color 1
  (List.finRange 8).foldl (connect (placed.getConnection square) square) placed

def placeChip (board : Board) (color : Color) (x y : Int) : Board :=
  if color = .empty then
    (board.removeChip x y).2
  else if onBoard : notOffBoard x y = true then
    if board.canPlace color x y then board.placeAt color (squareAt x y onBoard) else board
  else
    board

/-- `lookFor` of the tests: the number of squares with a colour. -/
def lookFor (board : Board) (color : Color) : Nat :=
  tally board.color color

end Board

/-! ## What the updates change -/

namespace Board

variable {board : Board} {square other : Square}

theorem color_setColor (board : Board) (square : Square) (color : Color) :
    (board.setColor square color).color = update board.color square color := by
  funext other
  by_cases same : other = square
  · subst same
    simp [Board.color, setColor]
  · simp [Board.color, setColor, same]

@[simp] theorem connections_setColor (board : Board) (square : Square) (color : Color) :
    (board.setColor square color).connections = board.connections := by
  funext other direction
  by_cases same : other = square
  · subst same
    simp [Board.connections, setColor]
  · simp [Board.connections, setColor, same]

@[simp] theorem visited_setColor (board : Board) (square other : Square) (color : Color) :
    ((board.setColor square color).grid other).visited = (board.grid other).visited := by
  by_cases same : other = square
  · subst same
    simp [setColor]
  · simp [setColor, same]

@[simp] theorem grid_changeColorCounter (board : Board) (color : Color) (value : Int) :
    (board.changeColorCounter color value).grid = board.grid := by
  cases color <;> rfl

@[simp] theorem color_changeColorCounter (board : Board) (color : Color) (value : Int) :
    (board.changeColorCounter color value).color = board.color := by
  cases color <;> rfl

@[simp] theorem connections_changeColorCounter (board : Board) (color : Color) (value : Int) :
    (board.changeColorCounter color value).connections = board.connections := by
  cases color <;> rfl

/-- Two boards that differ at most in their connections. -/
structure SameChips (board after : Board) : Prop where
  color : after.color = board.color
  visited : ∀ square, (after.grid square).visited = (board.grid square).visited
  numWhite : after.numWhite = board.numWhite
  numBlack : after.numBlack = board.numBlack

theorem SameChips.refl (board : Board) : SameChips board board :=
  ⟨rfl, fun _ => rfl, rfl, rfl⟩

theorem SameChips.trans {after final : Board} (first : SameChips board after)
    (second : SameChips after final) : SameChips board final :=
  ⟨second.color.trans first.color, fun square =>
    (second.visited square).trans (first.visited square),
    second.numWhite.trans first.numWhite, second.numBlack.trans first.numBlack⟩

theorem sameChips_setConnection (board : Board) (square : Square) (direction : Fin 8)
    (connection : Option Square) :
    SameChips board (board.setConnection square direction connection) where
  color := by
    funext other
    by_cases same : other = square
    · subst same
      simp [Board.color, setConnection]
    · simp [Board.color, setConnection, same]
  visited other := by
    by_cases same : other = square
    · subst same
      simp [setConnection]
    · simp [setConnection, same]
  numWhite := rfl
  numBlack := rfl

theorem connections_setConnection (board : Board) (square : Square) (direction : Fin 8)
    (connection : Option Square) (other : Square) (way : Fin 8) :
    (board.setConnection square direction connection).connections other way =
      if other = square ∧ way = direction then connection else board.connections other way := by
  by_cases same : other = square
  · subst same
    by_cases sameWay : way = direction
    · subst sameWay
      simp [Board.connections, setConnection]
    · simp [Board.connections, setConnection, sameWay]
  · simp [Board.connections, setConnection, same]

theorem sameChips_linkFrom (board : Board) (reference : Option Square) (direction : Fin 8)
    (connection : Option Square) :
    SameChips board (board.linkFrom reference direction connection) := by
  cases reference with
  | none => exact SameChips.refl board
  | some square => exact sameChips_setConnection board square direction connection

theorem connections_linkFrom (board : Board) (reference : Option Square) (direction : Fin 8)
    (connection : Option Square) (other : Square) (way : Fin 8) :
    (board.linkFrom reference direction connection).connections other way =
      if reference = some other ∧ way = direction then connection
      else board.connections other way := by
  cases reference with
  | none => simp [linkFrom]
  | some square => simp [linkFrom, connections_setConnection, eq_comm]

/-- A board is what its chips and its connections are. -/
theorem eq_of_sameChips {after : Board} (same : SameChips board after)
    (connections : after.connections = board.connections) : after = board := by
  have positions : after.grid = board.grid := by
    funext square
    have sameColor := congrFun same.color square
    have sameVisited := same.visited square
    have sameConnections := congrFun connections square
    cases first : after.grid square
    cases second : board.grid square
    simp only [Board.color, first, second] at sameColor
    simp only [first, second] at sameVisited
    have sameConnections : (after.grid square).connections = (board.grid square).connections :=
      sameConnections
    rw [first, second] at sameConnections
    simp only at sameConnections
    rw [sameColor, sameVisited, sameConnections]
  exact Board.ext positions same.numWhite same.numBlack

theorem hasColor_get (board : Board) (color : Color) (square : Square) :
    board.hasColor color square.getX square.getY = decide (board.color square = color) := by
  rw [hasColor, dif_pos (notOffBoard_get square), squareAt_get]

theorem hasColor_eq_true {color : Color} {x y : Int} :
    board.hasColor color x y = true <->
      ∃ square : Square, x = square.getX ∧ y = square.getY ∧ board.color square = color := by
  constructor
  · intro has
    unfold hasColor at has
    by_cases onBoard : notOffBoard x y = true
    · rw [dif_pos onBoard, decide_eq_true_eq] at has
      exact ⟨squareAt x y onBoard, (getX_squareAt onBoard).symm, (getY_squareAt onBoard).symm, has⟩
    · rw [dif_neg onBoard] at has
      cases has
  · rintro ⟨square, rfl, rfl, same⟩
    rw [hasColor_get, decide_eq_true_eq]
    exact same

end Board

end NetworkGame
end Codebank
