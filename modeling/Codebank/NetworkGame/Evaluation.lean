import Mathlib.Data.Rat.Defs
import Codebank.NetworkGame.Network

namespace Codebank
namespace NetworkGame

open Foundation List Option

/-!
# The evaluation of a board

The score of a board without a network comes from the lengths of the partial paths of both
colours.  They are found by a search that marks and unmarks squares as `dfsFull` does.  The
scores are exact rational numbers; only the division of two `int`s is one of integers.
-/

def MIN_PARTIAL_LEN : Nat := 2

namespace Board

/-- The loop of `dfsPartial`: whether a square could be appended, and the running total. -/
def sumConnections (dfsPartial : Path -> Board -> Option (Int × Path × Board)) (color : Color) :
    List (Option Square) -> Bool × Int -> Path -> Board -> Option ((Bool × Int) × Path × Board)
  | [], sums, path, board => some (sums, path, board)
  | none :: rest, sums, path, board => sumConnections dfsPartial color rest sums path board
  | some square :: rest, sums, path, board =>
    if board.color square = color then
      match path.append board square with
      | (false, same, unchanged) => sumConnections dfsPartial color rest sums same unchanged
      | (true, longer, marked) =>
        match dfsPartial longer marked with
        | none => none
        | some (total, back, unmarked) =>
          let popped := back.pop unmarked
          sumConnections dfsPartial color rest (true, sums.2 + total) popped.1 popped.2
    else
      sumConnections dfsPartial color rest sums path board

/-- A path to which nothing could be appended counts with its length, if it is long enough. -/
def countPath (summed : (Bool × Int) × Path × Board) : Int × Path × Board :=
  let path := summed.2.1
  if summed.1.1 = false ∧ MIN_PARTIAL_LEN <= path.positions.length then
    (summed.1.2 + path.positions.length, summed.2)
  else
    (summed.1.2, summed.2)

def dfsPartial (color : Color) : Nat -> Path -> Board -> Option (Int × Path × Board)
  | 0, _, _ => none
  | fuel + 1, path, board =>
    path.last.bind fun square =>
      (sumConnections (dfsPartial color fuel) color (board.getConnections square) (false, 0) path
        board).map countPath

/-- The loop over the squares of a goal. -/
def sumStarts (color : Color) (goal : Goal) (fuel : Nat) :
    List Square -> Int -> Board -> Option (Int × Board)
  | [], total, board => some (total, board)
  | start :: rest, total, board =>
    if board.color start = color then
      let appended := (Path.new goal).append board start
      match dfsPartial color fuel appended.2.1 appended.2.2 with
      | none => none
      | some (length, path, marked) =>
        sumStarts color goal fuel rest (total + length) (path.pop marked).2
    else
      sumStarts color goal fuel rest total board

def sumPathsFromGoal (board : Board) (goal : Goal) (color : Color) : Option (Int × Board) :=
  sumStarts color goal (DIMENSION * DIMENSION) (goals goal) 0 board

/-- Both goals of white, or both goals of black. -/
def sumPartialPaths (board : Board) (color : Color) : Option (Int × Board) :=
  let sides : Goal × Goal := if color = .white then (.left, .right) else (.top, .bottom)
  (board.sumPathsFromGoal sides.1 color).bind fun first =>
    (first.2.sumPathsFromGoal sides.2 color).map fun second => (first.1 + second.1, second.2)

/-- The number of chips of a colour in the column (white) or row (black) at `start`. -/
def countGoal (board : Board) (color : Color) (start : Int) : Nat :=
  match color with
  | .white => (List.range DIMENSION).countP fun i => decide (board.getChip start i = color)
  | .black => (List.range DIMENSION).countP fun i => decide (board.getChip i start = color)
  | .empty => 0

end Board

/-- `sum*(second/first)` for the goal with more chips, where the quotient is one of `int`s. -/
def balance (sum : Rat) (first second : Nat) : Rat :=
  if 1 < first + second then
    if second < first then sum * ((second / first : Nat) : Rat)
    else if first < second then sum * ((first / second : Nat) : Rat)
    else sum
  else
    sum

def scale (blackScore whiteScore : Rat) : Rat :=
  let black := blackScore - 83 / 100 * whiteScore
  let white := whiteScore - 83 / 100 * blackScore
  if whiteScore < blackScore then black / (black + 1)
  else if blackScore < whiteScore then -white / (white + 1)
  else 0

namespace Board

/-- The score and the board afterwards.  The chips in white's right goal are counted as black
chips of the bottom row, as in the source. -/
def boardEvaluate (board : Board) : Option (Rat × Board) :=
  (board.sumPartialPaths .black).bind fun black =>
    (black.2.sumPartialPaths .white).map fun white =>
      let final := white.2
      let blackTopGoalChips := final.countGoal .black 0
      let blackBottomGoalChips := final.countGoal .black (DIMENSION - 1)
      let whiteLeftGoalChips := final.countGoal .white 0
      let whiteRightGoalChips := final.countGoal .black (DIMENSION - 1)
      (scale (balance black.1 blackTopGoalChips blackBottomGoalChips)
        (balance white.1 whiteLeftGoalChips whiteRightGoalChips), final)

end Board

/-! ## The evaluation leaves the board alone -/

section

variable {base board : Board} {color : Color} {path : Path} {previous : Square}
  {rest : List Square}

/-- Nothing is appended to a network. -/
theorem canAppend_network (complete : path.network = true) (square : Square) :
    path.canAppend board square = false := by
  rw [Path.canAppend, complete]
  rfl

theorem Searching.sumConnections (search : Path -> Board -> Option (Int × Path × Board))
    (searching : Searching base color path board) (stack : path.positions = previous :: rest)
    (searched : ∀ square, path.network = false ->
      Grown base color path.startGoal path.endGoal (square :: path.positions) ->
      ∃ total, search (path.grow square) (board.setVisited square true) =
        some (total, path.grow square, board.setVisited square true))
    (connections : List (Option Square)) (lead : ∀ square, some square ∈ connections ->
      ∃ direction, base.FirstOccupied previous direction square) (sums : Bool × Int) :
    ∃ totals, Board.sumConnections search color connections sums path board =
      some (totals, path, board) := by
  induction connections generalizing sums with
  | nil => exact ⟨sums, rfl⟩
  | cons connection connections ih =>
    have later := ih fun square member => lead square (mem_cons_of_mem _ member)
    cases connection with
    | none => exact later sums
    | some square =>
      rw [Board.sumConnections]
      by_cases own : board.color square = color
      · rw [if_pos own]
        cases can : path.canAppend board square with
        | false =>
          rw [Path.append_of_not_canAppend can]
          exact later sums
        | true =>
          have incomplete : path.network = false := by
            by_contra complete
            rw [canAppend_network (Bool.not_eq_false _ ▸ complete)] at can
            cases can
          have ownToo : base.color square = color := by rw [<- searching.colors, own]
          have grown := (searching.canAppend_iff incomplete stack ownToo
            (lead square mem_cons_self)).mp can
          have unvisited : (board.grid square).visited = false := by
            rw [<- Bool.not_eq_true, searching.marked]
            exact (List.nodup_cons.mp grown.nodup).1
          rcases searched square incomplete grown with ⟨total, done⟩
          rw [Path.append_of_canAppend can]
          change ∃ totals, (match search (path.grow square)
              (board.setVisited square true) with
            | none => none
            | some (total, back, unmarked) => _) = some (totals, path, board)
          rw [done]
          change ∃ totals, Board.sumConnections search color connections _
            (Path.pop (path.grow square) _).1 (Path.pop (path.grow square) _).2 = _
          rw [Path.grow, Path.pop_appended unvisited incomplete]
          exact later _
      · rw [if_neg own]
        exact later sums

theorem Searching.dfsPartial {fuel : Nat} (searching : Searching base color path board)
    (enough : 65 <= fuel + path.positions.length) :
    ∃ total, Board.dfsPartial color fuel path board = some (total, path, board) := by
  induction fuel generalizing path board with
  | zero =>
    have bound := searching.grown.length_le
    omega
  | succ fuel ih =>
    rw [Board.dfsPartial]
    cases stack : path.positions with
    | nil =>
      have grown := searching.grown
      rw [stack] at grown
      exact absurd grown id
    | cons previous rest =>
      have isLast : path.last = some previous := by rw [Path.last, stack]; rfl
      rcases Searching.sumConnections (Board.dfsPartial color fuel) searching stack
        (fun square incomplete grown => ih (searching.grow incomplete grown) (by
          rw [Path.grow, length_cons]
          omega))
        (board.getConnections previous)
        (fun square => (mem_getConnections searching.colors).mp) (false, 0) with
        ⟨totals, done⟩
      rw [isLast, bind_some, done, map_some]
      refine ⟨(Board.countPath (totals, path, board)).1, congrArg some ?_⟩
      rw [Board.countPath]
      split_ifs <;> rfl

theorem getGoal_of_mem : ∀ (goal : Goal) (square : Square), square ∈ goals goal ->
    square.getGoal = goal ∧ goal ≠ .nowhere := by
  have sides : ∀ square : Square,
      (square ∈ goals .left -> square.getGoal = .left) ∧
      (square ∈ goals .right -> square.getGoal = .right) ∧
      (square ∈ goals .top -> square.getGoal = .top) ∧
      (square ∈ goals .bottom -> square.getGoal = .bottom) := by
    decide +kernel
  intro goal square member
  cases goal with
  | left => exact ⟨(sides square).1 member, by decide⟩
  | right => exact ⟨(sides square).2.1 member, by decide⟩
  | top => exact ⟨(sides square).2.2.1 member, by decide⟩
  | bottom => exact ⟨(sides square).2.2.2 member, by decide⟩
  | nowhere => cases member

theorem sumPathsFromGoal_frame (sound : board.Sound) (goal : Goal) (color : Color) :
    ∃ total, board.sumPathsFromGoal goal color = some (total, board) := by
  suffices loop : ∀ (starts : List Square) (total : Int),
      (∀ start, start ∈ starts -> start.getGoal = goal ∧ goal ≠ .nowhere) ->
      ∃ sum, Board.sumStarts color goal 64 starts total board = some (sum, board) from
    loop (goals goal) 0 (getGoal_of_mem goal)
  intro starts
  induction starts with
  | nil => exact fun total _ => ⟨total, rfl⟩
  | cons start starts ih =>
    intro total inGoal
    have later := fun total => ih total fun other member =>
      inGoal other (mem_cons_of_mem _ member)
    rw [Board.sumStarts]
    by_cases own : board.color start = color
    · rcases inGoal start mem_cons_self with ⟨rfl, proper⟩
      rcases searching_start sound own proper with ⟨appended, searching⟩
      rcases searching.dfsPartial (Nat.le_refl (64 + 1)) with ⟨length, summed⟩
      have back : ((Path.new start.getGoal).grow start).pop (board.setVisited start true) =
          (Path.new start.getGoal, board) :=
        Path.pop_appended (sound.unvisited start) rfl
      rw [if_pos own, appended]
      simp only [summed, back]
      exact later _
    · rw [if_neg own]
      exact later total

theorem boardEvaluate_frame (sound : board.Sound) :
    ∃ score, board.boardEvaluate = some (score, board) := by
  have partialPaths : ∀ color, ∃ total,
      board.sumPartialPaths color = some (total, board) := by
    intro color
    rw [Board.sumPartialPaths]
    generalize (if color = .white then (Goal.left, Goal.right) else (Goal.top, Goal.bottom)) = sides
    rcases sumPathsFromGoal_frame sound sides.1 color with ⟨first, firstDone⟩
    rcases sumPathsFromGoal_frame sound sides.2 color with ⟨second, secondDone⟩
    refine ⟨first + second, ?_⟩
    simp only [firstDone, secondDone, bind_some, map_some]
  rcases partialPaths .black with ⟨black, blackDone⟩
  rcases partialPaths .white with ⟨white, whiteDone⟩
  rw [Board.boardEvaluate, blackDone, bind_some, whiteDone]
  exact ⟨_, rfl⟩

end

end NetworkGame
end Codebank
