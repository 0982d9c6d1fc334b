import Codebank.NetworkGame.Evaluation

namespace Codebank
namespace NetworkGame

open Foundation Function

/-!
# The search of the machine player

`minimax` places chips on the board of the player, searches on, and takes them off again.
The scores are of any type with numbers in it, the evaluation of a board is a parameter, and
so is whether the search is pruned.
-/

inductive Move where
  | quit
  | add (x1 y1 : Int)
  | step (x1 y1 x2 y2 : Int)
  deriving DecidableEq

structure MoveScore (Score : Type*) where
  move : Option Move
  boardScore : Score

def WORST_ALPHA : Rat := -100
def WORST_BETA : Rat := 100
def BEST_ALPHA : Rat := 100
def BEST_BETA : Rat := -100
def START_DEPTH : Nat := 0

def winScore (currentDepth : Nat) (winnerColor : Color) : Rat :=
  match winnerColor with
  | .white =>
    if (currentDepth : Rat) < BEST_ALPHA then BEST_BETA + (currentDepth - 1)
    else -1 * (1 / (currentDepth - 98988 / 1000) + 101 / 100)
  | _ =>
    if (currentDepth : Rat) < BEST_ALPHA then BEST_ALPHA - (currentDepth - 1)
    else 1 / (currentDepth - 98988 / 1000) + 101 / 100

/-- What the search is run with: the scores that are numbers, the evaluation of a board, which
returns the board too, and whether it is pruned. -/
structure Engine (Score : Type*) where
  number : Rat -> Score
  evaluate : Board -> Option (Score × Board)
  pruning : Bool

/-- What changes in the loops over the moves. -/
structure Node (Score : Type*) where
  best : MoveScore Score
  alpha : Score
  beta : Score
  board : Board

/-- The squares in the order of the loops. -/
def squares : List Square :=
  (List.finRange 8).flatMap fun y => (List.finRange 8).map fun x => (x, y)

section

variable {Score : Type*} [LinearOrder Score]

/-- The choice of a new optimal move and the test for pruning, after the board was restored. -/
def Node.consider (engine : Engine Score) (currPlayer : Color) (node : Node Score) (move : Move)
    (reply : Score) (board : Board) : Bool × Node Score :=
  let next : Node Score :=
    if currPlayer = .black ∧ node.best.boardScore < reply then
      { best := ⟨some move, reply⟩, alpha := reply, beta := node.beta, board := board }
    else if currPlayer = .white ∧ reply < node.best.boardScore then
      { best := ⟨some move, reply⟩, alpha := node.alpha, beta := reply, board := board }
    else
      { node with board := board }
  (engine.pruning && decide (next.beta <= next.alpha), next)

/-- One turn of the loops of `minimaxAddMoves`. -/
def addMove (engine : Engine Score)
    (minimax : Score -> Score -> Board -> Option (MoveScore Score × Board)) (currPlayer : Color)
    (square : Square) (node : Node Score) : Option (Bool × Node Score) :=
  let x := square.getX
  let y := square.getY
  if node.board.canPlace currPlayer x y then
    match minimax node.alpha node.beta (node.board.placeChip currPlayer x y) with
    | none => none
    | some (reply, after) =>
      some (node.consider engine currPlayer (.add x y) reply.boardScore (after.removeChip x y).2)
  else
    some (false, node)

/-- One turn of the inner loops of `minimaxStepMoves`. -/
def stepMove (engine : Engine Score)
    (minimax : Score -> Score -> Board -> Option (MoveScore Score × Board)) (currPlayer : Color)
    (source target : Square) (node : Node Score) : Option (Bool × Node Score) :=
  let xi := source.getX
  let yi := source.getY
  let xf := target.getX
  let yf := target.getY
  match node.board.canMove currPlayer xi yi xf yf with
  | none => none
  | some (false, board) => some (false, { node with board := board })
  | some (true, board) =>
    match minimax node.alpha node.beta ((board.removeChip xi yi).2.placeChip currPlayer xf yf) with
    | none => none
    | some (reply, after) =>
      some (node.consider engine currPlayer (.step xf yf xi yi) reply.boardScore
        ((after.removeChip xf yf).2.placeChip currPlayer xi yi))

/-- One turn of the outer loops of `minimaxStepMoves`. -/
def stepMovesFrom (engine : Engine Score)
    (minimax : Score -> Score -> Board -> Option (MoveScore Score × Board)) (currPlayer : Color)
    (source : Square) (node : Node Score) : Option (Bool × Node Score) :=
  if node.board.getChip source.getX source.getY ≠ currPlayer then
    some (false, node)
  else
    loopUntil (stepMove engine minimax currPlayer source) squares node

/-- A board that has a network is scored; otherwise the search goes on. -/
def unlessNetwork (engine : Engine Score) (currPlayer currOpponent : Color) (currDepth : Nat)
    (board : Board) (further : Board -> Option (MoveScore Score × Board)) :
    Option (MoveScore Score × Board) :=
  match board.hasNetwork currPlayer with
  | none => none
  | some (true, after) => some (⟨none, engine.number (winScore currDepth currPlayer)⟩, after)
  | some (false, after) =>
    match after.hasNetwork currOpponent with
    | none => none
    | some (true, final) => some (⟨none, engine.number (winScore currDepth currOpponent)⟩, final)
    | some (false, final) => further final

/-- The best move with its score, and the board afterwards.  The first argument is
`searchDepth - currDepth`. -/
def minimax (engine : Engine Score) : Nat -> Color -> Color -> Nat -> Score -> Score -> Board ->
    Option (MoveScore Score × Board)
  | 0, currPlayer, currOpponent, currDepth, _, _, board =>
    unlessNetwork engine currPlayer currOpponent currDepth board fun after =>
      (engine.evaluate after).map fun evaluated => (⟨none, evaluated.1⟩, evaluated.2)
  | remaining + 1, currPlayer, currOpponent, currDepth, alpha, beta, board =>
    unlessNetwork engine currPlayer currOpponent currDepth board fun after =>
      let myMoveScore : MoveScore Score :=
        ⟨none, engine.number (if currPlayer = .black then WORST_ALPHA else WORST_BETA)⟩
      let node : Node Score := ⟨myMoveScore, alpha, beta, after⟩
      let deeper := minimax engine remaining currOpponent currPlayer (currDepth + 1)
      let searched :=
        if after.countColor currPlayer < 10 then
          loopUntil (addMove engine deeper currPlayer) squares node
        else
          loopUntil (stepMovesFrom engine deeper currPlayer) squares node
      searched.map fun done => (done.2.best, done.2.board)

/-- The call of `chooseMove`. -/
def minimaxStart (engine : Engine Score) (searchDepth : Nat) (player opponent : Color)
    (board : Board) : Option (MoveScore Score × Board) :=
  minimax engine searchDepth player opponent START_DEPTH (engine.number WORST_ALPHA)
    (engine.number WORST_BETA) board

end

/-! ## Taking a move back -/

namespace Board

variable {board other : Board} {color : Color} {source target : Square}

/-- A sound board is known by its colours. -/
theorem Sound.eq_of_color (sound : board.Sound) (soundToo : other.Sound)
    (same : other.color = board.color) : other = board := by
  have counters : ∀ color, color ≠ .empty ->
      other.countColor color = board.countColor color := by
    intro color chip
    rw [soundToo.counted color chip, sound.counted color chip, lookFor, lookFor, same]
  refine eq_of_sameChips ⟨same, fun square => ?_, counters .white (by decide),
    counters .black (by decide)⟩ (sound.connected.unique soundToo.connected same)
  rw [sound.unvisited, soundToo.unvisited]

/-- `canPlace` looks at the colours and the counters only. -/
theorem canPlace_congr (same : other.color = board.color)
    (counters : other.countColor color = board.countColor color) (chip : color ≠ .empty)
    (x y : Int) : other.canPlace color x y = board.canPlace color x y := by
  have room : other.notTooManyChips color = board.notTooManyChips color := by
    rw [Bool.eq_iff_iff, notTooManyChips_iff chip, notTooManyChips_iff chip, counters]
  have group : other.notGroupOfThree color x y = board.notGroupOfThree color x y := by
    unfold notGroupOfThree numNeighbors hasColor
    rw [same]
  unfold canPlace notOccupied
  rw [room, group, same]

/-- A chip that can be placed is placed. -/
theorem placeChip_spec (sound : board.Sound) (chip : color ≠ .empty)
    (can : board.canPlace color target.getX target.getY = true) :
    (board.placeChip color target.getX target.getY).Sound ∧
      board.color target = .empty ∧
      (board.placeChip color target.getX target.getY).color =
        update board.color target color := by
  have facts := canPlace_eq_true.mp can
  rcases facts with ⟨square, ⟨sameX, sameY⟩, _, isFree, _⟩
  have same : target = square := Square.eq_of_coordinates sameX sameY
  subst same
  refine ⟨sound.placeChip color _ _, isFree, ?_⟩
  rw [placeChip, if_neg chip, dif_pos (notOffBoard_get target), if_pos can, squareAt_get]
  exact placeAt_color sound isFree chip

/-- A chip is removed. -/
theorem removeChip_spec (sound : board.Sound) (source : Square) :
    (board.removeChip source.getX source.getY).2.Sound ∧
      (board.removeChip source.getX source.getY).2.color =
        update board.color source .empty := by
  refine ⟨sound.removeChip _ _, ?_⟩
  rw [removeChip, dif_pos (notOffBoard_get source), squareAt_get]
  by_cases taken : board.Occupied source
  · exact removeAt_color sound taken
  · have isFree : board.color source = .empty := not_not.mp taken
    change (board.removeAt source).color = _
    rw [removeAt, if_pos isFree, <- isFree, update_eq_self]

/-- A chip that was placed and is removed leaves no trace. -/
theorem removeChip_placeChip (sound : board.Sound) (chip : color ≠ .empty)
    (can : board.canPlace color target.getX target.getY = true) :
    ((board.placeChip color target.getX target.getY).removeChip target.getX target.getY).2 =
      board := by
  rcases placeChip_spec sound chip can with ⟨placed, isFree, colors⟩
  rcases removeChip_spec placed target with ⟨removed, final⟩
  refine sound.eq_of_color removed ?_
  rw [final, colors, update_idem, <- isFree, update_eq_self]

/-- A chip that was taken up can be put back: it obeyed the rules where it was. -/
theorem canPlace_back (sound : board.Sound) (chip : color ≠ .empty)
    (own : board.color source = color) :
    (board.removeChip source.getX source.getY).2.canPlace color source.getX source.getY = true := by
  rcases removeChip_spec sound source with ⟨lifted, colors⟩
  have taken : board.Occupied source := fun empty => chip (own ▸ empty)
  have isFree : (board.removeChip source.getX source.getY).2.color source = .empty := by
    rw [colors, Function.update_self]
  have elsewhere : ∀ {other}, other ≠ source ->
      (board.removeChip source.getX source.getY).2.color other = board.color other := by
    intro other different
    rw [colors, update_of_ne different]
  have goal := sound.goals source
  rw [own] at goal
  refine canPlace_eq_true.mpr ⟨source, ⟨rfl, rfl⟩, ⟨sound.corners taken, goal⟩, isFree, ?_, ?_⟩
  · rw [notGroupOfThree_iff (by rw [isFree]; exact chip.symm)]
    constructor
    · intro first second touches touchesToo has hasToo
      rw [elsewhere touches.1.symm] at has
      rw [elsewhere touchesToo.1.symm] at hasToo
      exact sound.sparse taken first second touches touchesToo (has.trans own.symm)
        (hasToo.trans own.symm)
    · intro other touches has another touchesToo hasToo
      -- the neighbour had the chip as its only neighbour
      rw [elsewhere touches.1.symm] at has
      have different : another ≠ source := by
        rintro rfl
        rw [isFree] at hasToo
        exact chip hasToo.symm
      rw [elsewhere different] at hasToo
      have takenToo : board.Occupied other := fun empty => chip (has ▸ empty)
      exact different (sound.sparse takenToo another source touchesToo touches.symm
        (hasToo.trans has.symm) (own.trans has.symm))
  · rw [notTooManyChips_iff chip]
    have most := sound.few color chip
    have removed : (board.removeChip source.getX source.getY).2 = board.removeAt source := by
      rw [removeChip, dif_pos (notOffBoard_get source), squareAt_get]
    rw [removed, removeAt_countColor sound taken chip, if_pos own.symm]
    omega

/-- What `canMove` requires, on the board without the chip. -/
theorem canMove_eq_true (sound : board.Sound) (chip : color ≠ .empty)
    (can : board.canMove color source.getX source.getY target.getX target.getY =
      some (true, other)) :
    other = board ∧ board.color source = color ∧
      (board.removeChip source.getX source.getY).2.canPlace color target.getX target.getY =
        true := by
  rcases canMove_unchanged board color source target.getX target.getY with ⟨answer, same⟩
  have answered := same.symm.trans can
  simp only [Option.some.injEq, Prod.mk.injEq] at answered
  refine ⟨answered.2.symm, ?_⟩
  rw [canMove, dif_pos (notOffBoard_get source), squareAt_get] at can
  by_cases refused : board.color source ≠ color ∨
      (source.getX = target.getX ∧ source.getY = target.getY) ∨ board.countColor color ≠ 10
  · rw [if_pos refused] at can
    cases can
  · have own : board.color source = color := by
      by_contra different
      exact refused (.inl different)
    rw [if_neg refused] at can
    have placeable : ((board.setColor source .empty).changeColorCounter color (-1)).canPlace color
        target.getX target.getY = true := congrArg Prod.fst (Option.some.inj can)
    refine ⟨own, ?_⟩
    rcases removeChip_spec sound source with ⟨lifted, colors⟩
    have taken : board.Occupied source := fun empty => chip (own ▸ empty)
    have removed : (board.removeChip source.getX source.getY).2 = board.removeAt source := by
      rw [removeChip, dif_pos (notOffBoard_get source), squareAt_get]
    rw [<- placeable]
    refine canPlace_congr ?_ ?_ chip _ _
    · rw [colors, color_changeColorCounter, color_setColor]
    · rw [removed, removeAt_countColor sound taken chip, if_pos own.symm,
        countColor_changeColorCounter _ _ _ chip, countColor_setColor, if_pos rfl]

/-- A step that is taken back leaves no trace. -/
theorem placeChip_removeChip (sound : board.Sound) (chip : color ≠ .empty)
    (own : board.color source = color)
    (can : (board.removeChip source.getX source.getY).2.canPlace color target.getX target.getY =
      true) :
    let placed := (board.removeChip source.getX source.getY).2.placeChip color target.getX
      target.getY
    (placed.removeChip target.getX target.getY).2.canPlace color source.getX source.getY = true ∧
      (placed.removeChip target.getX target.getY).2.placeChip color source.getX source.getY =
        board := by
  rcases removeChip_spec sound source with ⟨lifted, colors⟩
  have back := canPlace_back sound chip own
  simp only [removeChip_placeChip lifted chip can]
  refine ⟨back, ?_⟩
  rcases placeChip_spec lifted chip back with ⟨restored, _, final⟩
  refine sound.eq_of_color restored ?_
  rw [final, colors, update_idem, <- own, update_eq_self]

end Board

end NetworkGame
end Codebank
