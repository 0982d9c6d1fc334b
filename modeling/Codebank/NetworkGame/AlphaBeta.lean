import Mathlib.Tactic.Linarith
import Mathlib.Tactic.Positivity
import Codebank.Foundation.Pruning
import Codebank.NetworkGame.Minimax

namespace Codebank
namespace NetworkGame

open Foundation List Option

/-!
# What the search computes

The search plays on one board and restores it, so it computes what a search does that has a
board of its own for every position.  That is a game of a maximizer, black, and a minimizer,
white, and the theory of pruning applies to it.
-/

/-- The player to move: black is the maximizer. -/
def playerOf (maximizer : Bool) : Color :=
  if maximizer then .black else .white

/-- The other player. -/
def opponentOf : Color -> Color
  | .black => .white
  | _ => .black

theorem playerOf_ne_empty (maximizer : Bool) : playerOf maximizer ≠ .empty := by
  cases maximizer <;> decide

variable {player : Color}

theorem exists_playerOf (chip : player ≠ .empty) :
    ∃ maximizer, playerOf maximizer = player ∧ playerOf (!maximizer) = opponentOf player := by
  cases player with
  | black => exact ⟨true, rfl, rfl⟩
  | white => exact ⟨false, rfl, rfl⟩
  | empty => exact absurd rfl chip

/-! ## The game -/

namespace Board

/-- Whether the board has a network of the colour. -/
def wins (board : Board) (color : Color) : Bool :=
  (board.hasNetwork color).any Prod.fst

/-- The move to a square, if it is one, with the board it leads to. -/
def addsAt (board : Board) (player : Color) (square : Square) : List (Move × Board) :=
  if board.canPlace player square.getX square.getY then
    [(.add square.getX square.getY, board.placeChip player square.getX square.getY)]
  else
    []

/-- The move from one square to another, if it is one, with the board it leads to. -/
def stepsTo (board : Board) (player : Color) (source target : Square) : List (Move × Board) :=
  if (board.canMove player source.getX source.getY target.getX target.getY).any Prod.fst then
    [(.step target.getX target.getY source.getX source.getY,
      (board.removeChip source.getX source.getY).2.placeChip player target.getX target.getY)]
  else
    []

def stepsFrom (board : Board) (player : Color) (source : Square) : List (Move × Board) :=
  if board.getChip source.getX source.getY ≠ player then [] else
    squares.flatMap (board.stepsTo player source)

def moves (board : Board) (player : Color) : List (Move × Board) :=
  if board.countColor player < 10 then squares.flatMap (board.addsAt player)
  else squares.flatMap (board.stepsFrom player)

end Board

section

variable {Score : Type*} [LinearOrder Score]

/-- The game, with numbers for scores and an evaluation of boards. -/
def networkGame (number : Rat -> Score) (score : Board -> Score) : Game Board Move Score where
  ending depth maximizer board :=
    if board.wins (playerOf maximizer) then some (number (winScore depth (playerOf maximizer)))
    else if board.wins (playerOf (!maximizer)) then
      some (number (winScore depth (playerOf (!maximizer))))
    else none
  evaluate := score
  moves maximizer board := board.moves (playerOf maximizer)
  worstAlpha := number WORST_ALPHA
  worstBeta := number WORST_BETA

/-! ## Loops over moves -/

/-- A loop over moves that leaves the board alone. -/
def runMoves (engine : Engine Score) (player : Color) :
    List (Move × (Score -> Score -> Score)) -> Node Score -> Bool × Node Score
  | [], node => (false, node)
  | (move, search) :: rest, node =>
    let turn := node.consider engine player move (search node.alpha node.beta) node.board
    if turn.1 then (true, turn.2) else runMoves engine player rest turn.2

variable {engine : Engine Score} {player : Color} {board : Board}

theorem consider_board (engine : Engine Score) (player : Color) (node : Node Score) (move : Move)
    (reply : Score) (board : Board) :
    (node.consider engine player move reply board).2.board = board := by
  rw [Node.consider]
  split_ifs <;> rfl

theorem runMoves_board (moves : List (Move × (Score -> Score -> Score))) (node : Node Score) :
    (runMoves engine player moves node).2.board = node.board := by
  induction moves generalizing node with
  | nil => rfl
  | cons move rest ih =>
    rw [runMoves]
    split_ifs
    · exact consider_board engine player node _ _ _
    · rw [ih]
      exact consider_board engine player node _ _ _

theorem runMoves_append (first second : List (Move × (Score -> Score -> Score)))
    (node : Node Score) :
    runMoves engine player (first ++ second) node =
      if (runMoves engine player first node).1 then (true, (runMoves engine player first node).2)
      else runMoves engine player second (runMoves engine player first node).2 := by
  induction first generalizing node with
  | nil => rfl
  | cons move rest ih =>
    rw [cons_append, runMoves, runMoves]
    by_cases stopped : (node.consider engine player move.1 (move.2 node.alpha node.beta)
        node.board).1 = true
    · simp only [if_pos stopped]
      rfl
    · simp only [if_neg stopped]
      exact ih _

/-- A loop each of whose turns runs some moves runs them all. -/
theorem loopUntil_runMoves {Item : Type*} {turn : Item -> Node Score -> Option (Bool × Node Score)}
    {candidates : Item -> List (Move × (Score -> Score -> Score))}
    (covers : ∀ item node, node.board = board ->
      turn item node = some (runMoves engine player (candidates item) node)) (items : List Item)
    (node : Node Score) (here : node.board = board) :
    loopUntil turn items node = some (runMoves engine player (items.flatMap candidates) node) := by
  induction items generalizing node with
  | nil => rfl
  | cons item items ih =>
    rw [flatMap_cons, runMoves_append]
    rw [loopUntil_cons (covers item node here)]
    cases (runMoves engine player (candidates item) node).1 with
    | true => rfl
    | false =>
      exact ih _ ((runMoves_board _ node).trans here)

/-- The loop of black is that of a maximizer. -/
theorem runMoves_black (moves : List (Move × (Score -> Score -> Score))) (node : Node Score) :
    (runMoves engine .black moves node).2.best =
      let found := maximize engine.pruning node.beta
        (moves.map fun entry => (entry.1, fun alpha => entry.2 alpha node.beta))
        (node.best.move, node.best.boardScore) node.alpha
      ⟨found.1, found.2⟩ := by
  induction moves generalizing node with
  | nil => rfl
  | cons entry rest ih =>
    rcases entry with ⟨move, search⟩
    rw [map_cons, runMoves, maximize, Node.consider]
    simp only [true_and, reduceCtorEq, false_and, if_false]
    by_cases better : node.best.boardScore < search node.alpha node.beta
    · simp only [if_pos better, Bool.and_eq_true, decide_eq_true_eq]
      split_ifs
      · rfl
      · exact ih _
    · simp only [if_neg better, Bool.and_eq_true, decide_eq_true_eq]
      split_ifs
      · rfl
      · exact ih _

open OrderDual (toDual ofDual) in
/-- The loop of white is that of a maximizer in the dual order. -/
theorem runMoves_white (moves : List (Move × (Score -> Score -> Score))) (node : Node Score) :
    (runMoves engine .white moves node).2.best =
      let found := maximize engine.pruning (toDual node.alpha)
        (moves.map fun entry => (entry.1, fun beta => toDual (entry.2 node.alpha (ofDual beta))))
        (node.best.move, toDual node.best.boardScore) (toDual node.beta)
      ⟨found.1, ofDual found.2⟩ := by
  induction moves generalizing node with
  | nil => rfl
  | cons entry rest ih =>
    rcases entry with ⟨move, search⟩
    rw [map_cons, runMoves, maximize, Node.consider]
    simp only [true_and, reduceCtorEq, false_and, if_false, OrderDual.toDual_lt_toDual,
      OrderDual.toDual_le_toDual, OrderDual.ofDual_toDual]
    by_cases better : search node.alpha node.beta < node.best.boardScore
    · simp only [if_pos better, Bool.and_eq_true, decide_eq_true_eq]
      split_ifs
      · rfl
      · exact ih _
    · simp only [if_neg better, Bool.and_eq_true, decide_eq_true_eq]
      split_ifs
      · rfl
      · exact ih _

/-! ## The turns -/

/-- The moves with the scores of the boards that they lead to. -/
def valued (value : Board -> Score -> Score -> Score) (moves : List (Move × Board)) :
    List (Move × (Score -> Score -> Score)) :=
  moves.map fun next => (next.1, value next.2)

section

variable {value : Board -> Score -> Score -> Score}
  {deeper : Score -> Score -> Board -> Option (MoveScore Score × Board)}
  (deepens : ∀ next, next.Sound -> ∀ alpha beta, ∃ reply,
    deeper alpha beta next = some (reply, next) ∧ reply.boardScore = value next alpha beta)
  (sound : board.Sound) (chip : player ≠ .empty) {node : Node Score} (here : node.board = board)

include deepens sound chip here

theorem addMove_eq (square : Square) :
    addMove engine deeper player square node =
      some (runMoves engine player (valued value (board.addsAt player square)) node) := by
  rw [addMove, Board.addsAt, here]
  by_cases can : board.canPlace player square.getX square.getY = true
  · rcases deepens _ (Board.placeChip_spec sound chip can).1 node.alpha node.beta with
      ⟨reply, done, same⟩
    simp only [if_pos can, done, Board.removeChip_placeChip sound chip can, valued, map_cons,
      map_nil, runMoves, same, here]
    split_ifs with stopped
    · exact congrArg some (Prod.ext stopped rfl)
    · exact congrArg some (Prod.ext (Bool.not_eq_true _ ▸ stopped) rfl)
  · simp only [if_neg can]
    rfl

theorem stepMove_eq (source target : Square) :
    stepMove engine deeper player source target node =
      some (runMoves engine player (valued value (board.stepsTo player source target)) node) := by
  rw [stepMove, Board.stepsTo, here]
  rcases Board.canMove_unchanged board player source target.getX target.getY with
    ⟨answer, unchanged⟩
  cases answer with
  | false =>
    simp only [unchanged, any_some, Bool.false_eq_true, if_false]
    rw [<- here]
    rfl
  | true =>
    rcases Board.canMove_eq_true sound chip unchanged with ⟨_, own, can⟩
    rcases Board.removeChip_spec sound source with ⟨lifted, _⟩
    rcases deepens _ (Board.placeChip_spec lifted chip can).1 node.alpha node.beta with
      ⟨reply, done, same⟩
    have back := (Board.placeChip_removeChip sound chip own can).2
    simp only [unchanged, any_some, if_true, done, back, valued, map_cons,
      map_nil, runMoves, same, here]
    split_ifs with stopped
    · exact congrArg some (Prod.ext stopped rfl)
    · exact congrArg some (Prod.ext (Bool.not_eq_true _ ▸ stopped) rfl)

theorem stepMovesFrom_eq (source : Square) :
    stepMovesFrom engine deeper player source node =
      some (runMoves engine player (valued value (board.stepsFrom player source)) node) := by
  rw [stepMovesFrom, Board.stepsFrom, here]
  split_ifs
  · rfl
  · rw [loopUntil_runMoves (fun target node here =>
      stepMove_eq deepens sound chip here source target) squares node here]
    rw [valued, map_flatMap]
    rfl

/-- The loops go through the moves of the board. -/
theorem moves_eq :
    (if board.countColor player < 10 then loopUntil (addMove engine deeper player) squares node
      else loopUntil (stepMovesFrom engine deeper player) squares node) =
      some (runMoves engine player (valued value (board.moves player)) node) := by
  rw [Board.moves]
  split_ifs
  · rw [loopUntil_runMoves (fun square node here =>
      addMove_eq deepens sound chip here square) squares node here]
    rw [valued, map_flatMap]
    rfl
  · rw [loopUntil_runMoves (fun source node here =>
      stepMovesFrom_eq deepens sound chip here source) squares node here]
    rw [valued, map_flatMap]
    rfl

end

/-! ## The search is that of the game -/

theorem wins_spec (sound : board.Sound) (chip : player ≠ .empty) :
    board.hasNetwork player = some (board.wins player, board) := by
  rcases hasNetwork_spec sound chip with ⟨found, done, _⟩
  rw [Board.wins, done, any_some]

variable {score : Board -> Score} {remaining depth : Nat} {maximizer : Bool} {alpha beta : Score}

omit [LinearOrder Score] in
theorem unlessNetwork_ended {ended : Score} (sound : board.Sound)
    (decided : (networkGame engine.number score).ending depth maximizer board = some ended)
    (further : Board -> Option (MoveScore Score × Board)) :
    unlessNetwork engine (playerOf maximizer) (playerOf (!maximizer)) depth board further =
      some (⟨none, ended⟩, board) := by
  rw [unlessNetwork, wins_spec sound (playerOf_ne_empty maximizer)]
  simp only [networkGame] at decided
  cases own : board.wins (playerOf maximizer) with
  | true =>
    rw [own, if_pos rfl, some.injEq] at decided
    simp only [decided]
  | false =>
    rw [own, if_neg Bool.false_ne_true] at decided
    simp only [wins_spec sound (playerOf_ne_empty (!maximizer))]
    cases other : board.wins (playerOf (!maximizer)) with
    | true =>
      rw [other, if_pos rfl, some.injEq] at decided
      simp only [decided]
    | false =>
      rw [other, if_neg Bool.false_ne_true] at decided
      cases decided

omit [LinearOrder Score] in
theorem unlessNetwork_undecided (sound : board.Sound)
    (undecided : (networkGame engine.number score).ending depth maximizer board = none)
    (further : Board -> Option (MoveScore Score × Board)) :
    unlessNetwork engine (playerOf maximizer) (playerOf (!maximizer)) depth board further =
      further board := by
  rw [unlessNetwork, wins_spec sound (playerOf_ne_empty maximizer)]
  simp only [networkGame] at undecided
  cases own : board.wins (playerOf maximizer) with
  | true =>
    rw [own, if_pos rfl] at undecided
    cases undecided
  | false =>
    rw [own, if_neg Bool.false_ne_true] at undecided
    simp only [wins_spec sound (playerOf_ne_empty (!maximizer))]
    cases other : board.wins (playerOf (!maximizer)) with
    | true =>
      rw [other, if_pos rfl] at undecided
      cases undecided
    | false => rfl

/-- The move and the score that a search of the game finds. -/
def moveScore (found : Option Move × Score) : MoveScore Score :=
  ⟨found.1, found.2⟩

/-- The search on one board computes that of the game, and leaves the board as it was. -/
theorem minimax_eq (evaluates : ∀ board : Board, board.Sound ->
      engine.evaluate board = some (score board, board)) (sound : board.Sound) :
    minimax engine remaining (playerOf maximizer) (playerOf (!maximizer)) depth alpha beta board =
      some (moveScore ((networkGame engine.number score).search engine.pruning remaining depth
        maximizer alpha beta board), board) := by
  induction remaining generalizing depth maximizer alpha beta board with
  | zero =>
    rw [minimax]
    cases decided : (networkGame engine.number score).ending depth maximizer board with
    | some ended => rw [unlessNetwork_ended sound decided, Game.search_ended decided]; rfl
    | none =>
      rw [unlessNetwork_undecided sound decided, Game.search_leaf decided, evaluates board sound]
      rfl
  | succ remaining ih =>
    rw [minimax]
    cases decided : (networkGame engine.number score).ending depth maximizer board with
    | some ended => rw [unlessNetwork_ended sound decided, Game.search_ended decided]; rfl
    | none =>
      rw [unlessNetwork_undecided sound decided]
      have deepens : ∀ next : Board, next.Sound -> ∀ alpha beta, ∃ reply,
          minimax engine remaining (playerOf (!maximizer)) (playerOf maximizer) (depth + 1)
            alpha beta next = some (reply, next) ∧
          reply.boardScore = ((networkGame engine.number score).search engine.pruning remaining
            (depth + 1) (!maximizer) alpha beta next).2 := by
        intro next soundNext alpha beta
        have deeper := @ih next (depth + 1) (!maximizer) alpha beta soundNext
        rw [Bool.not_not] at deeper
        exact ⟨_, deeper, rfl⟩
      simp only
      rw [moves_eq deepens sound (playerOf_ne_empty maximizer) rfl]
      rw [map_some, runMoves_board]
      refine congrArg some (Prod.ext ?_ rfl)
      cases maximizer with
      | true =>
        rw [Game.search_maximizer decided]
        refine (runMoves_black _ _).trans ?_
        rw [valued, List.map_map]
        rfl
      | false =>
        rw [Game.search_minimizer decided]
        refine (runMoves_white _ _).trans ?_
        rw [valued, List.map_map]
        rfl

end

/-! ## The board is left as it was -/

section

variable {Score : Type*} [LinearOrder Score]

/-- The engine of the machine player, with or without the pruning.  Which numbers the scores are
is left open. -/
def machine (number : Rat -> Score) (score : Board -> Score) (pruning : Bool) : Engine Score where
  number := number
  evaluate board := board.boardEvaluate.map fun evaluated => (score board, evaluated.2)
  pruning := pruning

/-- On every reachable board the search returns with the board as it was: colours, visited marks,
connections and counters.  A chip that was taken up for a step can be put back. -/
theorem minimax_restores (number : Rat -> Score) (score : Board -> Score) (calls : List Call) :
    ∃ board, Board.afterCalls calls = some board ∧
      ∀ player, player ≠ .empty ->
        (∀ (pruning : Bool) (remaining currDepth : Nat) (alpha beta : Score), ∃ result,
          minimax (machine number score pruning) remaining player (opponentOf player) currDepth
            alpha beta board = some (result, board)) ∧
        (∀ (source target : Square) (after : Board),
          board.canMove player source.getX source.getY target.getX target.getY =
            some (true, after) ->
          let moved := (after.removeChip source.getX source.getY).2.placeChip player target.getX
            target.getY
          (moved.removeChip target.getX target.getY).2.canPlace player source.getX source.getY =
              true ∧
            (moved.removeChip target.getX target.getY).2.placeChip player source.getX source.getY =
              board) := by
  rcases Board.sound_afterCalls calls with ⟨board, done, sound⟩
  refine ⟨board, done, fun player chip => ⟨?_, ?_⟩⟩
  · intro pruning remaining currDepth alpha beta
    rcases exists_playerOf chip with ⟨maximizer, rfl, other⟩
    rw [<- other]
    have evaluates : ∀ board : Board, board.Sound ->
        (machine number score pruning).evaluate board = some (score board, board) := by
      intro board sound
      rcases boardEvaluate_frame sound with ⟨value, evaluated⟩
      exact congrArg (Option.map _) evaluated
    exact ⟨_, minimax_eq evaluates sound⟩
  · intro source target after can
    rcases Board.canMove_eq_true sound chip can with ⟨rfl, own, placeable⟩
    exact Board.placeChip_removeChip sound chip own placeable

end

/-! ## Pruning changes nothing -/

theorem winScore_white (depth : Nat) : winScore depth .white = -winScore depth .black := by
  simp only [winScore]
  split_ifs
  · rw [BEST_ALPHA, BEST_BETA]
    linarith
  · linarith

theorem winScore_pos (depth : Nat) : 0 < winScore depth .black := by
  simp only [winScore]
  split_ifs with near
  · linarith
  · have far : (100 : Rat) <= depth := le_of_not_gt near
    have denominator : (0 : Rat) < depth - 98988 / 1000 := by linarith
    positivity

theorem winScore_le {depth : Nat} (below : 0 < depth) : winScore depth .black <= BEST_ALPHA := by
  have one : (1 : Rat) <= depth := Nat.one_le_cast.mpr below
  simp only [winScore]
  split_ifs with near
  · linarith
  · have far : (100 : Rat) <= depth := le_of_not_gt near
    have denominator : (1 : Rat) <= depth - 98988 / 1000 := by linarith
    have quotient : 1 / ((depth : Rat) - 98988 / 1000) <= 1 :=
      (div_le_one (by linarith)).mpr denominator
    rw [BEST_ALPHA]
    linarith

/-- A win is worth no more than the widest window. -/
theorem winScore_bounds {depth : Nat} (below : 0 < depth) (chip : player ≠ .empty) :
    WORST_ALPHA <= winScore depth player ∧ winScore depth player <= WORST_BETA := by
  have positive := winScore_pos depth
  have most := winScore_le below
  rw [BEST_ALPHA] at most
  rw [WORST_ALPHA, WORST_BETA]
  cases player with
  | black => exact ⟨by linarith, most⟩
  | white =>
    rw [winScore_white]
    exact ⟨by linarith, by linarith⟩
  | empty => exact absurd rfl chip

section

variable {Score : Type*} [LinearOrder Score] {number : Rat -> Score} {score : Board -> Score}

theorem networkGame_bounded (grows : StrictMono number)
    (between : ∀ board : Board, number WORST_ALPHA < score board ∧
      score board < number WORST_BETA) : (networkGame number score).Bounded where
  window := grows (by decide +kernel)
  ending := by
    intro depth maximizer board ended below decided
    have bounds : ∀ player, player ≠ .empty ->
        number WORST_ALPHA <= number (winScore depth player) ∧
          number (winScore depth player) <= number WORST_BETA := by
      intro player chip
      exact ⟨grows.monotone (winScore_bounds below chip).1,
        grows.monotone (winScore_bounds below chip).2⟩
    simp only [networkGame] at decided
    split_ifs at decided with own other
    · rw [<- some.inj decided]
      exact bounds _ (playerOf_ne_empty maximizer)
    · rw [<- some.inj decided]
      exact bounds _ (playerOf_ne_empty (!maximizer))
  evaluate board := ⟨le_of_lt (between board).1, le_of_lt (between board).2⟩

/-- On every reachable board, with a network or without, the pruned search finds the move and the
score of the plain search, if boards are evaluated between the scores of a lost and a won game. -/
theorem pruned_eq_plain (calls : List Call) {player : Color} (chip : player ≠ .empty)
    {searchDepth : Nat} (ahead : 1 <= searchDepth) (grows : StrictMono number)
    (between : ∀ (board : Board) (depth : Nat), 1 <= depth -> depth <= searchDepth ->
      number (winScore depth .white) < score board ∧
        score board < number (winScore depth .black)) :
    ∃ board result, Board.afterCalls calls = some board ∧
      ∀ pruning : Bool,
        minimaxStart ⟨number, fun board => some (score board, board), pruning⟩ searchDepth player
          (opponentOf player) board = some (result, board) := by
  rcases Board.sound_afterCalls calls with ⟨board, done, sound⟩
  rcases exists_playerOf chip with ⟨maximizer, rfl, other⟩
  have first : ∀ color, color ≠ .empty -> winScore 1 color =
      if color = .black then WORST_BETA else WORST_ALPHA := by
    intro color chip
    cases color with
    | black | white => decide +kernel
    | empty => exact absurd rfl chip
  have bounded : (networkGame number score).Bounded := by
    refine networkGame_bounded grows fun board => ?_
    have bounds := between board 1 (le_refl 1) ahead
    rw [first .white (by decide), first .black (by decide)] at bounds
    exact bounds
  refine ⟨board, moveScore ((networkGame number score).search false searchDepth
    START_DEPTH maximizer (number WORST_ALPHA) (number WORST_BETA) board), done, fun pruning => ?_⟩
  rw [minimaxStart, <- other, minimax_eq (fun _ _ => rfl) sound]
  cases pruning with
  | false => rfl
  | true =>
    have same := Game.search_eq bounded searchDepth START_DEPTH maximizer board
    exact congrArg (fun found => some (moveScore found, board)) same

end

/-- Three moves ahead on a board with two chips, with a point for a black chip in the middle. -/
theorem pruned_eq_plain_middle :
    ∃ board result,
      Board.afterCalls [.placeChip .black 1 1, .placeChip .white 4 4] = some board ∧
      ∀ pruning : Bool,
        minimaxStart ⟨id, fun board => some (if board.getChip 3 3 = .black then (1 : Rat) else 0,
          board), pruning⟩ 3 .black .white board = some (result, board) := by
  refine pruned_eq_plain _ (by decide) (by decide) strictMono_id fun board depth above below => ?_
  have near : (depth : Rat) <= 3 := by exact_mod_cast below
  have won : winScore depth .black = 100 - ((depth : Rat) - 1) :=
    if_pos (by rw [BEST_ALPHA]; linarith)
  rw [winScore_white, won]
  split_ifs <;> exact ⟨by simp only [id]; linarith, by simp only [id]; linarith⟩

end NetworkGame
end Codebank
