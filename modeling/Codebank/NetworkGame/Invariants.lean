import Codebank.NetworkGame.Connections

namespace Codebank
namespace NetworkGame

open Foundation List Function

/-!
# What holds of every board

The chips obey the rules for placing them after every history of calls, the counters are
right, and the connections are those of the chips.
-/

/-! ## Neighbours -/

/-- Different squares with a common side or corner. -/
def Square.Touches (first second : Square) : Prop :=
  first ≠ second ∧ (first.getX - 1 <= second.getX ∧ second.getX <= first.getX + 1) ∧
    first.getY - 1 <= second.getY ∧ second.getY <= first.getY + 1

theorem Square.Touches.symm {first second : Square} (touches : first.Touches second) :
    second.Touches first := by
  rcases touches with ⟨different, sameX, sameY⟩
  refine ⟨different.symm, ?_, ?_⟩
  · omega
  · omega

theorem mem_around {x y : Int} {place : Int × Int} :
    place ∈ around x y <->
      (x - 1 <= place.1 ∧ place.1 <= x + 1) ∧ y - 1 <= place.2 ∧ place.2 <= y + 1 := by
  rcases place with ⟨placeX, placeY⟩
  simp only [around, flatMap_cons, map_cons, map_nil, flatMap_nil,
    append_nil, cons_append, nil_append, mem_cons, not_mem_nil, or_false,
    Prod.mk.injEq]
  omega

theorem nodup_around (x y : Int) : (around x y).Nodup := by
  simp only [around, flatMap_cons, map_cons, map_nil, flatMap_nil,
    append_nil, cons_append, nil_append, nodup_cons, mem_cons,
    not_mem_nil, or_false, Prod.mk.injEq, nodup_nil, not_false_eq_true, and_true]
  omega

namespace Board

variable {board : Board} {square : Square} {color : Color}

/-- What the loops of `numNeighbors` count. -/
theorem counts_neighbor {place : Int × Int} :
    place ∈ around square.getX square.getY ∧
        (board.hasColor color place.1 place.2 &&
          (square.getX != place.1 || square.getY != place.2)) = true <->
      ∃ other : Square, place = (other.getX, other.getY) ∧ square.Touches other ∧
        board.color other = color := by
  rw [mem_around, Bool.and_eq_true, hasColor_eq_true, Bool.or_eq_true, bne_iff_ne, bne_iff_ne]
  constructor
  · rintro ⟨⟨nearX, nearY⟩, ⟨other, sameX, sameY, has⟩, different⟩
    refine ⟨other, Prod.ext sameX sameY, ⟨?_, ?_, ?_⟩, has⟩
    · rintro rfl
      rcases different with differentX | differentY
      · exact differentX sameX.symm
      · exact differentY sameY.symm
    · rw [<- sameX]
      exact nearX
    · rw [<- sameY]
      exact nearY
  · rintro ⟨other, rfl, ⟨different, nearX, nearY⟩, has⟩
    refine ⟨⟨nearX, nearY⟩, ⟨other, rfl, rfl, has⟩, ?_⟩
    by_cases sameX : square.getX = other.getX
    · exact .inr fun sameY => different (Square.eq_of_coordinates sameX sameY)
    · exact .inl sameX

/-- The neighbours of a colour are all the same one. -/
def AtMostOne (board : Board) (color : Color) (square : Square) : Prop :=
  ∀ first second, square.Touches first -> square.Touches second ->
    board.color first = color -> board.color second = color -> first = second

theorem numNeighbors_eq_zero :
    board.numNeighbors color square.getX square.getY = 0 <->
      ∀ other, square.Touches other -> board.color other ≠ color := by
  rw [numNeighbors, countP_eq_zero]
  constructor
  · intro none other touches has
    have counted := counts_neighbor.mpr ⟨other, rfl, touches, has⟩
    exact none _ counted.1 counted.2
  · intro none place member counted
    rcases counts_neighbor.mp ⟨member, counted⟩ with ⟨other, _, touches, has⟩
    exact none other touches has

theorem numNeighbors_le_one :
    board.numNeighbors color square.getX square.getY <= 1 <-> board.AtMostOne color square := by
  rw [numNeighbors, countP_le_one_iff (nodup_around _ _)]
  constructor
  · intro same first second touchesFirst touchesSecond hasFirst hasSecond
    have countedFirst := counts_neighbor.mpr ⟨first, rfl, touchesFirst, hasFirst⟩
    have countedSecond := counts_neighbor.mpr ⟨second, rfl, touchesSecond, hasSecond⟩
    have equal := same _ _ countedFirst.1 countedSecond.1 countedFirst.2 countedSecond.2
    exact Square.eq_of_coordinates (congrArg Prod.fst equal) (congrArg Prod.snd equal)
  · intro one first second isFirst isSecond countsFirst countsSecond
    rcases counts_neighbor.mp ⟨isFirst, countsFirst⟩ with ⟨other, rfl, touches, has⟩
    rcases counts_neighbor.mp ⟨isSecond, countsSecond⟩ with ⟨another, rfl, touchesToo, hasToo⟩
    rw [one other another touches touchesToo has hasToo]

/-- The search of `notGroupOfThree` finds a neighbour, as the square itself has another colour. -/
theorem find_neighbor (different : board.color square ≠ color) {place : Int × Int}
    (found : ((around square.getX square.getY).find? fun place =>
      board.hasColor color place.1 place.2) = some place) :
    ∃ other : Square, place = (other.getX, other.getY) ∧ square.Touches other ∧
      board.color other = color := by
  have has := find?_some found
  have near := mem_around.mp (mem_of_find?_eq_some found)
  rcases hasColor_eq_true.mp has with ⟨other, sameX, sameY, same⟩
  refine ⟨other, Prod.ext sameX sameY, ⟨?_, ?_, ?_⟩, same⟩
  · rintro rfl
    exact different same
  · rw [<- sameX]
    exact near.1
  · rw [<- sameY]
    exact near.2

/-- No cluster of three: there is at most one neighbour, and it has no other. -/
theorem notGroupOfThree_iff (different : board.color square ≠ color) :
    board.notGroupOfThree color square.getX square.getY = true <->
      board.AtMostOne color square ∧ ∀ other, square.Touches other ->
        board.color other = color -> ∀ another, other.Touches another ->
          board.color another ≠ color := by
  rw [<- numNeighbors_le_one, notGroupOfThree]
  by_cases none : board.numNeighbors color square.getX square.getY = 0
  · rw [if_pos none]
    refine ⟨fun _ => ⟨by omega, fun other touches has => ?_⟩, fun _ => rfl⟩
    exact absurd has (numNeighbors_eq_zero.mp none other touches)
  · rw [if_neg none]
    by_cases one : board.numNeighbors color square.getX square.getY = 1
    · rw [if_pos one]
      have unique := numNeighbors_le_one.mp (Nat.le_of_eq one)
      cases found : (around square.getX square.getY).find? fun place =>
          board.hasColor color place.1 place.2 with
      | none =>
        exfalso
        apply none
        rw [numNeighbors_eq_zero]
        intro other touches has
        have absent := find?_eq_none.mp found (other.getX, other.getY)
          (mem_around.mpr touches.2)
        exact absent (hasColor_eq_true.mpr ⟨other, rfl, rfl, has⟩)
      | some place =>
        rcases find_neighbor different found with ⟨other, rfl, touches, has⟩
        change decide (board.numNeighbors color other.getX other.getY = 0) = true <-> _
        rw [decide_eq_true_eq, numNeighbors_eq_zero]
        constructor
        · intro alone
          refine ⟨Nat.le_of_eq one, fun another touchesToo hasToo => ?_⟩
          rw [<- unique other another touches touchesToo has hasToo]
          exact alone
        · intro both
          exact both.2 other touches has
    · rw [if_neg one]
      constructor
      · intro impossible
        cases impossible
      · intro both
        omega

theorem canPlace_eq_true {x y : Int} :
    board.canPlace color x y = true <->
      ∃ square : Square, (x = square.getX ∧ y = square.getY) ∧
        (notInCorner square.getX square.getY = true ∧
          notInOppositeGoal color square.getX square.getY = true) ∧
        board.color square = .empty ∧
        board.notGroupOfThree color square.getX square.getY = true ∧
        board.notTooManyChips color = true := by
  unfold canPlace
  constructor
  · intro can
    by_cases onBoard : notOffBoard x y = true
    · rw [dif_pos onBoard] at can
      simp only [Bool.and_eq_true, notOccupied, decide_eq_true_eq] at can
      rcases can with ⟨⟨⟨⟨corner, goal⟩, free⟩, group⟩, few⟩
      refine ⟨squareAt x y onBoard, ⟨(getX_squareAt onBoard).symm, (getY_squareAt onBoard).symm⟩,
        ?_⟩
      rw [getX_squareAt, getY_squareAt]
      exact ⟨⟨corner, goal⟩, free, group, few⟩
    · rw [dif_neg onBoard] at can
      cases can
  · rintro ⟨square, ⟨rfl, rfl⟩, ⟨corner, goal⟩, free, group, few⟩
    rw [dif_pos (notOffBoard_get square), squareAt_get]
    simp [notOccupied, corner, goal, free, group, few]

/-! ## The invariant -/

/-- The board is as it should be. -/
structure Sound (board : Board) : Prop where
  counted : ∀ color, color ≠ .empty -> board.countColor color = board.lookFor color
  few : ∀ color, color ≠ .empty -> board.countColor color <= 10
  corners : ∀ {square}, board.Occupied square ->
    notInCorner square.getX square.getY = true
  goals : ∀ square,
    notInOppositeGoal (board.color square) square.getX square.getY = true
  sparse : ∀ {square}, board.Occupied square ->
    board.AtMostOne (board.color square) square
  connected : board.Connected
  unvisited : ∀ square, (board.grid square).visited = false

theorem sound_new : Board.new.Sound where
  counted color chip := by
    have none : tally Board.new.color color = 0 := by
      simp [tally, Board.new, Board.color, Ne.symm chip]
    rw [lookFor, none]
    cases color with
    | white => rfl
    | black => rfl
    | empty => exact absurd rfl chip
  few color chip := by
    cases color with
    | white => decide
    | black => decide
    | empty => exact absurd rfl chip
  corners taken := absurd rfl taken
  goals _ := rfl
  sparse taken := absurd rfl taken
  connected := ⟨fun taken => absurd rfl taken, fun _ _ => rfl⟩
  unvisited _ := rfl

theorem countColor_changeColorCounter (board : Board) (color other : Color)
    (chip : other ≠ .empty) (value : Int) :
    (board.changeColorCounter color value).countColor other =
      board.countColor other + if other = color then value else 0 := by
  cases color <;> cases other <;> simp [changeColorCounter, countColor] at chip ⊢

variable {after : Board}

theorem SameChips.countColor_eq (same : SameChips board after) (color : Color) :
    after.countColor color = board.countColor color := by
  cases color <;> simp [countColor, same.numWhite, same.numBlack]

theorem notTooManyChips_iff (chip : color ≠ .empty) :
    board.notTooManyChips color = true <-> board.countColor color < 10 := by
  cases color <;> simp [notTooManyChips, countColor] at chip ⊢

/-! ## Placing a chip -/

theorem countColor_setColor (board : Board) (square : Square) (color other : Color) :
    (board.setColor square color).countColor other = board.countColor other := by
  cases other <;> rfl

/-- The number of squares of a colour after one square got another. -/
theorem lookFor_of_update {new : Color}
    (colors : after.color = update board.color square new) (color : Color) :
    after.lookFor color + (if board.color square = color then 1 else 0) =
      board.lookFor color + if new = color then 1 else 0 := by
  rw [lookFor, lookFor, colors]
  exact tally_update board.color square new color

/-- The colours and the counters after `placeAt`. -/
theorem placeAt_color (sound : board.Sound) (isFree : board.color square = .empty)
    (chip : color ≠ .empty) :
    (board.placeAt color square).color = update board.color square color := by
  rw [(placeAt_spec sound.connected isFree chip).1.color, color_changeColorCounter, color_setColor]

theorem placeAt_countColor (sound : board.Sound) (isFree : board.color square = .empty)
    (chip : color ≠ .empty) {other : Color} (chipToo : other ≠ .empty) :
    (board.placeAt color square).countColor other =
      board.countColor other + if other = color then 1 else 0 := by
  rw [(placeAt_spec sound.connected isFree chip).1.countColor_eq,
    countColor_changeColorCounter _ _ _ chipToo, countColor_setColor]

/-- The new chip makes no cluster with those that are there. -/
theorem sparse_update (sound : board.Sound) (isFree : board.color square = .empty)
    (chip : color ≠ .empty) (alone : board.notGroupOfThree color square.getX square.getY = true)
    (colors : after.color = update board.color square color) {place : Square}
    (taken : after.Occupied place) : after.AtMostOne (after.color place) place := by
  have different : board.color square ≠ color := by
    rw [isFree]
    exact chip.symm
  rcases (notGroupOfThree_iff different).mp alone with ⟨one, noOther⟩
  have atSquare : after.color square = color := by
    rw [colors, update_self]
  have elsewhere : ∀ {other}, other ≠ square -> after.color other = board.color other := by
    intro other notSquare
    rw [colors, update_of_ne notSquare]
  by_cases new : place = square
  · subst new
    rw [atSquare]
    intro first second touches touchesToo has hasToo
    rw [elsewhere touches.1.symm] at has
    rw [elsewhere touchesToo.1.symm] at hasToo
    exact one first second touches touchesToo has hasToo
  · have old : board.Occupied place := by
      rw [Occupied, <- elsewhere new]
      exact taken
    rw [elsewhere new]
    -- a neighbour of the new chip has no further one
    have excluded : ∀ {other}, place.Touches square -> color = board.color place ->
        place.Touches other -> other ≠ square -> board.color other ≠ board.color place := by
      intro other near same touches _ has
      exact noOther place near.symm same.symm other touches (has.trans same.symm)
    intro first second touches touchesToo has hasToo
    by_cases isFirst : first = square
    · by_cases isSecond : second = square
      · rw [isFirst, isSecond]
      · subst isFirst
        rw [atSquare] at has
        rw [elsewhere isSecond] at hasToo
        exact absurd hasToo (excluded touches has touchesToo isSecond)
    · by_cases isSecond : second = square
      · subst isSecond
        rw [atSquare] at hasToo
        rw [elsewhere isFirst] at has
        exact absurd has (excluded touchesToo hasToo touches isFirst)
      · rw [elsewhere isFirst] at has
        rw [elsewhere isSecond] at hasToo
        exact sound.sparse old first second touches touchesToo has hasToo

theorem Sound.placeAt (sound : board.Sound) (isFree : board.color square = .empty)
    (chip : color ≠ .empty) (corner : notInCorner square.getX square.getY = true)
    (goal : notInOppositeGoal color square.getX square.getY = true)
    (alone : board.notGroupOfThree color square.getX square.getY = true)
    (room : board.notTooManyChips color = true) : (board.placeAt color square).Sound := by
  rcases placeAt_spec sound.connected isFree chip with ⟨same, connected⟩
  have colors := placeAt_color sound isFree chip
  have count := fun {other} => @placeAt_countColor board square color sound isFree chip other
  have elsewhere : ∀ {other}, other ≠ square ->
      (board.placeAt color square).color other = board.color other := by
    intro other notSquare
    rw [colors, update_of_ne notSquare]
  refine ⟨?_, ?_, ?_, ?_, ?_, connected, ?_⟩
  · intro other chipToo
    have updated := lookFor_of_update colors other
    rw [isFree, if_neg chipToo.symm, Nat.add_zero] at updated
    rw [count chipToo, updated, sound.counted other chipToo, Int.natCast_add]
    by_cases equal : other = color
    · rw [if_pos equal, if_pos equal.symm, Int.natCast_one]
    · rw [if_neg equal, if_neg (Ne.symm equal), Int.natCast_zero]
  · intro other chipToo
    have before := sound.few other chipToo
    rw [count chipToo]
    by_cases equal : other = color
    · subst equal
      rw [notTooManyChips_iff chip] at room
      rw [if_pos rfl]
      omega
    · rw [if_neg equal]
      omega
  · intro place taken
    by_cases new : place = square
    · exact new ▸ corner
    · apply sound.corners
      rw [Occupied, <- elsewhere new]
      exact taken
  · intro place
    by_cases new : place = square
    · subst new
      rw [colors, update_self]
      exact goal
    · rw [elsewhere new]
      exact sound.goals place
  · intro place taken
    exact sparse_update sound isFree chip alone colors taken
  · intro place
    rw [same.visited, grid_changeColorCounter, visited_setColor]
    exact sound.unvisited place

/-! ## Removing a chip -/

theorem removeAt_color (sound : board.Sound) (taken : board.Occupied square) :
    (board.removeAt square).color = update board.color square .empty := by
  rw [(removeAt_spec sound.connected taken).1.color, color_setColor, color_changeColorCounter]

theorem removeAt_countColor (sound : board.Sound) (taken : board.Occupied square) {other : Color}
    (chip : other ≠ .empty) :
    (board.removeAt square).countColor other =
      board.countColor other + if other = board.color square then -1 else 0 := by
  rw [(removeAt_spec sound.connected taken).1.countColor_eq, countColor_setColor,
    countColor_changeColorCounter _ _ _ chip]

theorem Sound.removeAt (sound : board.Sound) (square : Square) : (board.removeAt square).Sound := by
  by_cases taken : board.Occupied square
  · rcases removeAt_spec sound.connected taken with ⟨same, connected⟩
    have colors := removeAt_color sound taken
    have count := fun {other} => @removeAt_countColor board square sound taken other
    have elsewhere : ∀ {other}, (board.removeAt square).Occupied other ->
        board.Occupied other ∧ (board.removeAt square).color other = board.color other := by
      intro other still
      have notSquare : other ≠ square := by
        rintro rfl
        rw [Occupied, colors, update_self] at still
        exact still rfl
      have equal : (board.removeAt square).color other = board.color other := by
        rw [colors, update_of_ne notSquare]
      rw [Occupied, equal] at still
      exact ⟨still, equal⟩
    refine ⟨?_, ?_, ?_, ?_, ?_, connected, ?_⟩
    · intro other chip
      have updated := lookFor_of_update colors other
      rw [if_neg chip.symm, Nat.add_zero] at updated
      rw [count chip, sound.counted other chip, <- updated, Int.natCast_add]
      by_cases equal : other = board.color square
      · rw [if_pos equal, if_pos equal.symm, Int.natCast_one]
        omega
      · rw [if_neg equal, if_neg (Ne.symm equal), Int.natCast_zero]
        omega
    · intro other chip
      have before := sound.few other chip
      rw [count chip]
      split_ifs <;> omega
    · intro place still
      exact sound.corners (elsewhere still).1
    · intro place
      by_cases still : (board.removeAt square).Occupied place
      · rw [(elsewhere still).2]
        exact sound.goals place
      · rw [not_not.mp still]
        rfl
    · intro place still first second touches touchesToo has hasToo
      rw [(elsewhere still).2] at has hasToo
      have isFirst : (board.removeAt square).Occupied first := by
        rw [Occupied, has]
        exact (elsewhere still).1
      have isSecond : (board.removeAt square).Occupied second := by
        rw [Occupied, hasToo]
        exact (elsewhere still).1
      rw [(elsewhere isFirst).2] at has
      rw [(elsewhere isSecond).2] at hasToo
      exact sound.sparse (elsewhere still).1 first second touches touchesToo has hasToo
    · intro place
      rw [same.visited, visited_setColor, grid_changeColorCounter]
      exact sound.unvisited place
  · rw [Board.removeAt, if_pos (not_not.mp taken)]
    exact sound

/-! ## Calls -/

theorem Sound.removeChip (sound : board.Sound) (x y : Int) : (board.removeChip x y).2.Sound := by
  unfold Board.removeChip
  split_ifs
  · exact sound.removeAt _
  · exact sound

theorem Sound.placeChip (sound : board.Sound) (color : Color) (x y : Int) :
    (board.placeChip color x y).Sound := by
  unfold Board.placeChip
  by_cases none : color = .empty
  · rw [if_pos none]
    exact sound.removeChip x y
  · rw [if_neg none]
    by_cases onBoard : notOffBoard x y = true
    · rw [dif_pos onBoard]
      by_cases can : board.canPlace color x y = true
      · rw [if_pos can]
        rcases canPlace_eq_true.mp can with
          ⟨square, ⟨rfl, rfl⟩, ⟨corner, goal⟩, isFree, alone, room⟩
        rw [squareAt_get]
        exact sound.placeAt isFree none corner goal alone room
      · rw [if_neg can]
        exact sound
    · rw [dif_neg onBoard]
      exact sound

theorem setColor_changeColorCounter (board : Board) (square : Square) (color counter : Color)
    (value : Int) :
    (board.changeColorCounter counter value).setColor square color =
      (board.setColor square color).changeColorCounter counter value := by
  cases counter <;> rfl

theorem changeColorCounter_back (board : Board) (color : Color) :
    (board.changeColorCounter color (-1)).changeColorCounter color 1 = board := by
  cases color <;> simp [changeColorCounter]

theorem setColor_back (board : Board) (square : Square) (color : Color) :
    (board.setColor square color).setColor square (board.color square) = board := by
  apply Board.ext
  · simp only [setColor, update_self, update_idem]
    exact update_eq_self square board.grid
  · rfl
  · rfl

/-- The chip that `canMove` takes up is back afterwards. -/
theorem canMove_unchanged (board : Board) (color : Color) (source : Square) (xf yf : Int) :
    ∃ answer, board.canMove color source.getX source.getY xf yf = some (answer, board) := by
  rw [canMove, dif_pos (notOffBoard_get source), squareAt_get]
  by_cases refused : board.color source ≠ color ∨
      (source.getX = xf ∧ source.getY = yf) ∨ board.countColor color ≠ 10
  · exact ⟨false, if_pos refused⟩
  · have own : board.color source = color := by
      by_contra different
      exact refused (.inl different)
    rw [if_neg refused]
    refine ⟨_, congrArg some (Prod.ext rfl ?_)⟩
    subst own
    change ((((board.setColor source .empty).changeColorCounter (board.color source)
      (-1)).setColor source (board.color source)).changeColorCounter (board.color source) 1) = board
    rw [setColor_changeColorCounter, changeColorCounter_back, setColor_back]

end Board

/-- The calls of a history.  The source of a move lies on the board. -/
inductive Call where
  | placeChip (color : Color) (x y : Int)
  | removeChip (x y : Int)
  | canPlace (color : Color) (x y : Int)
  | canMove (color : Color) (source : Square) (xf yf : Int)

namespace Board

variable {board : Board}

/-- The board after a call; none if the call throws. -/
def perform (board : Board) : Call -> Option Board
  | .placeChip color x y => some (board.placeChip color x y)
  | .removeChip x y => some (board.removeChip x y).2
  | .canPlace _ _ _ => some board
  | .canMove color source xf yf =>
    (board.canMove color source.getX source.getY xf yf).map Prod.snd

def afterCalls (calls : List Call) : Option Board :=
  calls.foldlM perform Board.new

theorem perform_canMove (board : Board) (color : Color) (source : Square) (xf yf : Int) :
    board.perform (.canMove color source xf yf) = some board := by
  rcases canMove_unchanged board color source xf yf with ⟨answer, same⟩
  rw [perform, same]
  rfl

theorem Sound.perform (sound : board.Sound) (call : Call) :
    ∃ after, board.perform call = some after ∧ after.Sound := by
  cases call with
  | placeChip color x y => exact ⟨_, rfl, sound.placeChip color x y⟩
  | removeChip x y => exact ⟨_, rfl, sound.removeChip x y⟩
  | canPlace color x y => exact ⟨_, rfl, sound⟩
  | canMove color source xf yf => exact ⟨board, perform_canMove board color source xf yf, sound⟩

/-- No call of a history throws, and the board stays sound. -/
theorem sound_afterCalls (calls : List Call) :
    ∃ board, afterCalls calls = some board ∧ board.Sound := by
  induction calls using List.reverseRecOn with
  | nil => exact ⟨Board.new, rfl, sound_new⟩
  | append_singleton calls call ih =>
    rcases ih with ⟨board, done, sound⟩
    rcases sound.perform call with ⟨after, step, kept⟩
    refine ⟨after, ?_, kept⟩
    rw [afterCalls] at done
    rw [afterCalls, foldlM_append, done]
    simp [step]

/-- The board's invariants after every history, and what the two questions leave alone. -/
theorem invariants_afterCalls (calls : List Call) :
    ∃ board, afterCalls calls = some board ∧
      ((board.numWhite = board.lookFor .white ∧ board.numBlack = board.lookFor .black) ∧
        board.numWhite <= 10 ∧ board.numBlack <= 10) ∧
      (∀ square : Square, (square.getX = 0 ∨ square.getX = 7) ∧
        (square.getY = 0 ∨ square.getY = 7) -> board.color square = .empty) ∧
      (∀ square : Square,
        (board.color square = .white -> square.getY ≠ 0 ∧ square.getY ≠ 7) ∧
          (board.color square = .black -> square.getX ≠ 0 ∧ square.getX ≠ 7)) ∧
      (∀ square first second : Square, board.color square ≠ .empty ->
        square.Touches first -> square.Touches second ->
        board.color first = board.color square -> board.color second = board.color square ->
        first = second) ∧
      ((∀ square, board.color square ≠ .empty -> ∀ direction target,
          board.connections square direction = some target <->
            board.FirstOccupied square direction target) ∧
        ∀ square, board.color square = .empty -> ∀ direction,
          board.connections square direction = none) ∧
      (∀ color x y, board.perform (.canPlace color x y) = some board) ∧
      ∀ color source xf yf, board.perform (.canMove color source xf yf) = some board := by
  rcases sound_afterCalls calls with ⟨board, done, sound⟩
  refine ⟨board, done, ⟨⟨?_, ?_⟩, ?_, ?_⟩, ?_, ?_, ?_, ⟨?_, ?_⟩, fun _ _ _ => rfl,
    perform_canMove board⟩
  · exact sound.counted .white (by decide)
  · exact sound.counted .black (by decide)
  · exact sound.few .white (by decide)
  · exact sound.few .black (by decide)
  · intro square corner
    by_contra taken
    have allowed := sound.corners taken
    simp only [notInCorner, DIMENSION] at allowed
    rcases corner with ⟨sameX | sameX, sameY | sameY⟩ <;> simp [sameX, sameY] at allowed
  · intro square
    have allowed := sound.goals square
    constructor
    · intro white
      rw [white] at allowed
      simpa [notInOppositeGoal, DIMENSION] using allowed
    · intro black
      rw [black] at allowed
      simpa [notInOppositeGoal, DIMENSION] using allowed
  · intro square first second taken touches touchesToo has hasToo
    exact sound.sparse taken first second touches touchesToo has hasToo
  · intro square taken direction target
    rw [sound.connected.sees taken, sees_iff_firstOccupied]
  · intro square free direction
    exact sound.connected.empty (fun taken => taken free) direction

end Board

end NetworkGame
end Codebank
