import Codebank.Foundation.Loop
import Codebank.NetworkGame.Board

namespace Codebank
namespace NetworkGame

open Foundation List

/-!
# Connections

What `getConnection` finds is the first occupied square of a direction, and the connections
that the squares keep are patched by `placeChip` and `removeChip` so that they stay what
`getConnection` would find.
-/

/-! ## Directions -/

theorem connectionStep_cases : ∀ direction,
    (connectionStep direction).1 = 1 ∨ (connectionStep direction).1 = -1 ∨
      (connectionStep direction).1 = 0 ∧
        ((connectionStep direction).2 = 1 ∨ (connectionStep direction).2 = -1) := by
  decide

theorem connectionStep_bounds : ∀ direction,
    (-1 <= (connectionStep direction).1 ∧ (connectionStep direction).1 <= 1) ∧
      -1 <= (connectionStep direction).2 ∧ (connectionStep direction).2 <= 1 := by
  decide

/-- How many squares of the direction there are up to the edge, along one of the axes. -/
def edgeDistance (direction : Fin 8) (square : Square) : Nat :=
  if (connectionStep direction).1 = 1 then (7 - square.getX).toNat
  else if (connectionStep direction).1 = -1 then square.getX.toNat
  else if (connectionStep direction).2 = 1 then (7 - square.getY).toNat
  else square.getY.toNat

variable {direction : Fin 8}

theorem edgeDistance_moved {square target : Square}
    (step : moved (connectionStep direction) square = some target) :
    edgeDistance direction target < edgeDistance direction square := by
  rcases moved_eq_some.mp step with ⟨sameX, sameY⟩
  have lowX := target.getX_nonneg
  have lowY := target.getY_nonneg
  have highX := target.getX_lt
  have highY := target.getY_lt
  unfold edgeDistance
  rcases connectionStep_cases direction with right | left | ⟨neither, down | up⟩
  · rw [if_pos right, if_pos right]
    omega
  · rw [if_neg (by omega), if_pos left, if_neg (by omega), if_pos left]
    omega
  · rw [if_neg (by omega), if_neg (by omega), if_pos down, if_neg (by omega), if_neg (by omega),
      if_pos down]
    omega
  · rw [if_neg (by omega), if_neg (by omega), if_neg (by omega), if_neg (by omega),
      if_neg (by omega), if_neg (by omega)]
    omega

theorem edgeDistance_le (direction : Fin 8) (square : Square) :
    edgeDistance direction square <= DIMENSION := by
  have highX := square.getX_lt
  have highY := square.getY_lt
  have lowX := square.getX_nonneg
  have lowY := square.getY_nonneg
  have size : DIMENSION = 8 := rfl
  unfold edgeDistance
  split_ifs <;> omega

theorem moved_opposite (direction : Fin 8) (square target : Square)
    (step : moved (connectionStep direction) square = some target) :
    moved (connectionStep (opposite direction)) target = some square := by
  rcases moved_eq_some.mp step with ⟨sameX, sameY⟩
  rcases connectionStep_opposite direction with ⟨backX, backY⟩
  apply moved_eq_some.mpr
  omega

/-! ## The first occupied square of a direction -/

namespace Board

def Occupied (board : Board) (square : Square) : Prop :=
  board.color square ≠ .empty

/-- The target is the first occupied square: all that are nearer in the direction are empty. -/
def FirstOccupied (board : Board) (square : Square) (direction : Fin 8) (target : Square) : Prop :=
  board.Occupied target ∧ ∃ distance : Nat, 0 < distance ∧
    target.getX = square.getX + distance * (connectionStep direction).1 ∧
    target.getY = square.getY + distance * (connectionStep direction).2 ∧
    ∀ (between : Square) (nearer : Nat), 0 < nearer -> nearer < distance ->
      between.getX = square.getX + nearer * (connectionStep direction).1 ->
      between.getY = square.getY + nearer * (connectionStep direction).2 ->
      ¬ board.Occupied between

end Board

/-- A coordinate next to one end of a line lies between its ends. -/
theorem coordinate_between {first step : Int} {distance : Nat} (low : 0 <= first) (high : first < 8)
    (bounds : -1 <= step ∧ step <= 1) (positive : 0 < distance)
    (lowEnd : 0 <= first + distance * step)
    (highEnd : first + distance * step < 8) : 0 <= first + step ∧ first + step < 8 := by
  have values : step = -1 ∨ step = 0 ∨ step = 1 := by omega
  rcases values with rfl | rfl | rfl <;> omega

theorem succ_mul_step (distance : Nat) (step : Int) :
    ((distance + 1 : Nat) : Int) * step = distance * step + step := by
  rw [Int.natCast_add, Int.add_mul, Int.natCast_one, Int.one_mul]

theorem clear_iff_distance {free : Square -> Prop} {square target : Square} :
    Clear (moved (connectionStep direction)) free square target <->
      ∃ distance : Nat, 0 < distance ∧
        target.getX = square.getX + distance * (connectionStep direction).1 ∧
        target.getY = square.getY + distance * (connectionStep direction).2 ∧
        ∀ (between : Square) (nearer : Nat), 0 < nearer -> nearer < distance ->
          between.getX = square.getX + nearer * (connectionStep direction).1 ->
          between.getY = square.getY + nearer * (connectionStep direction).2 -> free between := by
  constructor
  · intro clear
    induction clear with
    | next first =>
      rcases moved_eq_some.mp first with ⟨sameX, sameY⟩
      refine ⟨1, Nat.one_pos, ?_, ?_, ?_⟩
      · rw [Int.natCast_one, Int.one_mul, sameX]
      · rw [Int.natCast_one, Int.one_mul, sameY]
      · intro between nearer positive below
        omega
    | @further _ middle _ first isFree _ ih =>
      rcases ih with ⟨distance, _, sameX, sameY, all⟩
      rcases moved_eq_some.mp first with ⟨nextX, nextY⟩
      refine ⟨distance + 1, Nat.succ_pos _, ?_, ?_, ?_⟩
      · rw [succ_mul_step]
        omega
      · rw [succ_mul_step]
        omega
      · intro between nearer positive below placeX placeY
        cases nearer with
        | zero => omega
        | succ nearer =>
          rw [succ_mul_step] at placeX placeY
          by_cases none : nearer = 0
          · subst none
            have same : middle = between :=
              Square.eq_of_coordinates (by omega) (by omega)
            exact same ▸ isFree
          · exact all between nearer (by omega) (by omega) (by omega) (by omega)
  · rintro ⟨distance, positive, sameX, sameY, all⟩
    induction distance generalizing square with
    | zero => omega
    | succ distance ih =>
      by_cases last : distance = 0
      · subst last
        exact .next (moved_eq_some.mpr (by omega))
      · rcases connectionStep_bounds direction with ⟨boundsX, boundsY⟩
        have inX := coordinate_between square.getX_nonneg square.getX_lt boundsX positive
          (sameX ▸ target.getX_nonneg) (sameX ▸ target.getX_lt)
        have inY := coordinate_between square.getY_nonneg square.getY_lt boundsY positive
          (sameY ▸ target.getY_nonneg) (sameY ▸ target.getY_lt)
        rcases exists_square (notOffBoard_iff.mpr ⟨inX.1, inX.2, inY.1, inY.2⟩) with
          ⟨middle, middleX, middleY⟩
        rw [succ_mul_step] at sameX sameY
        refine .further (moved_eq_some.mpr ⟨middleX.symm, middleY.symm⟩) ?_ ?_
        · exact all middle 1 Nat.one_pos (by omega) (by omega) (by omega)
        · refine ih (by omega) (by omega) (by omega) ?_
          intro between nearer below less placeX placeY
          refine all between (nearer + 1) (Nat.succ_pos _) (by omega) ?_ ?_
          · rw [succ_mul_step]
            omega
          · rw [succ_mul_step]
            omega

namespace Board

variable {board : Board} {square target : Square} {direction : Fin 8}

theorem sees_iff_firstOccupied :
    Sees (moved (connectionStep direction)) board.Occupied square target <->
      board.FirstOccupied square direction target := by
  rw [Sees, FirstOccupied, clear_iff_distance, and_comm]

/-- The loop of `getConnection` finds it. -/
theorem getConnection_eq_some :
    board.getConnection square direction = some target <->
      Sees (moved (connectionStep direction)) board.Occupied square target := by
  have occupied : (fun place => (board.color place != .empty) = true) = board.Occupied := by
    funext place
    simp [Occupied]
  rw [getConnection, firstHit_eq_some (fun _ _ => edgeDistance_moved)
    (edgeDistance_le direction square), occupied]

/-- The connections that the squares keep are those that `getConnection` finds. -/
def Connected (board : Board) : Prop :=
  Caches (fun direction => moved (connectionStep direction)) board.Occupied board.connections

/-- The connections are determined by the colours. -/
theorem Connected.unique {other : Board} (connected : board.Connected)
    (connectedToo : other.Connected) (same : other.color = board.color) :
    other.connections = board.connections := by
  have occupied : other.Occupied = board.Occupied := by
    funext square
    rw [Occupied, Occupied, same]
  funext square direction
  apply Option.ext
  intro target
  by_cases taken : board.Occupied square
  · rw [connected.sees taken, connectedToo.sees (occupied ▸ taken), occupied]
  · rw [connected.empty taken, connectedToo.empty (occupied ▸ taken)]

/-! ## The loops -/

section

variable (connections : Fin 8 -> Option Square)

include connections

theorem sameChips_connect (board : Board) :
    SameChips board (connect connections square board direction) := by
  unfold connect
  cases connections direction with
  | none => exact SameChips.refl board
  | some connection =>
    exact (sameChips_setConnection _ _ _ _).trans (sameChips_setConnection _ _ _ _)

theorem connections_connect (others : connections direction ≠ some square) (place : Square)
    (way : Fin 8) :
    (connect connections square board direction).connections place way =
      if place = square ∧ way = direction then
        (connections direction).or (board.connections place way)
      else if connections direction = some place ∧ way = opposite direction then some square
      else board.connections place way := by
  unfold connect
  cases found : connections direction with
  | none =>
    simp
  | some connection =>
    have different : connection ≠ square := fun same => others (same ▸ found)
    change ((board.setConnection square direction (some connection)).setConnection connection
      (opposite direction) (some square)).connections place way = _
    rw [connections_setConnection, connections_setConnection]
    by_cases atSquare : place = square ∧ way = direction
    · rw [if_neg, if_pos atSquare, if_pos atSquare, Option.some_or]
      rintro ⟨same, _⟩
      exact different (same.symm.trans atSquare.1)
    · rw [if_neg atSquare, if_neg atSquare]
      by_cases behind : place = connection ∧ way = opposite direction
      · rw [if_pos behind, if_pos ⟨congrArg some behind.1.symm, behind.2⟩]
      · rw [if_neg behind, if_neg fun both => behind ⟨(Option.some.inj both.1).symm, both.2⟩]

/-- After some turns of the loop of `placeChip`: a direction that is done has its connection,
and its end points back. -/
theorem foldl_connect_done (others : ∀ direction, connections direction ≠ some square)
    (unconnected : ∀ way, board.connections square way = none) :
    SameChips board ((finRange 8).foldl (connect connections square) board) ∧
      ∀ place way,
        ((finRange 8).foldl (connect connections square) board).connections place way =
          if place = square then if way ∈ finRange 8 then connections way else none
          else if opposite way ∈ finRange 8 ∧ connections (opposite way) = some place then
            some square
          else board.connections place way := by
  refine foldl_invariant (fun done (current : Board) => SameChips board current ∧
    ∀ place way, current.connections place way =
      if place = square then if way ∈ done then connections way else none
      else if opposite way ∈ done ∧ connections (opposite way) = some place then some square
      else board.connections place way) (nodup_finRange 8) ?_ ?_
  · refine ⟨SameChips.refl board, fun place way => ?_⟩
    by_cases same : place = square
    · subst same
      simp [unconnected]
    · simp [same]
  · intro done direction current _ fresh holds
    refine ⟨holds.1.trans (sameChips_connect connections current), fun place way => ?_⟩
    rw [connections_connect connections (others direction), holds.2]
    by_cases atSquare : place = square
    · subst atSquare
      by_cases now : way = direction
      · subst now
        simp [fresh]
      · simp [now, others]
    · by_cases back : way = opposite direction
      · subst back
        simp [atSquare, opposite_opposite, fresh]
      · have notNow : opposite way ≠ direction := fun now =>
          back (by rw [<- now, opposite_opposite])
        simp [atSquare, back, notNow]

/-- After the loop of `placeChip`. -/
theorem foldl_connect (others : ∀ direction, connections direction ≠ some square)
    (unconnected : ∀ way, board.connections square way = none) :
    SameChips board ((finRange 8).foldl (connect connections square) board) ∧
      ((finRange 8).foldl (connect connections square) board).connections =
        fun place way =>
          if place = square then connections way
          else if connections (opposite way) = some place then some square
          else board.connections place way := by
  rcases foldl_connect_done connections others unconnected with ⟨same, holds⟩
  refine ⟨same, ?_⟩
  funext place way
  rw [holds]
  simp

theorem sameChips_disconnect (board : Board) :
    SameChips board (disconnect connections square board direction) :=
  (((sameChips_setConnection _ _ _ _).trans (sameChips_setConnection _ _ _ _)).trans
    (sameChips_linkFrom _ _ _ _)).trans (sameChips_linkFrom _ _ _ _)

section

variable (others : ∀ direction, connections direction ≠ some square)

include others

/-- One turn concerns a direction and the opposite one. -/
theorem connections_disconnect (place : Square) (way : Fin 8) :
    (disconnect connections square board direction).connections place way =
      if way = direction ∨ opposite way = direction then
        if place = square then none
        else if connections (opposite way) = some place then connections way
        else board.connections place way
      else board.connections place way := by
  have turned := opposite_ne direction
  have back : opposite way = direction <-> way = opposite direction := by
    constructor
    · rintro rfl
      rw [opposite_opposite]
    · rintro rfl
      rw [opposite_opposite]
  simp only [disconnect, connections_linkFrom, connections_setConnection, back]
  by_cases ahead : way = direction
  · subst ahead
    by_cases same : place = square
    · subst same
      simp [turned.symm, others]
    · simp [turned.symm, same]
  · by_cases behind : way = opposite direction
    · subst behind
      by_cases same : place = square
      · subst same
        simp [turned, others]
      · simp [turned, same, opposite_opposite]
    · simp [ahead, behind]

theorem foldl_disconnect_done :
    SameChips board (((finRange 8).take 4).foldl (disconnect connections square) board) ∧
      ∀ place way,
        (((finRange 8).take 4).foldl (disconnect connections square) board).connections place
            way =
          if way ∈ (finRange 8).take 4 ∨ opposite way ∈ (finRange 8).take 4 then
            if place = square then none
            else if connections (opposite way) = some place then connections way
            else board.connections place way
          else board.connections place way := by
  refine foldl_invariant (fun done (current : Board) => SameChips board current ∧
    ∀ place way, current.connections place way =
      if way ∈ done ∨ opposite way ∈ done then
        if place = square then none
        else if connections (opposite way) = some place then connections way
        else board.connections place way
      else board.connections place way) (by decide) ?_ ?_
  · exact ⟨SameChips.refl board, fun place way => by simp⟩
  · intro done direction current _ _ holds
    refine ⟨holds.1.trans (sameChips_disconnect connections current), fun place way => ?_⟩
    rw [connections_disconnect connections others, holds.2]
    by_cases now : way = direction ∨ opposite way = direction
    · have covered : way ∈ done ++ [direction] ∨ opposite way ∈ done ++ [direction] := by
        simp only [mem_append, mem_singleton]
        exact now.imp .inr .inr
      rw [if_pos now, if_pos covered]
      by_cases same : place = square
      · rw [if_pos same, if_pos same]
      · rw [if_neg same, if_neg same]
        by_cases found : connections (opposite way) = some place
        · rw [if_pos found, if_pos found]
        · simp [found]
    · have unchanged : (way ∈ done ++ [direction] ∨ opposite way ∈ done ++ [direction]) <->
          (way ∈ done ∨ opposite way ∈ done) := by
        simp only [mem_append, mem_singleton]
        tauto
      rw [if_neg now]
      simp only [unchanged]

/-- After the loop of `removeChip`. -/
theorem foldl_disconnect :
    SameChips board (((finRange 8).take 4).foldl (disconnect connections square) board) ∧
      (((finRange 8).take 4).foldl (disconnect connections square) board).connections =
        fun place way =>
          if place = square then none
          else if connections (opposite way) = some place then connections way
          else board.connections place way := by
  have covered : ∀ way : Fin 8,
      way ∈ (finRange 8).take 4 ∨ opposite way ∈ (finRange 8).take 4 := by
    decide
  rcases foldl_disconnect_done connections others with ⟨same, holds⟩
  refine ⟨same, ?_⟩
  funext place way
  rw [holds, if_pos (covered way)]

end

end

/-! ## Placing and removing a chip -/

/-- A square is never connected with itself. -/
theorem getConnection_ne_self (board : Board) (square : Square) (direction : Fin 8) :
    board.getConnection square direction ≠ some square := by
  intro found
  have sees := getConnection_eq_some.mp found
  exact absurd (sees.1.descends fun _ _ => edgeDistance_moved) (Nat.lt_irrefl _)

/-- The chips after `placeAt`, before the connections are patched. -/
theorem placeAt_spec {color : Color} (connected : board.Connected)
    (isFree : board.color square = .empty) (chip : color ≠ .empty) :
    SameChips ((board.setColor square color).changeColorCounter color 1)
        (board.placeAt color square) ∧
      (board.placeAt color square).Connected := by
  generalize placing : (board.setColor square color).changeColorCounter color 1 = placed
  have colors : placed.color = Function.update board.color square color := by
    rw [<- placing, color_changeColorCounter, color_setColor]
  have kept : placed.connections = board.connections := by
    rw [<- placing, connections_changeColorCounter, connections_setColor]
  have adds : ∀ place, placed.Occupied place <-> place = square ∨ board.Occupied place := by
    intro place
    rw [Occupied, Occupied, colors]
    by_cases same : place = square
    · subst same
      simp [chip]
    · simp [same]
  have unconnected : ∀ way, placed.connections square way = none := by
    intro way
    rw [kept]
    exact connected.empty (fun taken => taken isFree) way
  have loop := foldl_connect (placed.getConnection square) (placed.getConnection_ne_self square)
    unconnected
  have result : board.placeAt color square =
      (finRange 8).foldl (connect (placed.getConnection square) square) placed := by
    rw [placeAt, placing]
  rw [result]
  refine ⟨loop.1, ?_⟩
  have occupied : Occupied ((finRange 8).foldl
      (connect (placed.getConnection square) square) placed) = placed.Occupied := by
    funext place
    rw [Occupied, Occupied, loop.1.color]
  rw [Connected, occupied, loop.2, kept]
  exact Caches.add moved_opposite opposite_opposite connected adds
    fun _ _ => getConnection_eq_some

/-- The chips after `removeAt`, before the connections are patched. -/
theorem removeAt_spec (connected : board.Connected) (taken : board.Occupied square) :
    SameChips ((board.changeColorCounter (board.color square) (-1)).setColor square .empty)
        (board.removeAt square) ∧
      (board.removeAt square).Connected := by
  generalize lifting :
    (board.changeColorCounter (board.color square) (-1)).setColor square .empty = lifted
  have colors : lifted.color = Function.update board.color square .empty := by
    rw [<- lifting, color_setColor, color_changeColorCounter]
  have kept : lifted.connections = board.connections := by
    rw [<- lifting, connections_setColor, connections_changeColorCounter]
  have removes : ∀ place, board.Occupied place <-> place = square ∨ lifted.Occupied place := by
    intro place
    rw [Occupied, Occupied, colors]
    by_cases same : place = square
    · subst same
      have chip : board.color place ≠ .empty := taken
      simpa using chip
    · simp [same]
  have isFree : ¬ lifted.Occupied square := by
    rw [Occupied, colors]
    simp
  have loop := @foldl_disconnect lifted square (lifted.getConnection square)
    (lifted.getConnection_ne_self square)
  have result : board.removeAt square =
      ((finRange 8).take 4).foldl (disconnect (lifted.getConnection square) square)
        lifted := by
    rw [removeAt, if_neg taken, lifting]
  rw [result]
  refine ⟨loop.1, ?_⟩
  have occupied : Occupied (((finRange 8).take 4).foldl
      (disconnect (lifted.getConnection square) square) lifted) = lifted.Occupied := by
    funext place
    rw [Occupied, Occupied, loop.1.color]
  rw [Connected, occupied, loop.2, kept]
  exact Caches.remove moved_opposite opposite_opposite connected removes isFree
    fun _ _ => getConnection_eq_some

end Board

end NetworkGame
end Codebank
