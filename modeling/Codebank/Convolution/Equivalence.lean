import Mathlib.Tactic.Ring
import Codebank.Convolution.Padding

namespace Codebank
namespace Convolution

open Foundation List Option

/-!
# The optimised convolution equals the reference

Each way of summing over the kernel goes through its places in the order of the flipped
kernel, so the result is always a partial sum of one series.  Vector columns are stored,
and the columns that are left are added to what `out` held.
-/

/-! ## The series of the convolution -/

section

variable {R : Type} [CommRing R]

theorem sum_rows (value : Nat -> Nat -> R) (width height : Nat) :
    ∑ index ∈ Finset.range (width * height), value (index % width) (index / width) =
      ∑ row ∈ Finset.range height, ∑ column ∈ Finset.range width, value column row := by
  induction height with
  | zero => rfl
  | succ height ih =>
    rw [Nat.mul_succ, Finset.sum_range_add, Finset.sum_range_succ, ih]
    refine congrArg (fun last => _ + last) (Finset.sum_congr rfl (fun column inside => ?_))
    have small := Finset.mem_range.mp inside
    rw [Nat.add_comm, Nat.mul_comm, place_mod small, place_div small]

namespace Problem

variable (problem : Problem R)

/-- The sum over the first places of the flipped kernel. -/
def partialSum (y count x : Nat) : R :=
  ∑ index ∈ Finset.range count, problem.flippedWeight index *
    problem.bordered (x + index % problem.kernelX) (y + index / problem.kernelX)

theorem partialSum_zero (y x : Nat) : problem.partialSum y 0 x = 0 := rfl

theorem partialSum_succ (y count x : Nat) :
    problem.partialSum y (count + 1) x = problem.partialSum y count x +
      problem.flippedWeight count *
        problem.bordered (x + count % problem.kernelX) (y + count / problem.kernelX) :=
  Finset.sum_range_succ _ _

theorem flippedWeight_eq {index : Nat} (inside : index < problem.kernelX * problem.kernelY) :
    problem.flippedWeight index =
      problem.turned (index % problem.kernelX) (index / problem.kernelX) := by
  have row : index / problem.kernelX < problem.kernelY := Nat.div_lt_of_lt_mul inside
  have column : index % problem.kernelX < problem.kernelX :=
    Nat.mod_lt _ (by rw [problem.kernelX_eq]; omega)
  have parts := Nat.mod_add_div' index problem.kernelX
  rcases Nat.exists_eq_add_of_lt row with ⟨below, height⟩
  rw [flippedWeight, turned]
  refine congrArg problem.weight ?_
  rw [height, Nat.mul_succ, Nat.mul_add]
  rw [show index / problem.kernelX + below + 1 - 1 - index / problem.kernelX = below by omega]
  rw [Nat.mul_comm (index / problem.kernelX)] at parts
  rw [Nat.mul_comm below]
  omega

/-- The whole series is the convolution. -/
theorem partialSum_full (x y : Nat) :
    problem.partialSum y (problem.kernelX * problem.kernelY) x = problem.convolved x y := by
  have terms : problem.partialSum y (problem.kernelX * problem.kernelY) x =
      ∑ index ∈ Finset.range (problem.kernelX * problem.kernelY),
        problem.term x y (index % problem.kernelX) (index / problem.kernelX) := by
    refine Finset.sum_congr rfl (fun index inside => ?_)
    rw [problem.flippedWeight_eq (Finset.mem_range.mp inside)]
    rfl
  rw [terms, sum_rows, Finset.sum_comm, convolved]

end Problem

end

/-! ## Sums over the kernel -/

/-- The kernel is flipped, and the image has its border. -/
structure Problem.Prepared {R : Type} [CommRing R] (problem : Problem R) (kern padded : Buffer R) :
    Prop where
  kern : kern.Holds (problem.kernelX * problem.kernelY) problem.flippedWeight
  padded : padded.Holds (problem.paddedX * problem.paddedY) problem.paddedValue

section

variable {R : Type} [CommRing R] (problem : Problem R) {kern padded : Buffer R} {x y : Nat}
  (prepared : problem.Prepared kern padded) (row : y < problem.dataSizeY) {index : Nat}

omit [CommRing R] in
/-- The places of the padded copy that a cell's window covers. -/
theorem window_lt (problem : Problem R) {x y : Nat} (column : x < problem.dataSizeX)
    (row : y < problem.dataSizeY) (below : index < problem.kernelX * problem.kernelY) :
    x + index % problem.kernelX < problem.paddedX ∧
      y + index / problem.kernelX < problem.paddedY := by
  have inRow : index / problem.kernelX < problem.kernelY := Nat.div_lt_of_lt_mul below
  have inColumn : index % problem.kernelX < problem.kernelX :=
    Nat.mod_lt _ (by rw [problem.kernelX_eq]; omega)
  rw [Problem.paddedX, Problem.paddedY]
  omega

theorem window_value (column : x < problem.dataSizeX) (row : y < problem.dataSizeY)
    (below : index < problem.kernelX * problem.kernelY) :
    problem.paddedValue
        ((x + index % problem.kernelX) + problem.paddedX * (y + index / problem.kernelX)) =
      problem.bordered (x + index % problem.kernelX) (y + index / problem.kernelX) := by
  rw [Nat.add_comm, Nat.mul_comm,
    problem.paddedValue_place (window_lt problem column row below).1]

theorem partialSum_window (column : x < problem.dataSizeX) (row : y < problem.dataSizeY)
    (below : index < problem.kernelX * problem.kernelY) :
    problem.partialSum y (index + 1) x = problem.partialSum y index x +
      problem.flippedWeight index * problem.paddedValue
        ((x + index % problem.kernelX) + problem.paddedX * (y + index / problem.kernelX)) := by
  rw [window_value problem column row below, problem.partialSum_succ]

include prepared row

section

variable (column : x + 3 < problem.dataSizeX)

include column

/-- One place more of the kernel. -/
theorem tap_adds {kernColumn kernRow : Nat} {result : M128 R}
    (soFar : result = lanes (problem.partialSum y index) x)
    (below : index < problem.kernelX * problem.kernelY)
    (inColumn : index % problem.kernelX = kernColumn) (inRow : index / problem.kernelX = kernRow) :
    Yields (tap kern padded problem.paddedX x y result index kernColumn kernRow)
      (fun next => next = lanes (problem.partialSum y (index + 1)) x) := by
  subst soFar inColumn inRow
  have window := window_lt problem column row below
  have inside := place_lt (show x + index % problem.kernelX + 3 < problem.paddedX by omega) window.2
  rw [Nat.mul_comm] at inside
  have next : ∀ part, part < 4 -> problem.partialSum y (index + 1) (x + part) =
      problem.partialSum y index (x + part) + problem.flippedWeight index * problem.paddedValue
        ((x + index % problem.kernelX) + problem.paddedX * (y + index / problem.kernelX) +
          part) := by
    intro part small
    rw [partialSum_window problem (by omega) row below]
    congr 3
    omega
  have first : problem.partialSum y (index + 1) x = problem.partialSum y index x +
      problem.flippedWeight index * problem.paddedValue
        ((x + index % problem.kernelX) + problem.paddedX * (y + index / problem.kernelX)) :=
    next 0 (by decide)
  rw [tap, load1, prepared.kern.load below, loadu_holds prepared.padded (by omega)]
  refine yields_some ?_
  rw [lanes, lanes, lanes, first, next 1 (by decide), next 2 (by decide), next 3 (by decide)]
  rfl

/-- The loop over the places that are left. -/
theorem tapRest_sums {start : Nat} (below : start <= problem.kernelX * problem.kernelY) :
    Yields (stride (fun i result =>
        tap kern padded problem.paddedX x y result i (i % problem.kernelX) (i / problem.kernelX))
        1 0 (problem.kernelX * problem.kernelY) start (lanes (problem.partialSum y start) x))
      (fun last => last.2 = lanes (fun x => problem.convolved x y) x) := by
  refine (stride_yields (fun i result => i <= problem.kernelX * problem.kernelY ∧
    result = lanes (problem.partialSum y i) x) Nat.one_pos ?_ ⟨below, rfl⟩).mono ?_
  · rintro i result inside ⟨_, sums⟩
    exact (tap_adds problem prepared row column sums inside rfl rfl).mono
      (fun next sums => ⟨inside, sums⟩)
  · rintro last ⟨⟨most, same⟩, done⟩
    have whole : last.1 = problem.kernelX * problem.kernelY := by omega
    rw [same, whole]
    simp only [lanes, problem.partialSum_full]

theorem sum3x3_sums (columns : problem.kernelX = 3) (rows : problem.kernelY = 3) :
    Yields (sum3x3 kern padded problem.paddedX x y)
      (fun result => result = lanes (fun x => problem.convolved x y) x) := by
  have next : ∀ {index kernColumn kernRow : Nat} {result : M128 R}, index < 9 ->
      index % 3 = kernColumn -> index / 3 = kernRow ->
      result = lanes (problem.partialSum y index) x ->
      Yields (tap kern padded problem.paddedX x y result index kernColumn kernRow)
        (fun next => next = lanes (problem.partialSum y (index + 1)) x) := by
    intro index kernColumn kernRow result below inColumn inRow sums
    refine tap_adds problem prepared row column sums ?_ ?_ ?_
    · rw [columns, rows]
      exact below
    · rw [columns]
      exact inColumn
    · rw [columns]
      exact inRow
  rw [sum3x3]
  refine (next (by decide) rfl rfl rfl).bind (fun first one => ?_)
  refine (next (by decide) rfl rfl one).bind (fun second two => ?_)
  refine (next (by decide) rfl rfl two).bind (fun third three => ?_)
  refine (next (by decide) rfl rfl three).bind (fun fourth four => ?_)
  refine (next (by decide) rfl rfl four).bind (fun fifth five => ?_)
  refine (next (by decide) rfl rfl five).bind (fun sixth six => ?_)
  refine (next (by decide) rfl rfl six).bind (fun seventh seven => ?_)
  refine (next (by decide) rfl rfl seven).bind (fun eighth eight => ?_)
  refine (next (by decide) rfl rfl eight).mono (fun ninth nine => ?_)
  have whole : ∀ x, problem.partialSum y (8 + 1) x = problem.convolved x y := by
    intro x
    rw [<- problem.partialSum_full, columns, rows]
  rw [nine]
  simp only [lanes, whole]

theorem unrolledSum_sums :
    Yields (unrolledSum kern padded problem.paddedX x y problem.kernelX
        (problem.kernelX * problem.kernelY))
      (fun result => result = lanes (fun x => problem.convolved x y) x) := by
  have positive : 0 < problem.kernelX := by
    rw [problem.kernelX_eq]
    omega
  rw [unrolledSum]
  refine (stride_yields (fun i (state : Nat × M128 R) => i <= problem.kernelX * problem.kernelY ∧
    i = state.1 * problem.kernelX ∧ state.2 = lanes (problem.partialSum y i) x) positive
    ?_ ⟨Nat.zero_le _, (Nat.zero_mul _).symm, rfl⟩).bind ?_
  · rintro i state inside ⟨_, counted, sums⟩
    refine (foldlM_range_yields (fun part result =>
      result = lanes (problem.partialSum y (i + part)) x) sums ?_).bind ?_
    · intro part result small sums
      refine tap_adds problem prepared row column sums (by omega) ?_ ?_
      · rw [counted, Nat.add_comm, place_mod small]
      · rw [counted, Nat.add_comm, place_div small]
    · intro result sums
      refine yields_some ⟨by omega, ?_, sums⟩
      rw [counted, Nat.add_mul, Nat.one_mul]
  · rintro rows ⟨⟨most, _, same⟩, _⟩
    rw [same]
    exact (tapRest_sums problem prepared row column most).bind
      (fun last sums => yields_some sums)

theorem genericSum_sums :
    Yields (genericSum kern padded problem.paddedX x y problem.kernelX
        (problem.kernelX * problem.kernelY))
      (fun result => result = lanes (fun x => problem.convolved x y) x) := by
  rw [genericSum]
  refine (stride_yields (fun i result => i <= problem.kernelX * problem.kernelY ∧
    result = lanes (problem.partialSum y i) x) (by decide) ?_ ⟨Nat.zero_le _, rfl⟩).bind ?_
  · rintro i result inside ⟨_, sums⟩
    refine (foldlM_range_yields (fun part result =>
      result = lanes (problem.partialSum y (i + part)) x) sums ?_).mono ?_
    · intro part result small sums
      exact tap_adds problem prepared row column sums (by omega) rfl rfl
    · intro result sums
      exact ⟨by omega, sums⟩
  · rintro nines ⟨⟨most, same⟩, _⟩
    rw [same]
    exact (tapRest_sums problem prepared row column most).bind
      (fun last sums => yields_some sums)

end

/-- The scalar loop adds the convolution to its cell. -/
theorem scalarCell_adds (column : x < problem.dataSizeX) {out : Buffer R} {sum : R}
    (place : x + y * problem.dataSizeX < out.size)
    (holds : out.cell (x + y * problem.dataSizeX) = some sum) :
    Yields (scalarCell kern padded problem.paddedX x y problem.dataSizeX
        (problem.kernelX * problem.kernelY) problem.kernelX out)
      (Written out (fun _ => sum + problem.convolved x y)
        (fun index => index = x + y * problem.dataSizeX)) := by
  rw [scalarCell, <- problem.partialSum_full]
  refine foldlM_range_yields (fun count => Written out
    (fun _ => sum + problem.partialSum y count x)
    (fun index => index = x + y * problem.dataSizeX)) ?_ ?_
  · rw [problem.partialSum_zero, add_zero]
    exact Written.unchanged holds
  · intro index now below written
    have window := window_lt problem column row below
    have inside := place_lt window.1 window.2
    have room : x + y * problem.dataSizeX < now.size := written.size.symm ▸ place
    rw [Buffer.load, if_pos room, written.inside _ rfl, prepared.kern.load below,
      prepared.padded.load (by rw [Nat.mul_comm problem.paddedX (y + _)]; exact inside)]
    refine (store_written (fun _ => sum + problem.partialSum y (index + 1) x) room ?_).mono
      (fun next last => written.overwrite last)
    rw [partialSum_window problem column row below, add_assoc]

end

/-! ## Rows -/

section

variable {R : Type} [CommRing R] (problem : Problem R)

/-- The columns that are computed four at a time. -/
def Problem.vectorColumns {R : Type} (problem : Problem R) : Nat :=
  4 * (problem.dataSizeX / 4)

/-- What `conv2D` leaves in a cell that held a value: vector columns forget it. -/
def Problem.left (old : Nat -> R) (index : Nat) : R :=
  (if index % problem.dataSizeX < problem.vectorColumns then 0 else old index) +
    problem.convolved (index % problem.dataSizeX) (index / problem.dataSizeX)

/-- Every cell of `out` is left with its value. -/
def Problem.Leaves (old : Nat -> R) (out now : Buffer R) : Prop :=
  Written out (problem.left old) (fun index => index < problem.dataSizeX * problem.dataSizeY) now

theorem left_vector (old : Nat -> R) {x y : Nat} (column : x < problem.dataSizeX)
    (vector : x < problem.vectorColumns) :
    problem.left old (x + y * problem.dataSizeX) = problem.convolved x y := by
  rw [Problem.left, place_mod column, place_div column, if_pos vector, zero_add]

theorem left_scalar (old : Nat -> R) {x y : Nat} (column : x < problem.dataSizeX)
    (scalar : problem.vectorColumns <= x) :
    problem.left old (x + y * problem.dataSizeX) =
      old (x + y * problem.dataSizeX) + problem.convolved x y := by
  rw [Problem.left, place_mod column, place_div column, if_neg (Nat.not_lt.mpr scalar)]

variable {kern padded : Buffer R} (prepared : problem.Prepared kern padded)

include prepared

theorem convRow_written {vectorSum : Nat -> Option (M128 R)} {old : Nat -> R} {out : Buffer R}
    {y : Nat} (row : y < problem.dataSizeY)
    (sums : ∀ x, x + 3 < problem.dataSizeX -> Yields (vectorSum x)
      (fun result => result = lanes (fun x => problem.convolved x y) x))
    (size : out.size = problem.dataSizeX * problem.dataSizeY)
    (held : ∀ x, x < problem.dataSizeX ->
      out.cell (x + y * problem.dataSizeX) = some (old (x + y * problem.dataSizeX))) :
    Yields (convRow vectorSum kern padded problem.dataSizeX problem.paddedX
        (problem.kernelX * problem.kernelY) problem.kernelX y out)
      (Written out (problem.left old) (fun index =>
        y * problem.dataSizeX <= index ∧ index < y * problem.dataSizeX + problem.dataSizeX)) := by
  have vectors : problem.vectorColumns = 4 * (problem.dataSizeX / 4) := rfl
  rw [convRow]
  refine (stride_written (y * problem.dataSizeX) (problem.left old) (Nat.zero_le _) ?_).bind ?_
  · rintro x now ⟨count, reached⟩ inside same _
    have place := place_lt inside row
    refine (sums x inside).bind (fun result summed => ?_)
    refine (storeu_written (problem.left old) (by omega) ?_).mono
      (fun next written => written.congr (fun index => by omega))
    have lane : ∀ part, part < 4 ->
        problem.left old (x + y * problem.dataSizeX + part) = problem.convolved (x + part) y := by
      intro part small
      rw [Nat.add_right_comm]
      exact left_vector problem old (by omega) (by omega)
    have first : problem.left old (x + y * problem.dataSizeX) = problem.convolved x y :=
      lane 0 (by decide)
    rw [summed, lanes, lanes, first, lane 1 (by decide), lane 2 (by decide), lane 3 (by decide)]
  · rintro quads ⟨reached, ⟨turns, counted⟩, quadsWritten⟩
    refine (stride_written (y * problem.dataSizeX) (problem.left old) reached.1 ?_).bind ?_
    · rintro x now ⟨count, later⟩ inside same untouched
      have column : x < problem.dataSizeX := inside
      have place := place_lt column row
      have cell : now.cell (x + y * problem.dataSizeX) =
          some (old (x + y * problem.dataSizeX)) := by
        rw [untouched _ (by omega), quadsWritten.outside _ (by omega), held x column]
      have room : x + y * problem.dataSizeX < now.size := by
        rw [same, quadsWritten.size, size]
        exact place
      refine (scalarCell_adds problem prepared row column room cell).mono
        (fun next written => ?_)
      have target : Written now (problem.left old)
          (fun index => index = x + y * problem.dataSizeX) next := by
        refine written.retarget ?_
        rintro index rfl
        exact (left_scalar problem old column (by omega)).symm
      exact target.congr (fun index => by omega)
    · rintro rest ⟨ended, _, restWritten⟩
      refine yields_some ((quadsWritten.trans restWritten).congr (fun index => by omega))

end

/-! ## The parallel loop -/

section

variable {R : Type} {kernFlipped : Buffer R} {shared : Shared R}

/-- Every thread that has run a row has copied the flipped kernel. -/
def Copied (kernFlipped : Buffer R) (shared : Shared R) : Prop :=
  ∀ thread, shared.kernLocal thread = none ∨ shared.kernLocal thread = some kernFlipped

theorem Copied.localKernel_eq (copied : Copied kernFlipped shared) (thread : Nat) :
    localKernel kernFlipped shared thread = kernFlipped := by
  rcases copied thread with none | same
  · rw [localKernel, none]
    rfl
  · rw [localKernel, same]
    rfl

theorem Copied.after (copied : Copied kernFlipped shared) (out : Buffer R) (thread : Nat) :
    Copied kernFlipped (Shared.mk out (fun other =>
      if other = thread then some kernFlipped else shared.kernLocal other)) := by
  intro other
  show (if other = thread then some kernFlipped else shared.kernLocal other) = none ∨
    (if other = thread then some kernFlipped else shared.kernLocal other) = some kernFlipped
  split
  · exact .inr rfl
  · exact copied other

end

/-- The cells of one row of the output. -/
def InRow (width y index : Nat) : Prop :=
  y * width <= index ∧ index < y * width + width

theorem InRow.div_eq {width y index : Nat} (inRow : InRow width y index) : index / width = y := by
  refine Nat.div_eq_of_lt_le inRow.1 ?_
  rw [Nat.add_mul, Nat.one_mul]
  exact inRow.2

/-- The rows a team runs are the whole output. -/
theorem rows_cover (team : Team) (loop width height index : Nat) :
    (∃ turn, turn ∈ team.turns loop height ∧ InRow width turn.2 index) <->
      index < width * height := by
  constructor
  · rintro ⟨turn, member, low, high⟩
    have below := team.iteration_lt loop height member
    have bound := Nat.mul_le_mul_right width (Nat.succ_le_of_lt below)
    rw [Nat.succ_mul, Nat.mul_comm height] at bound
    omega
  · intro inside
    have positive : 0 < width := Nat.pos_of_mul_pos_right (Nat.zero_lt_of_lt inside)
    rcases team.iteration_run loop height (Nat.div_lt_of_lt_mul inside) with ⟨turn, member, same⟩
    refine ⟨turn, member, ?_⟩
    rw [same, InRow]
    have parts := Nat.mod_add_div' index width
    have small := Nat.mod_lt index positive
    omega

section

variable {R : Type} [CommRing R] (problem : Problem R) (team : Team) (loop : Nat)
  {old : Nat -> R} {out : Buffer R}
  (holds : out.Holds (problem.dataSizeX * problem.dataSizeY) old)

include holds

theorem convolve_written {kernFlipped : Buffer R}
    {row : Buffer R -> Nat -> Buffer R -> Option (Buffer R)}
    (rows : ∀ y now, y < problem.dataSizeY ->
      now.size = problem.dataSizeX * problem.dataSizeY ->
      (∀ x, x < problem.dataSizeX ->
        now.cell (x + y * problem.dataSizeX) = some (old (x + y * problem.dataSizeX))) ->
      Yields (row kernFlipped y now)
        (Written now (problem.left old) (InRow problem.dataSizeX y))) :
    Yields (convolve team loop problem.dataSizeY kernFlipped row out)
      (problem.Leaves old out) := by
  rw [convolve]
  -- rows that have been run are done, and a thread's copy of the kernel is the flipped kernel
  refine Yields.bind (foldlM_succeeds (fun done (shared : Shared R) =>
    Written out (problem.left old)
      (fun index => ∃ turn, turn ∈ done ∧ InRow problem.dataSizeX turn.2 index) shared.out ∧
    Copied kernFlipped shared) ?_ ?_) ?_
  · refine ⟨Written.none _ _ ?_, fun thread => .inl rfl⟩
    rintro index ⟨turn, member, _⟩
    exact not_mem_nil member
  · rintro done ⟨thread, y⟩ rest shared whole ⟨written, copied⟩
    have member : (thread, y) ∈ team.turns loop problem.dataSizeY :=
      whole ▸ mem_append_right _ mem_cons_self
    have below : y < problem.dataSizeY := team.iteration_lt loop problem.dataSizeY member
    have held : ∀ x, x < problem.dataSizeX ->
        shared.out.cell (x + y * problem.dataSizeX) = some (old (x + y * problem.dataSizeX)) := by
      intro x column
      rw [written.outside, holds.2 _ (place_lt column below)]
      rintro ⟨turn, earlier, inRow⟩
      exact team.earlier_ne loop problem.dataSizeY whole earlier
        (inRow.div_eq.symm.trans (place_div column))
    show Yields (rowTurn kernFlipped row thread y shared) _
    rw [rowTurn, copied.localKernel_eq thread]
    refine (rows y shared.out below (written.size.trans holds.1) held).bind (fun next last => ?_)
    exact yields_some ⟨(written.trans last).congr
      (regions_snoc (fun turn => InRow problem.dataSizeX turn.2) done (thread, y)),
      copied.after next thread⟩
  · rintro last ⟨written, _⟩
    exact yields_some (written.congr
      (rows_cover team loop problem.dataSizeX problem.dataSizeY))

variable {kern padded : Buffer R} {paddedX kernelSize width : Nat}
  (prepared : problem.Prepared kern padded)
  (samePadded : problem.paddedX = paddedX)
  (sameSize : problem.kernelX * problem.kernelY = kernelSize)
  (sameWidth : problem.kernelX = width)

include prepared samePadded sameSize sameWidth

/-- A loop over the rows leaves the convolution, whatever way of summing it uses. -/
theorem convolve_rows (vectorSum : Buffer R -> Nat -> Nat -> Option (M128 R))
    (sums : ∀ y x, y < problem.dataSizeY -> x + 3 < problem.dataSizeX ->
      Yields (vectorSum kern y x)
        (fun result => result = lanes (fun x => problem.convolved x y) x)) :
    Yields (convolve team loop problem.dataSizeY kern (fun kern y =>
        convRow (vectorSum kern y) kern padded problem.dataSizeX paddedX kernelSize width y) out)
      (problem.Leaves old out) := by
  subst samePadded sameSize sameWidth
  refine convolve_written problem team loop holds (fun y now below size held => ?_)
  exact convRow_written problem prepared below (fun x => sums y x below) size held

theorem convUnrolled_written :
    Yields (convUnrolled width team padded kern out problem.dataSizeX problem.dataSizeY
        paddedX kernelSize)
      (problem.Leaves old out) := by
  refine convolve_rows problem team 3 holds prepared samePadded sameSize sameWidth
    (fun kern y x => unrolledSum kern padded paddedX x y width kernelSize) ?_
  subst samePadded sameSize sameWidth
  intro y x row column
  exact unrolledSum_sums problem prepared row column

end

/-! ## The branches -/

section

variable {R : Type} [CommRing R] (problem : Problem R) (team : Team)
  {old : Nat -> R} {out : Buffer R}
  (holds : out.Holds (problem.dataSizeX * problem.dataSizeY) old)

include holds

theorem conv3x3_written (columns : problem.kernelX = 3) (rows : problem.kernelY = 3) :
    Yields (conv3x3 team (.ofList problem.image) out problem.dataSizeX problem.dataSizeY
        (.ofList problem.kernel))
      (problem.Leaves old out) := by
  have centX : problem.kernCentX = 1 := by rw [Problem.kernCentX, columns]
  have centY : problem.kernCentY = 1 := by rw [Problem.kernCentY, rows]
  have width : problem.paddedX = 2 + problem.dataSizeX := by rw [Problem.paddedX, columns]
  have height : problem.paddedY = 2 + problem.dataSizeY := by rw [Problem.paddedY, rows]
  have nine : problem.kernelX * problem.kernelY = 9 := by rw [columns, rows]
  have flipped := flip_holds problem
  rw [nine] at flipped
  rw [conv3x3]
  refine (pad_holds_of problem team 0 centX centY width height).bind (fun padded paddedHolds => ?_)
  refine flipped.bind (fun kern kernHolds => ?_)
  rw [<- nine] at kernHolds
  have prepared : problem.Prepared kern padded := ⟨kernHolds, paddedHolds⟩
  refine convolve_rows problem team 3 holds prepared width nine columns
    (fun kern y x => sum3x3 kern padded (2 + problem.dataSizeX) x y) ?_
  intro y x row column
  rw [<- width]
  exact sum3x3_sums problem prepared row column columns rows

theorem convMacro_written :
    Yields (convMacro team (.ofList problem.image) out problem.dataSizeX problem.dataSizeY
        (.ofList problem.kernel) problem.kernelX problem.kernelY)
      (problem.Leaves old out) := by
  rw [convMacro]
  refine (pad_holds_of problem team 3 rfl rfl rfl rfl).bind (fun padded paddedHolds => ?_)
  refine (flip_holds problem).bind (fun kern kernHolds => ?_)
  have prepared : problem.Prepared kern padded := ⟨kernHolds, paddedHolds⟩
  refine convolve_rows problem team 6 holds prepared rfl rfl rfl
    (fun kern y x => genericSum kern padded problem.paddedX x y problem.kernelX
      (problem.kernelX * problem.kernelY)) ?_
  intro y x row column
  exact genericSum_sums problem prepared row column

/-- What `conv2D` leaves in `out`, for any contents it held. -/
theorem conv2D_written :
    Yields (conv2D team (.ofList problem.image) out problem.dataSizeX problem.dataSizeY
        (.ofList problem.kernel) problem.kernelX problem.kernelY)
      (problem.Leaves old out) := by
  rw [conv2D]
  refine Yields.branch (fun small => conv3x3_written problem team holds small.1 small.2)
    (fun _ => ?_)
  refine (pad_holds_of problem team 0 rfl rfl rfl rfl).bind (fun padded paddedHolds => ?_)
  refine (flip_holds problem).bind (fun kern kernHolds => ?_)
  have prepared : problem.Prepared kern padded := ⟨kernHolds, paddedHolds⟩
  have unrolled : ∀ {width : Nat}, problem.kernelX = width -> _ := fun same =>
    convUnrolled_written problem team holds prepared rfl rfl same
  -- one case for each width that has a branch of its own
  refine Yields.branch unrolled (fun _ => ?_)
  refine Yields.branch unrolled (fun _ => ?_)
  refine Yields.branch unrolled (fun _ => ?_)
  refine Yields.branch unrolled (fun _ => ?_)
  refine Yields.branch unrolled (fun _ => ?_)
  refine Yields.branch unrolled (fun _ => ?_)
  refine Yields.branch unrolled (fun _ => ?_)
  refine Yields.branch unrolled (fun _ => ?_)
  refine Yields.branch unrolled (fun _ => ?_)
  exact convMacro_written problem team holds

end

/-! ## Equivalence -/

section

variable {R : Type} [CommRing R]

/-- The image of the convolution, row by row. -/
def Problem.result (problem : Problem R) : List R :=
  (List.range (problem.dataSizeX * problem.dataSizeY)).map (fun index =>
    problem.convolved (index % problem.dataSizeX) (index / problem.dataSizeX))

/-- An `out` of zeros. -/
def Problem.blank (problem : Problem R) : Buffer R :=
  .ofList (replicate (problem.dataSizeX * problem.dataSizeY) 0)

theorem blank_holds (problem : Problem R) :
    problem.blank.Holds (problem.dataSizeX * problem.dataSizeY) (fun _ => 0) :=
  Buffer.ofList_holds length_replicate (fun _ _ => getElem_replicate _)

theorem result_written (problem : Problem R) :
    Written problem.blank
      (fun index => problem.convolved (index % problem.dataSizeX) (index / problem.dataSizeX))
      (fun index => index < problem.dataSizeX * problem.dataSizeY) (.ofList problem.result) := by
  have length : problem.result.length = problem.dataSizeX * problem.dataSizeY := by
    rw [Problem.result, length_map, length_range]
  refine ⟨length.trans length_replicate.symm, fun index inside => ?_, fun index outside => ?_⟩
  · show problem.result[index]? = _
    rw [Problem.result, getElem?_map, getElem?_range inside]
    rfl
  · show problem.result[index]? = (replicate _ (0 : R))[index]?
    rw [getElem?_eq_none (length ▸ Nat.le_of_not_lt outside),
      getElem?_eq_none (by rw [length_replicate]; exact Nat.le_of_not_lt outside)]

theorem conv2D_result (problem : Problem R) (team : Team) :
    conv2D team (.ofList problem.image) problem.blank problem.dataSizeX problem.dataSizeY
        (.ofList problem.kernel) problem.kernelX problem.kernelY =
      some (.ofList problem.result) := by
  rcases conv2D_written problem team (blank_holds problem) with ⟨out, ran, written⟩
  have same := (written.retarget (fun index _ => by
    rw [Problem.left, ite_self, zero_add])).unique (result_written problem)
  rw [ran, same]

theorem reference_result (problem : Problem R) :
    reference (.ofList problem.image) problem.blank problem.dataSizeX problem.dataSizeY
        (.ofList problem.kernel) problem.kernelX problem.kernelY =
      some (.ofList problem.result) := by
  rcases reference_written problem (blank_holds problem) with ⟨out, ran, written⟩
  have same := (written.retarget (fun index _ => zero_add _)).unique (result_written problem)
  rw [ran, same]

namespace Ints

/-- An `int` with this exact value.  From 2 ^ 31 on it overflows, which C leaves undefined. -/
def int (value : Nat) : Option Nat :=
  if value < 2 ^ 31 then some value else none

theorem int_eq {value : Nat} (small : value < 2 ^ 31) : int value = some value :=
  if_pos small

/-- `conv2D` with the ints of the source.  Its sizes are ints, and an array is read and written
only at an index that is one; the other ints of its loops are parts of such an index, and not
above it. -/
def conv2D (team : Team) (input out : Buffer R) (dataSizeX dataSizeY : Nat)
    (kernel : Buffer R) (kernelX kernelY : Nat) : Option (Buffer R) := do
  let paddedX <- int ((kernelX - 1) + dataSizeX)
  let paddedY <- int ((kernelY - 1) + dataSizeY)
  let _kernelSize <- int (kernelX * kernelY)
  let _bound <- int (paddedX * paddedY)
  Convolution.conv2D team (input.below (2 ^ 31)) (out.below (2 ^ 31)) dataSizeX dataSizeY
    (kernel.below (2 ^ 31)) kernelX kernelY

/-- `reference` with the ints of the source, of which `x + i` and `y + j` may lie outside the
image. -/
def reference (input out : Buffer R) (dataSizeX dataSizeY : Nat) (kernel : Buffer R)
    (kernelX kernelY : Nat) : Option (Buffer R) := do
  let _last <- int ((dataSizeX - 1) + (kernelX - 1) / 2)
  let _last <- int ((dataSizeY - 1) + (kernelY - 1) / 2)
  Convolution.reference (input.below (2 ^ 31)) (out.below (2 ^ 31)) dataSizeX dataSizeY
    (kernel.below (2 ^ 31)) kernelX kernelY

/-- An index that is an `int` reaches all cells of the arrays. -/
theorem arrays_below (problem : Problem R)
    (image : problem.dataSizeX * problem.dataSizeY <= 2 ^ 31)
    (kernel : problem.kernelX * problem.kernelY <= 2 ^ 31) :
    (Buffer.ofList problem.image).below (2 ^ 31) = .ofList problem.image ∧
      problem.blank.below (2 ^ 31) = problem.blank ∧
      (Buffer.ofList problem.kernel).below (2 ^ 31) = .ofList problem.kernel :=
  ⟨Buffer.below_eq (problem.image_length.trans_le image),
    Buffer.below_eq (length_replicate.trans_le image),
    Buffer.below_eq (problem.kernel_length.trans_le kernel)⟩

theorem reference_left (problem : Problem R)
    (columns : problem.dataSizeX - 1 + (problem.kernelX - 1) / 2 < 2 ^ 31)
    (rows : problem.dataSizeY - 1 + (problem.kernelY - 1) / 2 < 2 ^ 31)
    (image : problem.dataSizeX * problem.dataSizeY <= 2 ^ 31)
    (kernel : problem.kernelX * problem.kernelY <= 2 ^ 31) :
    reference (.ofList problem.image) problem.blank problem.dataSizeX problem.dataSizeY
        (.ofList problem.kernel) problem.kernelX problem.kernelY =
      some (.ofList problem.result) := by
  rcases arrays_below problem image kernel with ⟨input, out, weights⟩
  rw [reference, int_eq columns, int_eq rows, input, out, weights]
  exact reference_result problem

theorem conv2D_left (problem : Problem R) (team : Team)
    (columns : problem.paddedX < 2 ^ 31) (rows : problem.paddedY < 2 ^ 31)
    (area : problem.paddedX * problem.paddedY < 2 ^ 31)
    (image : problem.dataSizeX * problem.dataSizeY <= 2 ^ 31)
    (kernel : problem.kernelX * problem.kernelY < 2 ^ 31) :
    conv2D team (.ofList problem.image) problem.blank problem.dataSizeX problem.dataSizeY
        (.ofList problem.kernel) problem.kernelX problem.kernelY =
      some (.ofList problem.result) := by
  rcases arrays_below problem image kernel.le with ⟨input, out, weights⟩
  unfold Problem.paddedX Problem.paddedY at *
  rw [conv2D, int_eq columns, int_eq rows, int_eq kernel, input, out, weights]
  simp only [bind_eq_bind, bind_some, int_eq area]
  exact conv2D_result problem team

end Ints

/-- For every image, kernel with odd sides and team of threads whose padded copy has fewer than
2 ^ 31 cells, `conv2D` and the reference both succeed, so that every index they use lies in its
array, and leave the same values. -/
theorem conv2D_eq_reference (problem : Problem R) (team : Team) (wide : 1 <= problem.dataSizeX)
    (high : 1 <= problem.dataSizeY) (area : problem.paddedX * problem.paddedY < 2 ^ 31) :
    ∃ image : List R, image.length = problem.dataSizeX * problem.dataSizeY ∧
      Ints.conv2D team (.ofList problem.image) problem.blank problem.dataSizeX problem.dataSizeY
          (.ofList problem.kernel) problem.kernelX problem.kernelY = some (.ofList image) ∧
      Ints.reference (.ofList problem.image) problem.blank problem.dataSizeX problem.dataSizeY
          (.ofList problem.kernel) problem.kernelX problem.kernelY = some (.ofList image) := by
  have length : problem.result.length = problem.dataSizeX * problem.dataSizeY := by
    rw [Problem.result, length_map, length_range]
  have columns := problem.paddedX_eq
  have rows := problem.paddedY_eq
  have kernelColumns := problem.kernelX_eq
  have kernelRows := problem.kernelY_eq
  -- image, kernel and sides are no larger than the padded copy
  have image : problem.dataSizeX * problem.dataSizeY <= problem.paddedX * problem.paddedY :=
    Nat.mul_le_mul (by omega) (by omega)
  have kernel : problem.kernelX * problem.kernelY <= problem.paddedX * problem.paddedY :=
    Nat.mul_le_mul (by omega) (by omega)
  have sideX : problem.paddedX <= problem.paddedX * problem.paddedY :=
    Nat.le_mul_of_pos_right _ (by omega)
  have sideY : problem.paddedY <= problem.paddedX * problem.paddedY :=
    Nat.le_mul_of_pos_left _ (by omega)
  refine ⟨problem.result, length, Ints.conv2D_left problem team (by omega) (by omega) area
    (by omega) (by omega), Ints.reference_left problem ?_ ?_ (by omega) (by omega)⟩
  · rw [<- Problem.kernCentX]
    omega
  · rw [<- Problem.kernCentY]
    omega

/-- One thread runs all iterations in order. -/
def alone : Team where
  turns _ count := (List.range count).map fun index => (0, index)
  shared _ count := by simp [Function.comp_def]

/-- A row of pixels with the kernel that doubles them. -/
def doubling (width : Nat) : Problem Int where
  dataSizeX := width
  dataSizeY := 1
  kernelX := 1
  kernelY := 1
  oddX := rfl
  oddY := rfl
  image := replicate width 1
  image_length := by simp
  kernel := [2]
  kernel_length := rfl

/-- Four pixels of the vector loop and one of the scalar loop. -/
theorem conv2D_eq_reference_five :
    ∃ image : List Int, image.length = 5 ∧
      ((Buffer.ofList image).load 3 = some 2 ∧ (Buffer.ofList image).load 4 = some 2) ∧
      Ints.conv2D alone (.ofList [1, 1, 1, 1, 1]) (.ofList [0, 0, 0, 0, 0]) 5 1 (.ofList [2]) 1 1 =
        some (.ofList image) ∧
      Ints.reference (.ofList [1, 1, 1, 1, 1]) (.ofList [0, 0, 0, 0, 0]) 5 1 (.ofList [2]) 1 1 =
        some (.ofList image) := by
  rcases conv2D_eq_reference (doubling 5) alone (by decide) (by decide) (by decide) with
    ⟨image, length, fast, slow⟩
  have loads : (Ints.reference (.ofList (doubling 5).image) (doubling 5).blank
      (doubling 5).dataSizeX (doubling 5).dataSizeY (.ofList (doubling 5).kernel)
      (doubling 5).kernelX (doubling 5).kernelY).map (fun out => (out.load 3, out.load 4)) =
        some (some 2, some 2) := by
    decide +kernel
  rw [slow, map_some, some.injEq, Prod.mk.injEq] at loads
  exact ⟨image, length, loads, fast, slow⟩

/-- An image of 65536 by 32768 pixels with a kernel of one weight. -/
def poster : Problem Int where
  dataSizeX := 65536
  dataSizeY := 32768
  kernelX := 1
  kernelY := 1
  oddX := rfl
  oddY := rfl
  image := replicate (65536 * 32768) 1
  image_length := length_replicate
  kernel := [2]
  kernel_length := rfl

/-- The size of the padded copy overflows, while the reference has all its indices in range. -/
theorem padded_size_overflows :
    Ints.conv2D alone (.ofList poster.image) poster.blank 65536 32768 (.ofList [2]) 1 1 = none ∧
      Ints.reference (.ofList poster.image) poster.blank 65536 32768 (.ofList [2]) 1 1 =
        some (.ofList poster.result) := by
  refine ⟨?_, Ints.reference_left poster (by decide) (by decide) (by decide) (by decide)⟩
  rw [Ints.conv2D, Ints.int_eq (by decide), Ints.int_eq (by decide), Ints.int_eq (by decide)]
  rfl

end

/-! ## What the output held before -/

section

variable {R : Type} [CommRing R] (problem : Problem R)

/-- One call of `conv2D` on the image and the kernel. -/
def Problem.run (team : Team) (out : List R) : Option (Buffer R) :=
  conv2D team (.ofList problem.image) (.ofList out) problem.dataSizeX problem.dataSizeY
    (.ofList problem.kernel) problem.kernelX problem.kernelY

/-- Whatever `out` held, a call leaves the same image, and a second call after the first one
leaves it as it is. -/
def Problem.ForgetsOut (team other : Team) : Prop :=
  ∀ first second : List R, first.length = problem.dataSizeX * problem.dataSizeY ->
    second.length = problem.dataSizeX * problem.dataSizeY ->
    ∃ image, problem.run team first = some (.ofList image) ∧
      problem.run other second = some (.ofList image) ∧
      problem.run other image = some (.ofList image)

/-- The image that a call leaves in an `out`. -/
def Problem.leftIn (out : List R) : List R :=
  (List.range (problem.dataSizeX * problem.dataSizeY)).map (problem.left fun index =>
    out.getD index 0)

theorem run_leftIn (team : Team) {out : List R}
    (length : out.length = problem.dataSizeX * problem.dataSizeY) :
    problem.run team out = some (.ofList (problem.leftIn out)) := by
  have holds : (Buffer.ofList out).Holds (problem.dataSizeX * problem.dataSizeY)
      (fun index => out.getD index 0) :=
    Buffer.ofList_holds length (fun index inside => (getD_eq_getElem out 0 inside).symm)
  rcases conv2D_written problem team holds with ⟨now, ran, written⟩
  have listed : problem.Leaves (fun index => out.getD index 0) (.ofList out)
      (.ofList (problem.leftIn out)) := by
    constructor
    · simp [Buffer.ofList, Problem.leftIn, length]
    · intro index inside
      simp [Buffer.ofList, Problem.leftIn, inside]
    · intro index outside
      simp [Buffer.ofList, Problem.leftIn, length, Nat.le_of_not_lt outside]
  rw [Problem.run, ran, written.unique listed]

/-- The last columns are added to what `out` held unless the width is a multiple of four. -/
theorem conv2D_forgets_out_iff [Nontrivial R] (team other : Team) :
    problem.ForgetsOut team other <-> problem.dataSizeX % 4 = 0 ∨ problem.dataSizeY = 0 := by
  constructor
  · intro forgets
    by_contra scalar
    have inside : problem.dataSizeX - 1 < problem.dataSizeX * problem.dataSizeY := by
      have wide := Nat.le_mul_of_pos_right problem.dataSizeX
        (Nat.pos_of_ne_zero fun flat => scalar (.inr flat))
      omega
    have column : ¬ problem.dataSizeX - 1 < problem.vectorColumns := by
      rw [Problem.vectorColumns]
      omega
    rcases forgets (replicate _ 0) (replicate _ 1) length_replicate
      length_replicate with ⟨image, zeros, ones, _⟩
    rw [run_leftIn problem team length_replicate] at zeros
    rw [run_leftIn problem other length_replicate, <- zeros] at ones
    have cells := congrFun (congrArg Buffer.cell (some.inj ones)) (problem.dataSizeX - 1)
    simp [Buffer.ofList, Problem.leftIn, Problem.left, inside] at cells
    exact column cells
  · intro vector first second firstLength secondLength
    have same : ∀ out, problem.leftIn out = problem.leftIn first := by
      intro out
      apply map_congr_left
      intro index member
      have columns : index % problem.dataSizeX < problem.vectorColumns := by
        have below := mem_range.mp member
        rcases vector with wide | flat
        · have positive : 0 < problem.dataSizeX :=
            Nat.pos_of_mul_pos_right (Nat.zero_lt_of_lt below)
          have small := Nat.mod_lt index positive
          rw [Problem.vectorColumns]
          omega
        · rw [flat] at below
          exact absurd below (Nat.not_lt_zero _)
      rw [Problem.left, Problem.left, if_pos columns, if_pos columns]
    have length : (problem.leftIn first).length = problem.dataSizeX * problem.dataSizeY := by
      rw [Problem.leftIn, length_map, length_range]
    exact ⟨problem.leftIn first, run_leftIn problem team firstLength,
      by rw [run_leftIn problem other secondLength, same],
      by rw [run_leftIn problem other length, same]⟩

theorem conv2D_forgets_out_iff_four : (doubling 4).ForgetsOut alone alone :=
  (conv2D_forgets_out_iff (doubling 4) alone alone).mpr (.inl rfl)

/-- The pixel of a second call is the sum of two results. -/
theorem conv2D_adds_to_out : ¬ (doubling 1).ForgetsOut alone alone := by
  intro forgets
  rcases forgets [0] [2] rfl rfl with ⟨image, zero, two, _⟩
  have loads := congrArg (fun out => out.bind fun buffer => buffer.load 0) (zero.trans two.symm)
  revert loads
  decide +kernel

end

end Convolution
end Codebank
