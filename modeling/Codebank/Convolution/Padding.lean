import Mathlib.Tactic.Linarith
import Codebank.Convolution.Conv2D
import Codebank.Convolution.Reference

namespace Codebank
namespace Convolution

open Foundation

/-!
# The padded copy and the flipped kernel are what they should be

Every loop of `pad` writes, at each of its cells, the value of the bordered image there,
and the three loops cover the whole buffer.
-/

/-! ## Vectors -/

section

variable {Value : Type} {buffer : Buffer Value} {index : Nat}

/-- The vector of four consecutive values. -/
def lanes (values : Nat -> Value) (index : Nat) : M128 Value :=
  ⟨values index, values (index + 1), values (index + 2), values (index + 3)⟩

variable {values : Nat -> Value}

theorem loadu_holds {size : Nat} (holds : buffer.Holds size values) (inside : index + 3 < size) :
    loadu buffer index = some (lanes values index) := by
  rw [loadu, holds.load (by omega), holds.load (by omega), holds.load (by omega),
    holds.load inside]
  rfl

theorem storeu_written (target : Nat -> Value) {vector : M128 Value}
    (inside : index + 3 < buffer.size) (same : vector = lanes target index) :
    Yields (storeu buffer index vector)
      (Written buffer target (fun other => index <= other ∧ other < index + (3 + 1))) := by
  subst same
  refine (store_written target (by omega) rfl).bind (fun first one => ?_)
  have size1 := one.size
  refine (store_written target (by omega) rfl).bind (fun second two => ?_)
  have size2 := two.size
  refine (store_written target (by omega) rfl).bind (fun third three => ?_)
  have size3 := three.size
  refine (store_written target (by omega) rfl).mono (fun fourth four => ?_)
  exact (((one.trans two).trans three).trans four).congr (fun other => by omega)

theorem copyQuad_written (target : Nat -> Value) {input padded : Buffer Value}
    {source destination size : Nat} (holds : input.Holds size values) (inSource : source + 3 < size)
    (inside : destination + 3 < padded.size)
    (same : ∀ part, part < 4 -> values (source + part) = target (destination + part)) :
    Yields (copyQuad input padded source destination) (Written padded target
      (fun other => destination <= other ∧ other < destination + (3 + 1))) := by
  rw [copyQuad, loadu_holds holds inSource]
  refine storeu_written target inside ?_
  have first := same 0 (by decide)
  rw [Nat.add_zero, Nat.add_zero] at first
  rw [lanes, lanes, first, same 1 (by decide), same 2 (by decide), same 3 (by decide)]

end

/-! ## The padded copy -/

namespace Problem

variable {R : Type} (problem : Problem R)

def paddedX : Nat := (problem.kernelX - 1) + problem.dataSizeX

def paddedY : Nat := (problem.kernelY - 1) + problem.dataSizeY

theorem paddedX_eq : problem.paddedX = 2 * problem.kernCentX + problem.dataSizeX := by
  have size := problem.kernelX_eq
  rw [paddedX]
  omega

theorem paddedY_eq : problem.paddedY = 2 * problem.kernCentY + problem.dataSizeY := by
  have size := problem.kernelY_eq
  rw [paddedY]
  omega

variable [CommRing R]

/-- The bordered image, row by row. -/
def paddedValue (index : Nat) : R :=
  problem.bordered (index % problem.paddedX) (index / problem.paddedX)

theorem paddedValue_place {column row : Nat} (inside : column < problem.paddedX) :
    problem.paddedValue (row * problem.paddedX + column) = problem.bordered column row := by
  rw [paddedValue, Nat.add_comm, place_mod inside, place_div inside]

theorem paddedValue_pixel {x y : Nat} (column : x < problem.dataSizeX)
    (row : y < problem.dataSizeY) :
    problem.paddedValue ((y + problem.kernCentY) * problem.paddedX + problem.kernCentX + x) =
      problem.pixel (y * problem.dataSizeX + x) := by
  have width := problem.paddedX_eq
  rw [Nat.add_assoc, problem.paddedValue_place (by omega), bordered,
    if_pos ⟨by omega, by omega⟩, Nat.add_sub_cancel_left, Nat.add_sub_cancel, Nat.add_comm]

theorem paddedValue_zero {column row : Nat} (inside : column < problem.paddedX)
    (border : ¬ problem.Interior column row) :
    problem.paddedValue (row * problem.paddedX + column) = 0 := by
  rw [problem.paddedValue_place inside, bordered, if_neg border]

end Problem

theorem Problem.padded_lt {R : Type} (problem : Problem R) {row column : Nat}
    (inRow : row < problem.paddedY) (inColumn : column < problem.paddedX) :
    row * problem.paddedX + column < problem.paddedX * problem.paddedY := by
  rw [Nat.add_comm]
  exact place_lt inColumn inRow

section

variable {R : Type} [CommRing R] (problem : Problem R) {padded : Buffer R} {y : Nat}
  (row : y < problem.dataSizeY) (size : padded.size = problem.paddedX * problem.paddedY)

include row size

/-- A loop that writes zeros in a part of a row that belongs to the border. -/
theorem padZeros_written {start stop : Nat} (ordered : start <= stop)
    (within : stop <= problem.paddedX)
    (border : ∀ x, start <= x -> x < stop -> ¬ problem.Interior x (y + problem.kernCentY)) :
    Yields (stride (fun x padded => padded.store ((y + problem.kernCentY) * problem.paddedX + x) 0)
        1 0 stop start padded)
      (fun last => Written padded problem.paddedValue (fun index =>
        (y + problem.kernCentY) * problem.paddedX + start <= index ∧
          index < (y + problem.kernCentY) * problem.paddedX + stop) last.2) := by
  have height := problem.paddedY_eq
  refine (stride_written ((y + problem.kernCentY) * problem.paddedX) problem.paddedValue
    ordered ?_).mono ?_
  · rintro x now ⟨count, reached⟩ below same _
    have inside : x < problem.paddedX := by omega
    have place := problem.padded_lt (show y + problem.kernCentY < problem.paddedY by omega) inside
    refine (store_written problem.paddedValue (by omega) ?_).mono (fun next written => written.one)
    exact (problem.paddedValue_zero inside (border x (by omega) below)).symm
  · rintro last ⟨reached, _, written⟩
    exact written.congr (fun index => by omega)

/-- Four pixels are copied to their places. -/
theorem copyPixels_written {x : Nat} (column : x + 3 < problem.dataSizeX) :
    Yields (copyQuad (.ofList problem.image) padded (y * problem.dataSizeX + x)
        ((y + problem.kernCentY) * problem.paddedX + problem.kernCentX + x))
      (Written padded problem.paddedValue (fun index =>
        (y + problem.kernCentY) * problem.paddedX + problem.kernCentX + x <= index ∧
          index < (y + problem.kernCentY) * problem.paddedX + problem.kernCentX + x +
            (3 + 1))) := by
  have width := problem.paddedX_eq
  have height := problem.paddedY_eq
  have source := place_lt column row
  have place := problem.padded_lt (show y + problem.kernCentY < problem.paddedY by omega)
    (show problem.kernCentX + x + 3 < problem.paddedX by omega)
  refine copyQuad_written problem.paddedValue problem.image_holds (by omega) (by omega) ?_
  intro part small
  rw [Nat.add_assoc, Nat.add_assoc _ x part, problem.paddedValue_pixel (by omega) row]

/-- The eight copies of one turn of the wide loop. -/
theorem copyWide_written {x : Nat} (column : x + 31 < problem.dataSizeX) :
    Yields ([0, 4, 8, 12, 16, 20, 24, 28].foldlM (fun padded part =>
        copyQuad (.ofList problem.image) padded (y * problem.dataSizeX + x + part)
          ((y + problem.kernCentY) * problem.paddedX + problem.kernCentX + x + part)) padded)
      (Written padded problem.paddedValue (fun index =>
        (y + problem.kernCentY) * problem.paddedX + problem.kernCentX + x <= index ∧
          index < (y + problem.kernCentY) * problem.paddedX + problem.kernCentX + x +
            (31 + 1))) := by
  have parts : ∀ part, part ∈ [0, 4, 8, 12, 16, 20, 24, 28] <-> ∃ k, k < 8 ∧ 4 * k = part := by
    intro part
    show part ∈ (List.range 8).map (fun k => 4 * k) <-> _
    simp only [List.mem_map, List.mem_range]
  refine (foldlM_written problem.paddedValue (fun part index =>
    (y + problem.kernCentY) * problem.paddedX + problem.kernCentX + x + part <= index ∧
      index < (y + problem.kernCentY) * problem.paddedX + problem.kernCentX + x + part + (3 + 1))
    ?_).mono (fun now written => written.congr (fun index => ?_))
  · intro part now listed same
    rcases (parts part).mp listed with ⟨k, small, rfl⟩
    rw [Nat.add_assoc _ x, Nat.add_assoc _ x]
    exact copyPixels_written problem row (same.trans size) (by omega)
  · constructor
    · rintro ⟨part, listed, low, high⟩
      rcases (parts part).mp listed with ⟨k, small, rfl⟩
      omega
    · rintro ⟨low, high⟩
      refine ⟨4 * ((index - ((y + problem.kernCentY) * problem.paddedX + problem.kernCentX + x)) /
        4), (parts _).mpr ⟨_, ?_, rfl⟩, ?_⟩
      · omega
      · omega

theorem padRow_written :
    Yields (padRow (.ofList problem.image) problem.dataSizeX problem.kernCentX problem.kernCentY
        problem.paddedX y padded)
      (Written padded problem.paddedValue (fun index =>
        (y + problem.kernCentY) * problem.paddedX <= index ∧
          index < (y + problem.kernCentY) * problem.paddedX + problem.paddedX)) := by
  have width := problem.paddedX_eq
  have height := problem.paddedY_eq
  rw [padRow]
  refine (padZeros_written problem row size (Nat.zero_le _) (by omega) ?_).bind
    (fun left leftWritten => ?_)
  · rintro x _ below ⟨columns, _⟩
    omega
  have leftSize := leftWritten.size.trans size
  refine (stride_written ((y + problem.kernCentY) * problem.paddedX + problem.kernCentX)
    problem.paddedValue (Nat.zero_le _) ?_).bind ?_
  · intro x now _ below same _
    exact copyWide_written problem row (same.trans leftSize) below
  rintro wide ⟨wideReached, _, wideWritten⟩
  have wideSize := wideWritten.size.trans leftSize
  refine (stride_written ((y + problem.kernCentY) * problem.paddedX + problem.kernCentX)
    problem.paddedValue wideReached.1 ?_).bind ?_
  · intro x now _ below same _
    exact copyPixels_written problem row (same.trans wideSize) below
  rintro quads ⟨quadsReached, ⟨turns, fromWide⟩, quadsWritten⟩
  have quadsSize := quadsWritten.size.trans wideSize
  refine (stride_written ((y + problem.kernCentY) * problem.paddedX + problem.kernCentX)
    problem.paddedValue quadsReached.1 ?_).bind ?_
  · intro x now _ below same _
    have source := place_lt (show x < problem.dataSizeX from below) row
    have place := problem.padded_lt (show y + problem.kernCentY < problem.paddedY by omega)
      (show problem.kernCentX + x < problem.paddedX by omega)
    rw [problem.image_holds.load (by omega)]
    refine (store_written problem.paddedValue (by omega) ?_).mono (fun next written => written.one)
    exact (problem.paddedValue_pixel below row).symm
  rintro single ⟨singleReached, ⟨more, fromQuads⟩, singleWritten⟩
  have singleSize := singleWritten.size.trans quadsSize
  refine (padZeros_written problem row singleSize (by omega) (Nat.le_refl _) ?_).bind
    (fun right rightWritten => ?_)
  · rintro x beyond _ ⟨columns, _⟩
    omega
  refine yields_some ?_
  exact ((((leftWritten.trans wideWritten).trans quadsWritten).trans singleWritten).trans
    rightWritten).congr (fun index => by omega)

end

/-- The cells of the top, of the rows of the image and of the bottom are all cells. -/
theorem Problem.padded_covered {R : Type} (problem : Problem R) (index : Nat) :
    (((∃ i, i < problem.paddedX * problem.kernCentY ∧ index = i) ∨
      (∃ y, y < problem.dataSizeY ∧ (y + problem.kernCentY) * problem.paddedX <= index ∧
        index < (y + problem.kernCentY) * problem.paddedX + problem.paddedX)) ∨
      (∃ i, i < problem.paddedX * problem.paddedY -
          problem.paddedX * (problem.kernCentY + problem.dataSizeY) ∧
        index = problem.paddedX * (problem.kernCentY + problem.dataSizeY) + i)) <->
      index < problem.paddedX * problem.paddedY := by
  have height := problem.paddedY_eq
  have topBelow : problem.paddedX * problem.kernCentY <= problem.paddedX * problem.paddedY :=
    Nat.mul_le_mul_left _ (by omega)
  constructor
  · rintro ((⟨i, below, rfl⟩ | ⟨y, inRow, low, high⟩) | ⟨i, below, rfl⟩)
    · omega
    · have rows := Nat.mul_le_mul_left problem.paddedX
        (show y + problem.kernCentY + 1 <= problem.paddedY by omega)
      rw [Nat.mul_succ, Nat.mul_comm] at rows
      omega
    · omega
  · intro inside
    by_cases top : index < problem.paddedX * problem.kernCentY
    · exact .inl (.inl ⟨index, top, rfl⟩)
    by_cases middle : index < problem.paddedX * (problem.kernCentY + problem.dataSizeY)
    · have positive : 0 < problem.paddedX := Nat.pos_of_mul_pos_right (Nat.zero_lt_of_lt inside)
      have above : problem.kernCentY <= index / problem.paddedX :=
        (Nat.le_div_iff_mul_le positive).mpr (by rw [Nat.mul_comm]; omega)
      have below : index / problem.paddedX < problem.kernCentY + problem.dataSizeY :=
        Nat.div_lt_of_lt_mul middle
      refine .inl (.inr ⟨index / problem.paddedX - problem.kernCentY, by omega, ?_⟩)
      rw [Nat.sub_add_cancel above]
      have parts := Nat.mod_add_div' index problem.paddedX
      have small := Nat.mod_lt index positive
      omega
    · refine .inr ⟨index - problem.paddedX * (problem.kernCentY + problem.dataSizeY), ?_, ?_⟩
      · omega
      · omega

section

variable {R : Type} [CommRing R] (problem : Problem R)

/-- A row above or below the image belongs to the border. -/
theorem paddedValue_border {index : Nat} (border : index / problem.paddedX < problem.kernCentY ∨
      problem.kernCentY + problem.dataSizeY <= index / problem.paddedX) :
    problem.paddedValue index = 0 := by
  refine if_neg ?_
  rintro ⟨_, rows⟩
  omega

/-- The padded copy is the bordered image. -/
theorem pad_holds (team : Team) (first : Nat) :
    Yields (pad team first (.ofList problem.image) problem.dataSizeX problem.dataSizeY
        problem.kernCentX problem.kernCentY problem.paddedX problem.paddedY)
      (fun padded => padded.Holds (problem.paddedX * problem.paddedY) problem.paddedValue) := by
  have height := problem.paddedY_eq
  have topBelow : problem.paddedX * problem.kernCentY <= problem.paddedX * problem.paddedY :=
    Nat.mul_le_mul_left _ (by omega)
  have bottomBelow : problem.paddedX * (problem.kernCentY + problem.dataSizeY) <=
      problem.paddedX * problem.paddedY := Nat.mul_le_mul_left _ (by omega)
  rw [pad]
  refine (team.parallelFor_written first _ problem.paddedValue
    (fun i index => index = i) ?_).bind (fun top topWritten => ?_)
  · intro _ i now below same
    have room : i < now.size := by
      rw [same]
      exact Nat.lt_of_lt_of_le below topBelow
    refine store_written problem.paddedValue room ?_
    exact (paddedValue_border problem (.inl (Nat.div_lt_of_lt_mul below))).symm
  refine (team.parallelFor_written (first + 1) _ problem.paddedValue
    (fun y index => (y + problem.kernCentY) * problem.paddedX <= index ∧
      index < (y + problem.kernCentY) * problem.paddedX + problem.paddedX) ?_).bind
    (fun middle middleWritten => ?_)
  · intro _ y now inRow same
    exact padRow_written problem inRow (same.trans topWritten.size)
  refine (team.parallelFor_written (first + 2) _ problem.paddedValue
    (fun i index => index =
      problem.paddedX * (problem.kernCentY + problem.dataSizeY) + i) ?_).mono
    (fun bottom bottomWritten => ?_)
  · intro _ i now below same
    have size : now.size = problem.paddedX * problem.paddedY :=
      same.trans (middleWritten.size.trans topWritten.size)
    refine store_written problem.paddedValue (by omega) ?_
    refine (paddedValue_border problem (.inr ?_)).symm
    have positive : 0 < problem.paddedX := by
      rcases Nat.eq_zero_or_pos problem.paddedX with zero | positive
      · rw [zero, Nat.zero_mul] at below
        omega
      · exact positive
    rw [Nat.le_div_iff_mul_le positive, Nat.mul_comm]
    exact Nat.le_add_right _ _
  have written := ((topWritten.trans middleWritten).trans bottomWritten).congr
    problem.padded_covered
  exact ⟨written.size, written.inside⟩

/-- The same for numbers that are those of the problem. -/
theorem pad_holds_of (team : Team) (first : Nat) {kernCentX kernCentY paddedX paddedY : Nat}
    (centX : problem.kernCentX = kernCentX) (centY : problem.kernCentY = kernCentY)
    (width : problem.paddedX = paddedX) (height : problem.paddedY = paddedY) :
    Yields (pad team first (.ofList problem.image) problem.dataSizeX problem.dataSizeY
        kernCentX kernCentY paddedX paddedY)
      (fun padded => padded.Holds (problem.paddedX * problem.paddedY) problem.paddedValue) := by
  subst centX centY width height
  exact pad_holds problem team first

/-- The kernel from its end. -/
def Problem.flippedWeight (index : Nat) : R :=
  problem.weight (problem.kernelX * problem.kernelY - 1 - index)

theorem flip_holds :
    Yields (flip (.ofList problem.kernel) (problem.kernelX * problem.kernelY))
      (fun flipped =>
        flipped.Holds (problem.kernelX * problem.kernelY) problem.flippedWeight) := by
  rw [flip]
  refine (foldlM_range_yields (fun count => Written (Buffer.fresh _) problem.flippedWeight
    (fun index => index < count)) (Written.none _ _ (fun index => Nat.not_lt_zero index)) ?_).mono
    (fun flipped written => ⟨written.size, written.inside⟩)
  intro index now below written
  rw [problem.kernel_holds.load (by omega)]
  have room : index < now.size := by
    rw [written.size]
    exact below
  refine (store_written problem.flippedWeight room rfl).mono (fun next last => ?_)
  exact (written.trans last).congr (fun other => Nat.lt_succ_iff_lt_or_eq.symm)

end

end Convolution
end Codebank
