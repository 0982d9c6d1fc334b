import Mathlib.Algebra.BigOperators.Intervals
import Mathlib.Data.List.GetD
import Codebank.Foundation.Buffer

namespace Codebank
namespace Convolution

open Foundation

/-!
# Convolution and its reference implementation

A problem is an image and a kernel with odd sides.  Its convolution is a sum over the
kernel of the image with a border of zeros.  `reference` computes it with four nested
loops and tests for the border.  Arithmetic is that of a commutative ring, in place of
the floating-point numbers of the source.
-/

/-- An image and a kernel, row by row. -/
structure Problem (R : Type) where
  dataSizeX : Nat
  dataSizeY : Nat
  kernelX : Nat
  kernelY : Nat
  oddX : kernelX % 2 = 1
  oddY : kernelY % 2 = 1
  image : List R
  image_length : image.length = dataSizeX * dataSizeY
  kernel : List R
  kernel_length : kernel.length = kernelX * kernelY

namespace Problem

variable {R : Type} (problem : Problem R)

/-- The `x` coordinate of the kernel's center. -/
def kernCentX : Nat := (problem.kernelX - 1) / 2

/-- The `y` coordinate of the kernel's center. -/
def kernCentY : Nat := (problem.kernelY - 1) / 2

theorem kernelX_eq : problem.kernelX = 2 * problem.kernCentX + 1 := by
  have odd := problem.oddX
  rw [kernCentX]
  omega

theorem kernelY_eq : problem.kernelY = 2 * problem.kernCentY + 1 := by
  have odd := problem.oddY
  rw [kernCentY]
  omega

/-- A place of the bordered image that lies in the image itself. -/
def Interior (column row : Nat) : Prop :=
  (problem.kernCentX <= column ∧ column < problem.kernCentX + problem.dataSizeX) ∧
    problem.kernCentY <= row ∧ row < problem.kernCentY + problem.dataSizeY

instance (column row : Nat) : Decidable (problem.Interior column row) :=
  inferInstanceAs (Decidable (_ ∧ _))

variable [CommRing R]

def pixel (index : Nat) : R := problem.image.getD index 0

def weight (index : Nat) : R := problem.kernel.getD index 0

/-- The image with a border of zeros around it. -/
def bordered (column row : Nat) : R :=
  if problem.Interior column row then
    problem.pixel ((column - problem.kernCentX) + (row - problem.kernCentY) * problem.dataSizeX)
  else 0

/-- The kernel turned by half a turn. -/
def turned (column row : Nat) : R :=
  problem.weight ((problem.kernelX - 1 - column) + (problem.kernelY - 1 - row) * problem.kernelX)

/-- What one place of the kernel adds to the convolution at a place of the image. -/
def term (x y column row : Nat) : R :=
  problem.turned column row * problem.bordered (x + column) (y + row)

/-- The convolution at a place of the image. -/
def convolved (x y : Nat) : R :=
  ∑ column ∈ Finset.range problem.kernelX, ∑ row ∈ Finset.range problem.kernelY,
    problem.term x y column row

theorem image_holds :
    (Buffer.ofList problem.image).Holds (problem.dataSizeX * problem.dataSizeY) problem.pixel :=
  Buffer.ofList_holds problem.image_length (fun index inside => by
    rw [pixel, List.getD_eq_getElem _ _ inside])

theorem kernel_holds :
    (Buffer.ofList problem.kernel).Holds (problem.kernelX * problem.kernelY) problem.weight :=
  Buffer.ofList_holds problem.kernel_length (fun index inside => by
    rw [weight, List.getD_eq_getElem _ _ inside])

end Problem

/-! ## The code -/

section

variable {R : Type} [CommRing R]

/-- The values of a loop from `-center` to `center`. -/
def offsets (center : Nat) : List Int :=
  (List.range (2 * center + 1)).map (fun index : Nat => (index : Int) - center)

/-- The body of the innermost loop. -/
def referenceStep (input kernel : Buffer R) (dataSizeX dataSizeY kernelX kernCentX kernCentY : Nat)
    (x y : Nat) (i j : Int) (out : Buffer R) : Option (Buffer R) :=
  if x + i > -1 ∧ x + i < dataSizeX ∧ y + j > -1 ∧ y + j < dataSizeY then do
    let sum <- out.load (x + y * dataSizeX)
    -- the kernel is flipped
    let weight <- kernel.loadInt ((kernCentX - i) + (kernCentY - j) * kernelX)
    let value <- input.loadInt ((x + i) + (y + j) * dataSizeX)
    out.store (x + y * dataSizeX) (sum + weight * value)
  else some out

def reference (input out : Buffer R) (dataSizeX dataSizeY : Nat) (kernel : Buffer R)
    (kernelX kernelY : Nat) : Option (Buffer R) :=
  let kernCentX := (kernelX - 1) / 2
  let kernCentY := (kernelY - 1) / 2
  (List.range dataSizeX).foldlM (fun out x =>
    (List.range dataSizeY).foldlM (fun out y =>
      (offsets kernCentX).foldlM (fun out i =>
        (offsets kernCentY).foldlM (fun out j =>
          referenceStep input kernel dataSizeX dataSizeY kernelX kernCentX kernCentY x y i j out)
          out) out) out) out

end

/-! ## What it computes -/

/-- Row and column of a place give its index, and back. -/
theorem place_lt {x y width height : Nat} (column : x < width) (row : y < height) :
    x + y * width < width * height := by
  have rows : (y + 1) * width <= height * width := Nat.mul_le_mul_right width row
  rw [Nat.add_mul, Nat.one_mul] at rows
  rw [Nat.mul_comm width height]
  omega

theorem place_mod {x y width : Nat} (column : x < width) : (x + y * width) % width = x := by
  rw [Nat.add_mul_mod_self_right, Nat.mod_eq_of_lt column]

theorem place_div {x y width : Nat} (column : x < width) : (x + y * width) / width = y := by
  rw [Nat.add_mul_div_right _ _ (Nat.zero_lt_of_lt column), Nat.div_eq_of_lt column, Nat.zero_add]

theorem loadInt_natCast {Value : Type} (buffer : Buffer Value) {index : Int} {place : Nat}
    (same : index = place) : buffer.loadInt index = buffer.load place := by
  subst same
  rw [Buffer.loadInt, if_pos (Int.natCast_nonneg place), Int.toNat_natCast]

section

variable {R : Type} [CommRing R] (problem : Problem R) {x y column row : Nat} {out : Buffer R}
  {sum : R} {width height : Nat}

theorem referenceStep_adds (place : x + y * problem.dataSizeX < out.size)
    (holds : out.cell (x + y * problem.dataSizeX) = some sum) (inColumn : column < problem.kernelX)
    (inRow : row < problem.kernelY) :
    Yields (referenceStep (.ofList problem.image) (.ofList problem.kernel) problem.dataSizeX
        problem.dataSizeY problem.kernelX problem.kernCentX problem.kernCentY x y
        ((column : Int) - problem.kernCentX) ((row : Int) - problem.kernCentY) out)
      (Written out (fun _ => sum + problem.term x y column row)
        (fun index => index = x + y * problem.dataSizeX)) := by
  have sizeX := problem.kernelX_eq
  have sizeY := problem.kernelY_eq
  rw [referenceStep]
  split
  · rename_i inside
    have interior : problem.Interior (x + column) (y + row) := ⟨by omega, by omega⟩
    have weightIndex : ((problem.kernCentX : Int) - (column - problem.kernCentX)) +
        (problem.kernCentY - (row - problem.kernCentY)) * problem.kernelX =
        ((problem.kernelX - 1 - column) + (problem.kernelY - 1 - row) * problem.kernelX : Nat) := by
      rw [show ((problem.kernCentX : Int) - (column - problem.kernCentX)) =
          ((problem.kernelX - 1 - column : Nat) : Int) by omega,
        show ((problem.kernCentY : Int) - (row - problem.kernCentY)) =
          ((problem.kernelY - 1 - row : Nat) : Int) by omega]
      push_cast
      rfl
    have pixelIndex : ((x : Int) + (column - problem.kernCentX)) +
        (y + (row - problem.kernCentY)) * problem.dataSizeX =
        ((x + column - problem.kernCentX) +
          (y + row - problem.kernCentY) * problem.dataSizeX : Nat) := by
      rw [show ((x : Int) + (column - problem.kernCentX)) =
          ((x + column - problem.kernCentX : Nat) : Int) by omega,
        show ((y : Int) + (row - problem.kernCentY)) =
          ((y + row - problem.kernCentY : Nat) : Int) by omega]
      push_cast
      rfl
    have weightPlace : (problem.kernelX - 1 - column) +
        (problem.kernelY - 1 - row) * problem.kernelX < problem.kernelX * problem.kernelY :=
      place_lt (by omega) (by omega)
    have pixelPlace : (x + column - problem.kernCentX) +
        (y + row - problem.kernCentY) * problem.dataSizeX <
        problem.dataSizeX * problem.dataSizeY :=
      place_lt (by omega) (by omega)
    rw [loadInt_natCast _ weightIndex, loadInt_natCast _ pixelIndex,
      problem.kernel_holds.load weightPlace, problem.image_holds.load pixelPlace, Buffer.load,
      if_pos place, holds]
    refine store_written _ place ?_
    rw [Problem.term, Problem.bordered, if_pos interior]
    rfl
  · rename_i outside
    have border : ¬ problem.Interior (x + column) (y + row) := by
      rintro ⟨columns, rows⟩
      exact outside ⟨by omega, by omega, by omega, by omega⟩
    refine yields_some ⟨rfl, ?_, fun _ _ => rfl⟩
    rintro index rfl
    rw [holds, Problem.term, Problem.bordered, if_neg border, mul_zero, add_zero]

theorem offsets_foldlM {State : Type} (body : State -> Int -> Option State) (center : Nat)
    (state : State) :
    (offsets center).foldlM body state =
      (List.range (2 * center + 1)).foldlM (fun now (index : Nat) =>
        body now ((index : Int) - center)) state := by
  rw [offsets, List.foldlM_map]

/-- The innermost loop adds one column of the kernel. -/
theorem reference_column (place : x + y * problem.dataSizeX < out.size)
    (holds : out.cell (x + y * problem.dataSizeX) = some sum)
    (inColumn : column < problem.kernelX) :
    Yields ((offsets problem.kernCentY).foldlM (fun out j =>
          referenceStep (.ofList problem.image) (.ofList problem.kernel) problem.dataSizeX
            problem.dataSizeY problem.kernelX problem.kernCentX problem.kernCentY x y
            ((column : Int) - problem.kernCentX) j out) out)
      (Written out
        (fun _ => sum + ∑ row ∈ Finset.range problem.kernelY, problem.term x y column row)
        (fun index => index = x + y * problem.dataSizeX)) := by
  rw [offsets_foldlM, <- problem.kernelY_eq]
  refine foldlM_range_yields (fun rows => Written out (fun _ => sum +
    ∑ row ∈ Finset.range rows, problem.term x y column row)
    (fun index => index = x + y * problem.dataSizeX)) ?_ ?_
  · rw [Finset.sum_range_zero, add_zero]
    exact Written.unchanged holds
  · intro row now inRow written
    refine (referenceStep_adds problem (written.size.symm ▸ place) (written.inside _ rfl)
      inColumn inRow).mono (fun next last => ?_)
    rw [Finset.sum_range_succ, <- add_assoc]
    exact written.overwrite last

/-- The two inner loops add the convolution to one cell. -/
theorem reference_cell (place : x + y * problem.dataSizeX < out.size)
    (holds : out.cell (x + y * problem.dataSizeX) = some sum) :
    Yields ((offsets problem.kernCentX).foldlM (fun out i =>
        (offsets problem.kernCentY).foldlM (fun out j =>
          referenceStep (.ofList problem.image) (.ofList problem.kernel) problem.dataSizeX
            problem.dataSizeY problem.kernelX problem.kernCentX problem.kernCentY x y i j out)
          out) out)
      (Written out (fun _ => sum + problem.convolved x y)
        (fun index => index = x + y * problem.dataSizeX)) := by
  rw [offsets_foldlM, <- problem.kernelX_eq]
  refine foldlM_range_yields (fun columns => Written out (fun _ => sum +
    ∑ column ∈ Finset.range columns, ∑ row ∈ Finset.range problem.kernelY,
      problem.term x y column row) (fun index => index = x + y * problem.dataSizeX)) ?_ ?_
  · rw [Finset.sum_range_zero, add_zero]
    exact Written.unchanged holds
  · intro column now inColumn written
    refine (reference_column problem (written.size.symm ▸ place) (written.inside _ rfl)
      inColumn).mono (fun next last => ?_)
    rw [Finset.sum_range_succ, <- add_assoc]
    exact written.overwrite last

/-- The cells of the first columns and of the first rows of one more column. -/
def Scanned (width height x y index : Nat) : Prop :=
  index < width * height ∧ (index % width < x ∨ index % width = x ∧ index / width < y)

theorem scanned_next (inX : x < width) (inY : y < height) (index : Nat) :
    Scanned width height x y index ∨ index = x + y * width <->
      Scanned width height x (y + 1) index := by
  constructor
  · rintro (⟨inside, left | ⟨same, above⟩⟩ | rfl)
    · exact ⟨inside, .inl left⟩
    · exact ⟨inside, .inr ⟨same, Nat.lt_succ_of_lt above⟩⟩
    · exact ⟨place_lt inX inY,
        .inr ⟨place_mod inX, by rw [place_div inX]; exact Nat.lt_succ_self y⟩⟩
  · rintro ⟨inside, left | ⟨same, above⟩⟩
    · exact .inl ⟨inside, .inl left⟩
    · rcases Nat.lt_succ_iff_lt_or_eq.mp above with before | last
      · exact .inl ⟨inside, .inr ⟨same, before⟩⟩
      · refine .inr ?_
        rw [<- same, <- last]
        exact (Nat.mod_add_div' index width).symm

theorem scanned_column (index : Nat) :
    Scanned width height x height index <-> Scanned width height (x + 1) 0 index := by
  constructor
  · rintro ⟨inside, left | ⟨same, _⟩⟩
    · exact ⟨inside, .inl (Nat.lt_succ_of_lt left)⟩
    · exact ⟨inside, .inl (same ▸ Nat.lt_succ_self _)⟩
  · rintro ⟨inside, left | ⟨_, above⟩⟩
    · refine ⟨inside, ?_⟩
      rcases Nat.lt_succ_iff_lt_or_eq.mp left with before | same
      · exact .inl before
      · exact .inr ⟨same, Nat.div_lt_of_lt_mul inside⟩
    · exact absurd above (Nat.not_lt_zero _)

theorem scanned_all (index : Nat) :
    Scanned width height width 0 index <-> index < width * height := by
  constructor
  · exact And.left
  · intro inside
    have positive : 0 < width := Nat.pos_of_mul_pos_right (Nat.zero_lt_of_lt inside)
    exact ⟨inside, .inl (Nat.mod_lt index positive)⟩

/-- The reference adds the convolution to every cell. -/
theorem reference_written {old : Nat -> R}
    (holds : out.Holds (problem.dataSizeX * problem.dataSizeY) old) :
    Yields (reference (.ofList problem.image) out problem.dataSizeX problem.dataSizeY
        (.ofList problem.kernel) problem.kernelX problem.kernelY)
      (Written out (fun index => old index +
          problem.convolved (index % problem.dataSizeX) (index / problem.dataSizeX))
        (fun index => index < problem.dataSizeX * problem.dataSizeY)) := by
  refine (foldlM_range_yields (fun x => Written out _
    (Scanned problem.dataSizeX problem.dataSizeY x 0)) ?_ ?_).mono
    (fun final written => written.congr scanned_all)
  · refine Written.none out _ ?_
    rintro index ⟨_, left | ⟨_, above⟩⟩
    · exact absurd left (Nat.not_lt_zero _)
    · exact absurd above (Nat.not_lt_zero _)
  · intro x before inX written
    refine (foldlM_range_yields (fun y => Written out _
      (Scanned problem.dataSizeX problem.dataSizeY x y)) written ?_).mono
      (fun after written => written.congr scanned_column)
    intro y now inY written
    have place := place_lt inX inY
    have fresh : ¬ Scanned problem.dataSizeX problem.dataSizeY x y (x + y * problem.dataSizeX) := by
      rintro ⟨_, left | ⟨_, above⟩⟩
      · rw [place_mod inX] at left
        exact Nat.lt_irrefl x left
      · rw [place_div inX] at above
        exact Nat.lt_irrefl y above
    have cell : now.cell (x + y * problem.dataSizeX) = some (old (x + y * problem.dataSizeX)) := by
      rw [written.outside _ fresh, holds.2 _ place]
    have room : x + y * problem.dataSizeX < now.size := by
      rw [written.size, holds.1]
      exact place
    refine (reference_cell problem room cell).mono (fun next last => ?_)
    refine (written.trans (last.retarget ?_)).congr (scanned_next inX inY)
    rintro index rfl
    rw [place_mod inX, place_div inX]

end

end Convolution
end Codebank
