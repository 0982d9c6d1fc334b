import Mathlib.Algebra.Ring.Defs
import Codebank.Foundation.Buffer

namespace Codebank
namespace Convolution

open Foundation

/-!
# The optimised convolution

`conv2D` copies the image into a padded buffer, flips the kernel, and then computes
four cells at a time, with a scalar loop for the columns that are left.  It has a
special case for kernels of three by three, unrolled loops for kernels of width 3 to
19, and the macro `CONV` for all others.  A condition `x < n - k` of the source is
written `x + k < n`, which has the same meaning when the difference is negative.

The iterations of a parallel loop are run by a team of threads in any order.  Within
one loop they write cells of their own and read none that another iteration writes.
-/

variable {R : Type} [CommRing R]

/-! ## Vectors of four -/

/-- The four lanes of an `__m128`. -/
structure M128 (R : Type) where
  lane0 : R
  lane1 : R
  lane2 : R
  lane3 : R

namespace M128

def setzero : M128 R := ⟨0, 0, 0, 0⟩

def add (first second : M128 R) : M128 R where
  lane0 := first.lane0 + second.lane0
  lane1 := first.lane1 + second.lane1
  lane2 := first.lane2 + second.lane2
  lane3 := first.lane3 + second.lane3

def mul (first second : M128 R) : M128 R where
  lane0 := first.lane0 * second.lane0
  lane1 := first.lane1 * second.lane1
  lane2 := first.lane2 * second.lane2
  lane3 := first.lane3 * second.lane3

end M128

section

variable {Value : Type}

/-- One value in all lanes. -/
def load1 (buffer : Buffer Value) (index : Nat) : Option (M128 Value) := do
  let value <- buffer.load index
  some ⟨value, value, value, value⟩

def loadu (buffer : Buffer Value) (index : Nat) : Option (M128 Value) := do
  let lane0 <- buffer.load index
  let lane1 <- buffer.load (index + 1)
  let lane2 <- buffer.load (index + 2)
  let lane3 <- buffer.load (index + 3)
  some ⟨lane0, lane1, lane2, lane3⟩

def storeu (buffer : Buffer Value) (index : Nat) (vector : M128 Value) : Option (Buffer Value) := do
  let first <- buffer.store index vector.lane0
  let second <- first.store (index + 1) vector.lane1
  let third <- second.store (index + 2) vector.lane2
  third.store (index + 3) vector.lane3

/-- Four cells copied from one buffer to another. -/
def copyQuad (input padded : Buffer Value) (source destination : Nat) : Option (Buffer Value) := do
  let values <- loadu input source
  storeu padded destination values

end

/-! ## The padded copy and the flipped kernel -/

/-- One row of the padded copy: zeros, the row of the image, zeros. -/
def padRow (input : Buffer R) (dataSizeX kernCentX kernCentY paddedX y : Nat)
    (padded : Buffer R) : Option (Buffer R) := do
  let left <- stride (fun x padded => padded.store ((y + kernCentY) * paddedX + x) 0)
    1 0 kernCentX 0 padded
  let wide <- stride (fun x padded => [0, 4, 8, 12, 16, 20, 24, 28].foldlM (fun padded part =>
      copyQuad input padded (y * dataSizeX + x + part)
        ((y + kernCentY) * paddedX + kernCentX + x + part)) padded)
    32 31 dataSizeX 0 left.2
  let quads <- stride (fun x padded =>
      copyQuad input padded (y * dataSizeX + x) ((y + kernCentY) * paddedX + kernCentX + x))
    4 3 dataSizeX wide.1 wide.2
  let single <- stride (fun x padded => do
      let value <- input.load (y * dataSizeX + x)
      padded.store ((y + kernCentY) * paddedX + kernCentX + x) value)
    1 0 dataSizeX quads.1 quads.2
  let right <- stride (fun x padded => padded.store ((y + kernCentY) * paddedX + x) 0)
    1 0 paddedX (dataSizeX + kernCentX) single.2
  some right.2

/-- The padded copy of the image; `first` is the number of its first parallel loop. -/
def pad (team : Team) (first : Nat) (input : Buffer R)
    (dataSizeX dataSizeY kernCentX kernCentY paddedX paddedY : Nat) : Option (Buffer R) := do
  let top <- team.parallelFor first (paddedX * kernCentY)
    (fun _ i padded => padded.store i 0) (Buffer.fresh (paddedX * paddedY))
  let middle <- team.parallelFor (first + 1) dataSizeY
    (fun _ y padded => padRow input dataSizeX kernCentX kernCentY paddedX y padded) top
  let start := paddedX * (kernCentY + dataSizeY)
  team.parallelFor (first + 2) (paddedX * paddedY - start)
    (fun _ i padded => padded.store (start + i) 0) middle

def flip (kernel : Buffer R) (kernelSize : Nat) : Option (Buffer R) :=
  (List.range kernelSize).foldlM (fun flipped kernUf => do
    let weight <- kernel.load (kernelSize - 1 - kernUf)
    flipped.store kernUf weight) (Buffer.fresh kernelSize)

/-! ## Sums over the kernel -/

section

variable (kern padded : Buffer R) (paddedX x y : Nat)

/-- Add one place of the kernel to the result. -/
def tap (result : M128 R) (index column row : Nat) : Option (M128 R) := do
  let weight <- load1 kern index
  let values <- loadu padded ((x + column) + paddedX * (y + row))
  some (result.add (weight.mul values))

/-- The nine places of a kernel of three by three. -/
def sum3x3 : Option (M128 R) := do
  let first <- tap kern padded paddedX x y M128.setzero 0 0 0
  let second <- tap kern padded paddedX x y first 1 1 0
  let third <- tap kern padded paddedX x y second 2 2 0
  let fourth <- tap kern padded paddedX x y third 3 0 1
  let fifth <- tap kern padded paddedX x y fourth 4 1 1
  let sixth <- tap kern padded paddedX x y fifth 5 2 1
  let seventh <- tap kern padded paddedX x y sixth 6 0 2
  let eighth <- tap kern padded paddedX x y seventh 7 1 2
  tap kern padded paddedX x y eighth 8 2 2

/-- A kernel whose width is known: row by row, the row being counted in `temp`, and then
the places that are left. -/
def unrolledSum (width kernelSize : Nat) : Option (M128 R) := do
  let rows <- stride (fun i (state : Nat × M128 R) => do
      let temp := state.1
      let result <- (List.range width).foldlM (fun result part =>
        tap kern padded paddedX x y result (i + part) part temp) state.2
      some (temp + 1, result))
    width (width + 1) kernelSize 0 (0, M128.setzero)
  let rest <- stride (fun i result =>
      tap kern padded paddedX x y result i (i % width) (i / width))
    1 0 kernelSize rows.1 rows.2.2
  some rest.2

/-- Any kernel: nine places at a time, and then those that are left. -/
def genericSum (kernelX kernelSize : Nat) : Option (M128 R) := do
  let nines <- stride (fun i result => (List.range 9).foldlM (fun result part =>
      tap kern padded paddedX x y result (i + part) ((i + part) % kernelX) ((i + part) / kernelX))
      result)
    9 8 kernelSize 0 M128.setzero
  let rest <- stride (fun i result =>
      tap kern padded paddedX x y result i (i % kernelX) (i / kernelX))
    1 0 kernelSize nines.1 nines.2
  some rest.2

/-- The scalar loop of one cell; it adds to what the cell holds. -/
def scalarCell (dataSizeX kernelSize width : Nat) (out : Buffer R) : Option (Buffer R) :=
  (List.range kernelSize).foldlM (fun out i => do
    let sum <- out.load (x + y * dataSizeX)
    let weight <- kern.load i
    let value <- padded.load ((x + i % width) + paddedX * (y + i / width))
    out.store (x + y * dataSizeX) (sum + weight * value)) out

end

/-- One row of the result: four cells at a time, and then cell by cell. -/
def convRow (vectorSum : Nat -> Option (M128 R)) (kern padded : Buffer R)
    (dataSizeX paddedX kernelSize width y : Nat) (out : Buffer R) : Option (Buffer R) := do
  let quads <- stride (fun x out => do
      let result <- vectorSum x
      storeu out (x + y * dataSizeX) result)
    4 3 dataSizeX 0 out
  let rest <- stride (fun x out =>
      scalarCell kern padded paddedX x y dataSizeX kernelSize width out)
    1 0 dataSizeX quads.1 quads.2
  some rest.2

/-! ## The parallel loop over the rows -/

/-- The result, and the copy of the kernel that each thread has made.  A thread without
one still has its `copy_kernel` set. -/
structure Shared (R : Type) where
  out : Buffer R
  kernLocal : Nat -> Option (Buffer R)

/-- The kernel a thread works with: `kern_flipped` is copied in its first iteration. -/
def localKernel (kernFlipped : Buffer R) (shared : Shared R) (thread : Nat) : Buffer R :=
  (shared.kernLocal thread).getD kernFlipped

/-- One iteration of the loop over the rows. -/
def rowTurn (kernFlipped : Buffer R) (row : Buffer R -> Nat -> Buffer R -> Option (Buffer R))
    (thread y : Nat) (shared : Shared R) : Option (Shared R) := do
  let out <- row (localKernel kernFlipped shared thread) y shared.out
  some (Shared.mk out (fun other =>
    if other = thread then some (localKernel kernFlipped shared thread)
    else shared.kernLocal other))

def convolve (team : Team) (loop dataSizeY : Nat) (kernFlipped : Buffer R)
    (row : Buffer R -> Nat -> Buffer R -> Option (Buffer R)) (out : Buffer R) :
    Option (Buffer R) := do
  let last <- team.parallelFor loop dataSizeY (rowTurn kernFlipped row)
    (Shared.mk out (fun _ => none))
  some last.out

/-! ## The branches -/

/-- The special case of three by three. -/
def conv3x3 (team : Team) (input out : Buffer R) (dataSizeX dataSizeY : Nat)
    (kernel : Buffer R) : Option (Buffer R) := do
  let paddedX := 2 + dataSizeX
  let paddedY := 2 + dataSizeY
  let padded <- pad team 0 input dataSizeX dataSizeY 1 1 paddedX paddedY
  let kernFlipped <- flip kernel 9
  convolve team 3 dataSizeY kernFlipped (fun kern y =>
    convRow (fun x => sum3x3 kern padded paddedX x y) kern padded dataSizeX paddedX 9 3 y) out

/-- The branch for one width. -/
def convUnrolled (width : Nat) (team : Team) (padded kernFlipped out : Buffer R)
    (dataSizeX dataSizeY paddedX kernelSize : Nat) : Option (Buffer R) :=
  convolve team 3 dataSizeY kernFlipped (fun kern y =>
    convRow (fun x => unrolledSum kern padded paddedX x y width kernelSize)
      kern padded dataSizeX paddedX kernelSize width y) out

/-- The macro `CONV`, with a padded copy and a flipped kernel of its own. -/
def convMacro (team : Team) (input out : Buffer R) (dataSizeX dataSizeY : Nat)
    (kernel : Buffer R) (kernelX kernelY : Nat) : Option (Buffer R) := do
  let paddedX := (kernelX - 1) + dataSizeX
  let paddedY := (kernelY - 1) + dataSizeY
  let kernelSize := kernelX * kernelY
  let padded <- pad team 3 input dataSizeX dataSizeY ((kernelX - 1) / 2) ((kernelY - 1) / 2)
    paddedX paddedY
  let kernFlipped <- flip kernel kernelSize
  convolve team 6 dataSizeY kernFlipped (fun kern y =>
    convRow (fun x => genericSum kern padded paddedX x y kernelX kernelSize)
      kern padded dataSizeX paddedX kernelSize kernelX y) out

/-- `conv2D`; the value is what it leaves in `out`. -/
def conv2D (team : Team) (input out : Buffer R) (dataSizeX dataSizeY : Nat)
    (kernel : Buffer R) (kernelX kernelY : Nat) : Option (Buffer R) :=
  if kernelX = 3 ∧ kernelY = 3 then
    conv3x3 team input out dataSizeX dataSizeY kernel
  else do
    let paddedX := (kernelX - 1) + dataSizeX
    let paddedY := (kernelY - 1) + dataSizeY
    let kernelSize := kernelX * kernelY
    let padded <- pad team 0 input dataSizeX dataSizeY ((kernelX - 1) / 2) ((kernelY - 1) / 2)
      paddedX paddedY
    let kernFlipped <- flip kernel kernelSize
    if kernelX = 3 then
      convUnrolled 3 team padded kernFlipped out dataSizeX dataSizeY paddedX kernelSize
    else if kernelX = 5 then
      convUnrolled 5 team padded kernFlipped out dataSizeX dataSizeY paddedX kernelSize
    else if kernelX = 7 then
      convUnrolled 7 team padded kernFlipped out dataSizeX dataSizeY paddedX kernelSize
    else if kernelX = 9 then
      convUnrolled 9 team padded kernFlipped out dataSizeX dataSizeY paddedX kernelSize
    else if kernelX = 11 then
      convUnrolled 11 team padded kernFlipped out dataSizeX dataSizeY paddedX kernelSize
    else if kernelX = 13 then
      convUnrolled 13 team padded kernFlipped out dataSizeX dataSizeY paddedX kernelSize
    else if kernelX = 15 then
      convUnrolled 15 team padded kernFlipped out dataSizeX dataSizeY paddedX kernelSize
    else if kernelX = 17 then
      convUnrolled 17 team padded kernFlipped out dataSizeX dataSizeY paddedX kernelSize
    else if kernelX = 19 then
      convUnrolled 19 team padded kernFlipped out dataSizeX dataSizeY paddedX kernelSize
    else
      convMacro team input out dataSizeX dataSizeY kernel kernelX kernelY

end Convolution
end Codebank
