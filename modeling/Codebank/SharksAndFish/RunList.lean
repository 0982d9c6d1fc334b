import Codebank.SharksAndFish.Objects
import Codebank.SharksAndFish.RunLengthEncoding

namespace Codebank
namespace SharksAndFish

open Ocean Foundation

/-!
# Encodings of oceans of any extent

The constructor that takes two arrays, decoding, and encoding the decoded ocean, all
with the arithmetic of `int`.  Nothing here bounds the number of cells: positions and
lengths can leave the range of an `int`, and wrap around then.
-/

/-- A `RunLengthEncoding` object. -/
structure RunList (extent : Extent) where
  starveTime : Int
  runs : DList
  printed : List Nat

namespace RunList

variable {extent : Extent}

/-! ## The constructor with five parameters -/

def item (starveTime type length : Int) : List Int :=
  if type = SHARK then [type, length, starveTime] else [type, length, NULL_HUNGER]

def append (list : DList) (item : List Int) : Option DList :=
  let allocated := list.allocate item
  allocated.1.addLast allocated.2

/-- The loop stops at the end of the shorter array. -/
def ofArrays (extent : Extent) (starveTime : Int) (runTypes runLengths : List Int) :
    Option (RunList extent) := do
  let runs <- (runTypes.zip runLengths).foldlM
    (fun list run => append list (item starveTime run.1 run.2)) DList.new
  some ⟨starveTime, runs, []⟩

/-! ## Enumerating -/

/-- What a number of calls in a row return. -/
def nextRuns (calls : Nat) (encoding : RunList extent) : Option (List (Option (List Int))) :=
  encoding.runs.nextRuns calls

/-! ## Decoding -/

/-- Drawing on an object, with the arithmetic of `int`. -/
def canvas (extent : Extent) : Canvas (Memory × Sea extent) where
  int := int
  width := extent.width
  addFish state x y := state.2.addFish state.1 x y
  addSharkFed state x y hunger := state.2.addSharkFed state.1 x y hunger

def toOcean (encoding : RunList extent) (memory : Memory) : Option (Memory × Sea extent) := do
  let state <- Sea.new extent memory encoding.starveTime
  let first <- encoding.runs.getFirst
  let drawing <- RunLengthEncoding.drawRuns (canvas extent) encoding.runs
    encoding.runs.size.toNat first ⟨state, 0, 0⟩
  some drawing.ocean

/-! ## Encoding an ocean -/

def check (extent : Extent) (list : DList) : Option (List Nat) :=
  RunLengthEncoding.checkCells int (extent.width * extent.height) list

def scanCell (sea : Sea extent) (memory : Memory) (scan : RunLengthEncoding.Scan)
    (cell : Fin extent.width × Fin extent.height) : Option RunLengthEncoding.Scan :=
  scan.step int (sea.cellContents memory cell.1 cell.2) (sea.sharkFeeding memory cell.1 cell.2)

/-- The cells row after row. -/
def rowMajor (extent : Extent) : List (Fin extent.width × Fin extent.height) :=
  (List.finRange extent.height).flatMap fun y => (List.finRange extent.width).map fun x => (x, y)

/-- The constructor that takes an ocean. -/
def ofOcean (sea : Sea extent) (memory : Memory) : Option (RunList extent) := do
  let contents <- sea.cellContents memory 0 0
  let feeding <- sea.sharkFeeding memory 0 0
  let scan <- (rowMajor extent).foldlM (scanCell sea memory) ⟨DList.new, contents, 0, feeding⟩
  let runs <- scan.finish
  let printed <- check extent runs
  some ⟨sea.starveTime, runs, printed⟩

end RunList

end SharksAndFish
end Codebank
