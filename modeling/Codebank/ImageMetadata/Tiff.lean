import Codebank.Foundation.Bytes
import Codebank.Foundation.Routine

namespace Codebank
namespace ImageMetadata

open Foundation Foundation.Routine

/-!
# The TIFF block

`analyze_tiff` reads the header, the 0th IFD and, behind its pointer, the Exif IFD.
The state has the file position, the source's count of the bytes read, the static
variables of `jpg.c` and the text printed.
Sizes are 64 bits wide, and their arithmetic wraps.
-/

/-- The number of values of `size_t`. -/
@[irreducible] def sizeRange : Nat := 18446744073709551616

def sizeAdd (first second : Nat) : Nat := (first + second) % sizeRange

def sizeSub (first second : Nat) : Nat := (first + sizeRange - second) % sizeRange

theorem sizeAdd_of_lt {first second : Nat} (small : first + second < sizeRange) :
    sizeAdd first second = first + second :=
  Nat.mod_eq_of_lt small

theorem sizeSub_of_le {first second : Nat} (less : second <= first) (small : first < sizeRange) :
    sizeSub first second = first - second := by
  rw [sizeSub, Nat.sub_add_comm less, Nat.add_mod_right]
  exact Nat.mod_eq_of_lt (Nat.lt_of_le_of_lt (Nat.sub_le _ _) small)

/-- The static variables of `jpg.c`. -/
structure JpgStatics where
  valid : Bool
  exifOffset : Nat
  exifFound : Bool
  deriving Repr, DecidableEq

def JpgStatics.initial : JpgStatics where
  valid := true
  exifOffset := 0
  exifFound := false

structure TiffState where
  position : Nat
  numBytesRead : Nat
  statics : JpgStatics
  printed : Bytes
  deriving Repr, DecidableEq

/-- The state in which `analyze_tiff` is called. -/
def TiffState.opening (position : Nat) (statics : JpgStatics) : TiffState where
  position := position
  numBytesRead := 0
  statics := statics
  printed := []

/-! ## Tags -/

/-- What the source does with a tag. -/
inductive TagKind where
  | string (name : String)
  | makerNote
  | userComment
  | exifPointer
  | other
  deriving Repr, DecidableEq

def tagKind (tagid : Nat) : TagKind :=
  if tagid = 0x010D then .string "DocumentName"
  else if tagid = 0x010E then .string "ImageDescription"
  else if tagid = 0x010F then .string "Make"
  else if tagid = 0x0110 then .string "Model"
  else if tagid = 0x0131 then .string "Software"
  else if tagid = 0x0132 then .string "DateTime"
  else if tagid = 0x013B then .string "Artist"
  else if tagid = 0x013C then .string "HostComputer"
  else if tagid = 0x8298 then .string "Copyright"
  else if tagid = 0xA004 then .string "RelatedSoundFile"
  else if tagid = 0x9003 then .string "DateTimeOriginal"
  else if tagid = 0x9004 then .string "DateTimeDigitized"
  else if tagid = 0x927C then .makerNote
  else if tagid = 0x9286 then .userComment
  else if tagid = 0xA420 then .string "ImageUniqueID"
  else if tagid = 0x8769 then .exifPointer
  else .other

def shouldPrint (tagid datatype count : Nat) : Int :=
  match tagKind tagid with
  | .string _ => if datatype ≠ 0x0002 then -1 else 1
  | .makerNote => if datatype ≠ 0x0007 then -1 else 1
  | .userComment => if datatype ≠ 0x0007 then -1 else 1
  | .exifPointer => if datatype ≠ 0x0004 ∨ count ≠ 1 then -1 else 2
  | .other => 0

/-- A name, a colon and a value on a line. -/
def line (name : String) (value : Bytes) : Bytes :=
  text name ++ text ": " ++ value ++ text "\n"

/-- A name without a value. -/
def bareLine (name : String) : Bytes :=
  text name ++ text ":\n"

/-- The bytes `ASCII`, NUL, NUL, NUL. -/
def asciiCode : Bytes := [0x41, 0x53, 0x43, 0x49, 0x49, 0x00, 0x00, 0x00]

/-- The result and the text of `print_offset`. -/
def printOffset (tagid size : Nat) (val : Bytes) : Int × Bytes :=
  match tagKind tagid with
  | .string name =>
    if size = 0 then (0, bareLine name)
    else if byteAt val (size - 1) ≠ 0x00 then (-1, [])
    else (1, line name (cString val))
  | .makerNote => (1, line "MakerNote" (cString val))
  | .userComment =>
    if size < 8 then (-1, [])
    else if val.take 8 ≠ asciiCode then (-1, [])
    else if size = 8 then (1, bareLine "UserComment")
    else (1, line "UserComment" (cString (val.drop 8)))
  | .exifPointer => (0, [])
  | .other => (0, [])

/-- The result and the text of `print_values`. -/
def printValues (tagid count : Nat) (val : Bytes) : Int × Bytes :=
  match tagKind tagid with
  | .string name =>
    if byteAt val 3 ≠ 0x00 then (-1, [])
    else (1, line name (cString val))
  | .makerNote =>
    if count < 4 ∧ byteAt val 3 = 0x00 then (1, line "MakerNote" (cString val))
    else if count = 4 then (1, line "MakerNote" val)
    else (-1, [])
  | .userComment => (-1, [])
  | .exifPointer => (0, [])
  | .other => (0, [])

/-- The size of one value of a data type; `none` for an unknown type. -/
def unitSize (datatype : Nat) : Option Nat :=
  if datatype = 0x0001 then some 1
  else if datatype = 0x0002 then some 1
  else if datatype = 0x0003 then some 2
  else if datatype = 0x0004 then some 4
  else if datatype = 0x0005 then some 8
  else if datatype = 0x0007 then some 1
  else if datatype = 0x0008 then some 2
  else if datatype = 0x0009 then some 4
  else if datatype = 0x000a then some 8
  else if datatype = 0x000b then some 4
  else if datatype = 0x000c then some 8
  else none

/-! ## Statements -/

namespace TiffState

def fread (file : Bytes) (count : Nat) : Routine TiffState Int Bytes :=
  fun state =>
    let buffer := readAt file state.position count
    (.ok buffer, { state with position := state.position + buffer.length })

def seek (position : Nat) : Routine TiffState Int Unit :=
  change (fun state => { state with position := position })

def setBytesRead (count : Nat) : Routine TiffState Int Unit :=
  change (fun state => { state with numBytesRead := count })

def addBytesRead (count : Nat) : Routine TiffState Int Unit :=
  change (fun state => { state with numBytesRead := sizeAdd state.numBytesRead count })

def display (output : Bytes) : Routine TiffState Int Unit :=
  change (fun state => { state with printed := state.printed ++ output })

def invalidate : Routine TiffState Int Unit :=
  change (fun state => { state with statics := { state.statics with valid := false } })

end TiffState

open TiffState

/-- The size of a value; an unknown data type clears the static `valid`. -/
def numBytes (datatype count : Nat) : Routine TiffState Int Nat := do
  whenever (unitSize datatype = none) invalidate
  pure ((unitSize datatype).getD 0 * count)

/-- The fields of a twelve-byte entry. -/
structure Entry where
  tagid : Nat
  datatype : Nat
  count : Nat
  offsetOrValue : Nat
  value : Bytes

def Entry.ofBuffer (buffer : Bytes) : Entry where
  tagid := littleEndian (readAt buffer 0 2)
  datatype := littleEndian (readAt buffer 2 2)
  count := littleEndian (readAt buffer 4 4)
  offsetOrValue := littleEndian (readAt buffer 8 4)
  value := readAt buffer 8 4

/-- An entry whose value stands in the entry; `pointer` is what the loop does with
the Exif pointer. -/
def inlineEntry (pointer : Nat -> Routine TiffState Int Unit) (entry : Entry) :
    Routine TiffState Int Unit := do
  let print := shouldPrint entry.tagid entry.datatype entry.count
  whenever (print = 1) (display (printValues entry.tagid entry.count entry.value).2)
  whenever (print = 2) (pointer entry.offsetOrValue)

/-- An entry whose value stands elsewhere in the block. -/
def distantEntry (file : Bytes) (begPos len : Nat) (entry : Entry) (size : Nat) :
    Routine TiffState Int Unit := do
  leaveIf (sizeAdd entry.offsetOrValue size > len) (-1)
  let print := shouldPrint entry.tagid entry.datatype entry.count
  if print = 1 then do
    let currPos <- inspect TiffState.position
    seek (begPos + entry.offsetOrValue)
    let buffer <- fread file size
    leaveIf (buffer.length ≠ size) (-1)
    display (printOffset entry.tagid size buffer).2
    seek currPos
  else leaveIf (print ≠ 0) (-1)

/-- One turn of either IFD loop. -/
def ifdEntry (file : Bytes) (begPos len : Nat) (pointer : Nat -> Routine TiffState Int Unit) :
    Routine TiffState Int Unit := do
  let numBytesRead <- inspect TiffState.numBytesRead
  leaveIf (numBytesRead ≥ sizeSub len 12) (-1)
  let buffer <- fread file 12
  leaveIf (buffer.length ≠ 12) (-1)
  addBytesRead 12
  let entry := Entry.ofBuffer buffer
  let size <- numBytes entry.datatype entry.count
  leaveIf (size > len) (-1)
  let statics <- inspect TiffState.statics
  leaveIf (statics.valid = false) (-1)
  if size <= 4 then inlineEntry pointer entry
  else distantEntry file begPos len entry size

/-- The number of entries of an IFD. -/
def numStructs (file : Bytes) (len : Nat) : Routine TiffState Int Nat := do
  let numBytesRead <- inspect TiffState.numBytesRead
  leaveIf (numBytesRead ≥ sizeSub len 2) (-1)
  let buffer <- fread file 2
  leaveIf (buffer.length ≠ 2) (-1)
  addBytesRead 2
  leaveIf (littleEndian buffer = 0) (-1)
  pure (littleEndian buffer)

/-- The first loop keeps the Exif pointer, and returns if one was found before. -/
def keepPointer (offset : Nat) : Routine TiffState Int Unit := do
  let statics <- inspect TiffState.statics
  leaveIf (statics.exifFound = true) (-1)
  change (fun state =>
    { state with statics := { state.statics with exifFound := true, exifOffset := offset } })

/-- The second loop returns at an Exif pointer. -/
def refusePointer (_ : Nat) : Routine TiffState Int Unit :=
  leave (-1)

/-- The bytes `II`, `2A`, `00`. -/
def tiffHeader : Bytes := [0x49, 0x49, 0x2A, 0x00]

/-- The header; the file is then positioned at the 0th IFD. -/
def readHeader (file : Bytes) (len : Nat) : Routine TiffState Int Unit := do
  leaveIf (len < 8) (-1)
  let buffer <- fread file 8
  leaveIf (buffer.length ≠ 8) (-1)
  leaveIf (readAt buffer 0 4 ≠ tiffHeader) (-1)
  let offset := littleEndian (readAt buffer 4 4)
  leaveIf (offset < 8) (-1)
  leaveIf (offset ≥ len) (-1)
  setBytesRead 8
  let position <- inspect TiffState.position
  seek (position + (offset - 8))
  addBytesRead (sizeSub (offset - 8) 8)

/-- The 0th IFD. -/
def firstIfd (file : Bytes) (begPos len : Nat) : Routine TiffState Int Unit := do
  let count <- numStructs file len
  turns (ifdEntry file begPos len keepPointer) count

/-- The Exif IFD, if there is one. -/
def exifIfd (file : Bytes) (begPos len : Nat) : Routine TiffState Int Unit := do
  let state <- inspect id
  leaveIf (state.statics.exifFound = false) 0
  leaveIf (state.statics.exifOffset < state.numBytesRead) (-1)
  leaveIf (state.statics.exifOffset ≥ len) (-1)
  seek (begPos + state.statics.exifOffset)
  setBytesRead state.statics.exifOffset
  let count <- numStructs file len
  turns (ifdEntry file begPos len refusePointer) count

def analyzeTiff (file : Bytes) (len : Nat) : Routine TiffState Int Unit := do
  let begPos <- inspect TiffState.position
  readHeader file len
  firstIfd file begPos len
  exifIfd file begPos len

end ImageMetadata
end Codebank
