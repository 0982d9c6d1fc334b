import Mathlib.Data.List.Chain
import Codebank.Foundation.Bytes
import Codebank.Foundation.Routine

namespace Codebank
namespace ImageMetadata

open Foundation Foundation.Routine List

/-!
# The JPEG scan

`analyze_jpg` walks over the segments of a file until it meets the APP1 segment
with the Exif data.  The routines below are the body of its outer loop; the walk
itself keeps the state it had at every head of that loop.  The loops of the source
have no bound, so both carry a number of turns after which the model gives up.
-/

/-- The file position and the source's own count of the bytes read. -/
structure Scan where
  position : Nat
  numBytesRead : Nat
  deriving Repr, DecidableEq

/-- How the walk ends: `analyze_jpg` returns, or it calls `analyze_tiff` with a
length, or the model has run out of turns. -/
inductive Ending where
  | code (value : Int)
  | tiff (len : Nat)
  | running
  deriving Repr, DecidableEq

namespace Scan

def fread (file : Bytes) (count : Nat) : Routine Scan Ending Bytes :=
  fun scan =>
    let buffer := readAt file scan.position count
    (.ok buffer, { scan with position := scan.position + buffer.length })

def addBytesRead (count : Nat) : Routine Scan Ending Unit :=
  change (fun scan => { scan with numBytesRead := scan.numBytesRead + count })

variable {Value : Type}

theorem fread_bind (file : Bytes) (count : Nat) (next : Bytes -> Routine Scan Ending Value)
    (scan : Scan) :
    (fread file count >>= next) scan =
      next (readAt file scan.position count)
        { scan with position := scan.position + (readAt file scan.position count).length } := rfl

theorem addBytesRead_bind (count : Nat) (next : Unit -> Routine Scan Ending Value) (scan : Scan) :
    (addBytesRead count >>= next) scan =
      next () { scan with numBytesRead := scan.numBytesRead + count } := rfl

theorem addBytesRead_apply (count : Nat) (scan : Scan) :
    addBytesRead count scan =
      (.ok (), { scan with numBytesRead := scan.numBytesRead + count }) := rfl

end Scan

open Scan

variable {file : Bytes} {realloc : Nat -> Bool} {behind : Nat}

/-- The inner loop: pass over data until `FF` is followed by something other than `00`. -/
def passData (file : Bytes) : Nat -> Routine Scan Ending Unit
  | 0 => leave .running
  | limit + 1 => do
      let scan <- inspect id
      if scan.numBytesRead < file.length then do
        let currChar <- fread file 1
        leaveIf (currChar.length ≠ 1) (.code (-1))
        addBytesRead 1
        if byteAt currChar 0 = 0xFF then do
          let nextChar <- fread file 1
          leaveIf (nextChar.length ≠ 1) (.code (-1))
          addBytesRead 1
          if byteAt nextChar 0 ≠ 0x00 then
            -- back to the position before the `FF`, and out of the loop
            change (fun after =>
              { position := scan.position, numBytesRead := after.numBytesRead - 2 })
          else passData file limit
        else passData file limit
      else pure ()

/-- The payload length of a standard segment. -/
def payloadLength (length : Nat) : Nat :=
  if length > 1 then length - 2 else length

/-- A standard segment; `realloc` tells which sizes it gives a buffer for. -/
def standardChunk (realloc : Nat -> Bool) (file : Bytes) : Routine Scan Ending Unit := do
  let buffer <- fread file 2
  leaveIf (buffer.length < 2) (.code (-1))
  let length := payloadLength (bigEndian buffer)
  leaveIf (length > file.length) (.code 1)
  addBytesRead 2
  leaveIf (realloc length = false) (.code 1)
  let payload <- fread file length
  leaveIf (payload.length < length) (.code 0)
  addBytesRead length

/-- The bytes `Exif`, NUL, NUL. -/
def preHeader : Bytes := [0x45, 0x78, 0x69, 0x66, 0x00, 0x00]

/-- The APP1 segment. -/
def app1Chunk (file : Bytes) : Routine Scan Ending Unit := do
  let buffer <- fread file 2
  leaveIf (buffer.length < 2) (.code (-1))
  let length := bigEndian buffer
  leaveIf (length > file.length) (.code 1)
  leaveIf (¬ length > 7) (.code 0)
  let header <- fread file 6
  leaveIf (header.length < 6) (.code 0)
  leaveIf (header ≠ preHeader) (.code 0)
  leave (.tiff (length - 8))

/-- The body of the outer loop. -/
def chunk (realloc : Nat -> Bool) (file : Bytes) (limit : Nat) : Routine Scan Ending Unit := do
  let buffer <- fread file 2
  leaveIf (buffer.length = 0) (.code 0)
  leaveIf (buffer.length < 2) (.code (-1))
  addBytesRead 2
  leaveIf (byteAt buffer 0 ≠ 0xFF) (.code (-1))
  leaveIf (byteAt buffer 1 = 0xFF) (.code (-1))
  leaveIf (byteAt buffer 1 = 0xD9) (.code 0)
  leaveIf (byteAt buffer 1 = 0xD8) (.code (-1))
  leaveIf (byteAt buffer 1 = 0x00) (.code 0)
  if (byteAt buffer 1 < 0xD0 ∨ byteAt buffer 1 > 0xDA) ∧ byteAt buffer 1 ≠ 0xE1 then
    standardChunk realloc file
  else if byteAt buffer 1 = 0xE1 then
    app1Chunk file
  else
    passData file limit

/-- The outer loop, with the states at its heads. -/
def scanLoop (realloc : Nat -> Bool) (file : Bytes) : Nat -> Scan -> List Scan × Ending × Scan
  | 0, scan => ([], .running, scan)
  | limit + 1, scan =>
    if scan.numBytesRead < file.length then
      match chunk realloc file limit scan with
      | (.ok (), next) =>
        let later := scanLoop realloc file limit next
        (scan :: later.1, later.2)
      | (.error ending, last) => ([scan], ending, last)
    else ([scan], .code 0, scan)

/-- `analyze_jpg` up to its return or its call of `analyze_tiff`. -/
def scanJpg (realloc : Nat -> Bool) (file : Bytes) (limit : Nat) : List Scan × Ending × Scan :=
  let buffer := readAt file 0 2
  if buffer.length < 2 then ([], .code (-1), ⟨buffer.length, 0⟩)
  else if byteAt buffer 0 ≠ 0xFF ∨ byteAt buffer 1 ≠ 0xD8 then ([], .code (-1), ⟨2, 0⟩)
  else scanLoop realloc file limit ⟨2, 2⟩

variable {scan : Scan} {limit : Nat}

theorem scanLoop_turn {next : Scan} (inside : scan.numBytesRead < file.length)
    (turn : chunk realloc file limit scan = (.ok (), next)) :
    scanLoop realloc file (limit + 1) scan =
      (scan :: (scanLoop realloc file limit next).1, (scanLoop realloc file limit next).2) := by
  rw [scanLoop, if_pos inside, turn]

theorem scanLoop_last {last : Scan} {ending : Ending} (inside : scan.numBytesRead < file.length)
    (turn : chunk realloc file limit scan = (.error ending, last)) :
    scanLoop realloc file (limit + 1) scan = ([scan], ending, last) := by
  rw [scanLoop, if_pos inside, turn]

theorem scanLoop_outside (outside : ¬ scan.numBytesRead < file.length) :
    scanLoop realloc file (limit + 1) scan = ([scan], .code 0, scan) := by
  rw [scanLoop, if_neg outside]

/-! ## The count is the position -/

/-- The next head is in place and lies behind a given position. -/
def InPlace (behind : Nat) (scan : Scan) : Prop :=
  scan.numBytesRead = scan.position ∧ behind <= scan.position

/-- The code has returned, and not because the model gave up. -/
def Returned (ending : Ending) (_ : Scan) : Prop :=
  ending ≠ .running

theorem returned_code (value : Int) (scan : Scan) : Returned (.code value) scan :=
  Ending.noConfusion

open Ends (leaveIf)

theorem passData_inPlace (placed : InPlace behind scan)
    (enough : file.length - scan.position < limit) :
    Ends (passData file limit scan) (fun _ => InPlace behind) Returned := by
  -- every turn that goes on has read one byte or two
  induction limit generalizing scan with
  | zero => exact absurd enough (Nat.not_lt_zero _)
  | succ limit ih =>
    rcases placed with ⟨same, later⟩
    rw [passData, inspect_bind, branch_apply]
    by_cases inside : scan.numBytesRead < file.length
    · rw [id_eq, if_pos inside, fread_bind]
      refine leaveIf (fun _ => returned_code _ _) (fun whole => ?_)
      have one := Decidable.not_not.mp whole
      rw [addBytesRead_bind, branch_apply, one]
      have next : InPlace behind ⟨scan.position + 1, scan.numBytesRead + 1⟩ :=
        ⟨congrArg (fun count => count + 1) same, Nat.le_succ_of_le later⟩
      by_cases marker : byteAt (readAt file scan.position 1) 0 = 0xFF
      · rw [if_pos marker, fread_bind]
        refine leaveIf (fun _ => returned_code _ _) (fun wholeNext => ?_)
        have oneNext := Decidable.not_not.mp wholeNext
        rw [addBytesRead_bind, branch_apply, oneNext]
        split
        · exact ⟨by show scan.numBytesRead + 1 + 1 - 2 = scan.position; omega, later⟩
        · refine ih ⟨?_, ?_⟩ ?_
          · show scan.numBytesRead + 1 + 1 = scan.position + 1 + 1
            omega
          · show behind <= scan.position + 1 + 1
            omega
          · show file.length - (scan.position + 1 + 1) < limit
            omega
      · rw [if_neg marker]
        refine ih next ?_
        show file.length - (scan.position + 1) < limit
        omega
    · rw [id_eq, if_neg inside]
      exact ⟨same, later⟩

theorem standardChunk_inPlace (placed : InPlace behind scan) :
    Ends (standardChunk realloc file scan) (fun _ => InPlace behind) Returned := by
  rcases placed with ⟨same, later⟩
  rw [standardChunk, fread_bind]
  refine leaveIf (fun _ => returned_code _ _) (fun short => ?_)
  have two : (readAt file scan.position 2).length = 2 :=
    Nat.le_antisymm (readAt_length_le _ _ _) (Nat.le_of_not_lt short)
  refine leaveIf (fun _ => returned_code _ _) (fun _ => ?_)
  rw [addBytesRead_bind]
  refine leaveIf (fun _ => returned_code _ _) (fun _ => ?_)
  rw [fread_bind]
  refine leaveIf (fun _ => returned_code _ _) (fun whole => ?_)
  have all := Nat.le_antisymm (readAt_length_le _ _ _) (Nat.le_of_not_lt whole)
  refine ⟨?_, Nat.le_trans later (Nat.le_trans (Nat.le_add_right _ _) (Nat.le_add_right _ _))⟩
  show scan.numBytesRead + 2 + _ = scan.position + _ + _
  rw [all, two, same]

theorem app1Chunk_returned {post : Unit -> Scan -> Prop} (scan : Scan) :
    Ends (app1Chunk file scan) post Returned := by
  rw [app1Chunk, fread_bind]
  refine leaveIf (fun _ => returned_code _ _) (fun _ => ?_)
  refine leaveIf (fun _ => returned_code _ _) (fun _ => ?_)
  refine leaveIf (fun _ => returned_code _ _) (fun _ => ?_)
  rw [fread_bind]
  refine leaveIf (fun _ => returned_code _ _) (fun _ => ?_)
  refine leaveIf (fun _ => returned_code _ _) (fun _ => ?_)
  exact ends_error Ending.noConfusion

theorem chunk_inPlace (realloc : Nat -> Bool) (same : scan.numBytesRead = scan.position)
    (enough : file.length - scan.position < limit + 2) :
    Ends (chunk realloc file limit scan) (fun _ => InPlace (scan.position + 2)) Returned := by
  rw [chunk, fread_bind]
  refine leaveIf (fun _ => returned_code _ _) (fun _ => ?_)
  refine leaveIf (fun _ => returned_code _ _) (fun short => ?_)
  have two : (readAt file scan.position 2).length = 2 :=
    Nat.le_antisymm (readAt_length_le _ _ _) (Nat.le_of_not_lt short)
  rw [addBytesRead_bind, two]
  refine leaveIf (fun _ => returned_code _ _) (fun _ => ?_)
  refine leaveIf (fun _ => returned_code _ _) (fun _ => ?_)
  refine leaveIf (fun _ => returned_code _ _) (fun _ => ?_)
  refine leaveIf (fun _ => returned_code _ _) (fun _ => ?_)
  refine leaveIf (fun _ => returned_code _ _) (fun _ => ?_)
  have placed : InPlace (scan.position + 2) ⟨scan.position + 2, scan.numBytesRead + 2⟩ :=
    ⟨congrArg (fun count => count + 2) same, Nat.le_refl _⟩
  rw [branch_apply]
  split
  · exact standardChunk_inPlace placed
  · rw [branch_apply]
    split
    · exact app1Chunk_returned _
    · refine passData_inPlace placed ?_
      show file.length - (scan.position + 2) < limit
      have nonempty : (readAt file scan.position 2).length <= file.length - scan.position := by
        rw [readAt_length]
        exact Nat.min_le_right _ _
      omega

/-- The heads of the outer loop: the count is the file position, which has grown by
two at least since the head before. -/
structure Heads (behind : Nat) (heads : List Scan) : Prop where
  placed : ∀ head, head ∈ heads -> InPlace behind head
  apart : heads.IsChain (fun head next => head.position + 2 <= next.position)

theorem Heads.single (same : scan.numBytesRead = scan.position) : Heads scan.position [scan] where
  placed := fun head member => by
    cases mem_singleton.mp member
    exact ⟨same, Nat.le_refl _⟩
  apart := isChain_singleton scan

theorem Heads.cons {heads : List Scan} (same : scan.numBytesRead = scan.position)
    (far : scan.position + 2 <= behind) (rest : Heads behind heads) :
    Heads scan.position (scan :: heads) where
  placed := fun head member => by
    rcases mem_cons.mp member with rfl | later
    · exact ⟨same, Nat.le_refl _⟩
    · have placed := rest.placed head later
      exact ⟨placed.1, by have := placed.2; omega⟩
  apart := isChain_cons.mpr ⟨fun next first =>
    Nat.le_trans far (rest.placed next (mem_of_mem_head? first)).2, rest.apart⟩

theorem scanLoop_inPlace (realloc : Nat -> Bool) (same : scan.numBytesRead = scan.position)
    (enough : file.length - scan.position < limit) :
    Heads scan.position (scanLoop realloc file limit scan).1 ∧
      (scanLoop realloc file limit scan).2.1 ≠ .running := by
  induction limit generalizing scan with
  | zero => exact absurd enough (Nat.not_lt_zero _)
  | succ limit ih =>
    by_cases inside : scan.numBytesRead < file.length
    · have facts := chunk_inPlace realloc same (Nat.lt_succ_of_lt enough)
      rcases turn : chunk realloc file limit scan with ⟨ending | _, next⟩
      · rw [turn] at facts
        rw [scanLoop_last inside turn]
        exact ⟨Heads.single same, facts⟩
      · rw [turn] at facts
        rcases facts with ⟨sameNext, far⟩
        rw [scanLoop_turn inside turn]
        have rest := ih sameNext (by omega)
        exact ⟨Heads.cons same far rest.1, rest.2⟩
    · rw [scanLoop_outside inside]
      exact ⟨Heads.single same, Ending.noConfusion⟩

/-- The scan of any file ends, both loops included, and keeps its place: at every
head of the outer loop the count of bytes read is the file position, and positions
at successive heads are two apart at least. -/
theorem scan_keeps_place (realloc : Nat -> Bool) (file : Bytes) (more : Nat) :
    (scanJpg realloc file (file.length + more)).2.1 ≠ .running ∧
      (∀ head, head ∈ (scanJpg realloc file (file.length + more)).1 ->
        head.numBytesRead = head.position) ∧
      (scanJpg realloc file (file.length + more)).1.IsChain
        (fun head next => head.position + 2 <= next.position) := by
  rw [scanJpg]
  split
  · exact ⟨Ending.noConfusion, fun head member => absurd member not_mem_nil, isChain_nil⟩
  · rename_i whole
    split
    · exact ⟨Ending.noConfusion, fun head member => absurd member not_mem_nil, isChain_nil⟩
    · have long : 2 <= file.length := by
        rw [readAt_length] at whole
        omega
      have enough : file.length - 2 < file.length + more := by omega
      have facts := scanLoop_inPlace realloc (Eq.refl (Scan.mk 2 2).numBytesRead) enough
      exact ⟨facts.2, fun head member => (facts.1.placed head member).1, facts.1.apart⟩

end ImageMetadata
end Codebank
