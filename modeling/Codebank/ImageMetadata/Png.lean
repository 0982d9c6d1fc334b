import Codebank.ImageMetadata.Tiff

namespace Codebank
namespace ImageMetadata

open Foundation Foundation.Routine

/-!
# The PNG scan

`analyze_png` walks over the chunks of a file and prints what the text and time
chunks say.  The checksum and the decompression of zlib, and the allocator, are
parameters.  Only the loop that grows the buffer for the decompressed text has no
bound of its own: it carries a number of turns after which the model gives up.
-/

/-- The codes of `uncompress`; every other code counts as `Z_BUF_ERROR`. -/
inductive ZCode where
  | ok
  | memError
  | dataError
  | bufError
  deriving Repr, DecidableEq

/-- What `uncompress` returns, stores in `destLen` and leaves in `dest`. -/
structure ZReply where
  code : ZCode
  destLen : Nat
  dest : Bytes

/-- The functions the source takes from its libraries.  `realloc` tells which sizes it
gives a buffer for. -/
structure Library where
  crc32 : Bytes -> Nat
  uncompress : Bytes -> Nat -> ZReply
  realloc : Nat -> Bool

/-- A buffer for the data of a chunk: the size asked for, and the bytes read into it. -/
structure DataBuffer where
  allocated : Nat
  filled : Nat
  deriving Repr, DecidableEq

/-- The variables of `analyze_png`, what it has printed, and the data buffers it has
allocated, in order. -/
structure PngState where
  position : Nat
  numBytesRead : Nat
  valid : Bool
  printed : Bytes
  dataBufs : List DataBuffer
  deriving Repr, DecidableEq

/-- `analyze_png` returns, or the model has run out of turns. -/
inductive Stop where
  | code (value : Int)
  | running
  deriving Repr, DecidableEq

namespace PngState

def fread (file : Bytes) (count : Nat) : Routine PngState Stop Bytes :=
  fun state =>
    let buffer := readAt file state.position count
    (.ok buffer, { state with position := state.position + buffer.length })

/-- The allocation of `data_buf` and the read into it. -/
def freadData (file : Bytes) (length : Nat) : Routine PngState Stop Bytes :=
  fun state =>
    let buffer := readAt file state.position length
    (.ok buffer, { state with
      position := state.position + buffer.length
      dataBufs := state.dataBufs ++ [⟨length, buffer.length⟩] })

def addBytesRead (count : Nat) : Routine PngState Stop Unit :=
  change (fun state => { state with numBytesRead := state.numBytesRead + count })

def display (output : Bytes) : Routine PngState Stop Unit :=
  change (fun state => { state with printed := state.printed ++ output })

def invalidate : Routine PngState Stop Unit :=
  change (fun state => { state with valid := false })

theorem fread_bind {Value : Type} (file : Bytes) (count : Nat)
    (next : Bytes -> Routine PngState Stop Value) (state : PngState) :
    (fread file count >>= next) state =
      next (readAt file state.position count)
        { state with
          position := state.position + (readAt file state.position count).length } := rfl

theorem freadData_bind {Value : Type} (file : Bytes) (length : Nat)
    (next : Bytes -> Routine PngState Stop Value) (state : PngState) :
    (freadData file length >>= next) state =
      next (readAt file state.position length)
        { state with
          position := state.position + (readAt file state.position length).length
          dataBufs := state.dataBufs ++ [⟨length, (readAt file state.position length).length⟩] } :=
  rfl

theorem addBytesRead_bind {Value : Type} (count : Nat)
    (next : Unit -> Routine PngState Stop Value) (state : PngState) :
    (addBytesRead count >>= next) state =
      next () { state with numBytesRead := state.numBytesRead + count } := rfl

end PngState

open PngState

/-! ## Chunks -/

inductive ChunkType where
  | text
  | ztxt
  | time
  | other
  deriving Repr, DecidableEq

def getType (buffer : Bytes) : ChunkType :=
  if buffer = [0x74, 0x45, 0x58, 0x74] then .text
  else if buffer = [0x7A, 0x54, 0x58, 0x74] then .ztxt
  else if buffer = [0x74, 0x49, 0x4D, 0x45] then .time
  else .other

/-- `crc32` is given the length as a 32-bit number. -/
def passChecksum (library : Library) (typeBuf dataBuf chksumBuf : Bytes) : Bool :=
  bigEndian chksumBuf == library.crc32
    ((typeBuf ++ dataBuf).take ((4 + dataBuf.length) % 4294967296))

/-- The key of a text chunk: what stands in front of its first zero byte. -/
def chunkKey (buffer : Bytes) : Bytes :=
  buffer.takeWhile (fun byte => byte != 0)

def handleTextChunk (buffer : Bytes) : Routine PngState Stop Unit :=
  let key := chunkKey buffer
  if key.length = buffer.length then invalidate
  else if key.length + 1 = buffer.length then display (key ++ text ":")
  else display (key ++ text ": " ++ cString (buffer.drop (key.length + 1)) ++ text "\n")

/-- The loop around `uncompress`: the decompressed text, or nothing after an error. -/
def inflate (library : Library) (source : Bytes) : Nat -> ZReply ->
    Routine PngState Stop (Option Bytes)
  | 0, _ => leave .running
  | limit + 1, reply =>
    match reply.code with
    | .ok => pure (some (reply.dest.take reply.destLen))
    | .memError => pure none
    | .dataError => pure none
    | .bufError =>
      let destLen := sizeAdd reply.destLen reply.destLen
      if library.realloc destLen = false then pure none
      else inflate library source limit (library.uncompress source destLen)

def handleZtxtChunk (library : Library) (limit : Nat) (buffer : Bytes) :
    Routine PngState Stop Unit :=
  let key := chunkKey buffer
  if key.length = buffer.length then invalidate
  else if key.length + 1 = buffer.length then invalidate
  else if byteAt buffer (key.length + 1) ≠ 0x00 then invalidate
  else if key.length + 2 = buffer.length then display (key ++ text ":")
  else do
    let source := buffer.drop (key.length + 2)
    let value <- inflate library source limit (library.uncompress source (2 * buffer.length))
    match value with
    | none => invalidate
    | some value => display (key ++ text ": " ++ cString value ++ text "\n")

/-- A number in decimal. -/
def decimal (number : Nat) : Bytes :=
  text (toString number)

/-- The line for a time chunk. -/
def timestamp (buffer : Bytes) : Bytes :=
  let field := fun index => decimal (byteAt buffer index).toNat
  let year := decimal (256 * (byteAt buffer 0).toNat + (byteAt buffer 1).toNat)
  text "Timestamp: " ++ field 2 ++ text "/" ++ field 3 ++ text "/" ++ year ++ text " " ++
    field 4 ++ text ":" ++ field 5 ++ text ":" ++ field 6

def handleTimeChunk (buffer : Bytes) : Routine PngState Stop Unit :=
  display (timestamp buffer ++ text "\n")

/-- Return under a condition on the static `valid`. -/
def leaveUnlessValid (code : Int) : Routine PngState Stop Unit := do
  let valid <- inspect PngState.valid
  leaveIf (valid = false) (.code code)

/-- What is done with a chunk whose checksum is right. -/
def handleChunk (library : Library) (limit : Nat) (chunkType : ChunkType) (dataBuf : Bytes) :
    Routine PngState Stop Unit :=
  match chunkType with
  | .other => leaveUnlessValid (-1)
  | .text => do
      handleTextChunk dataBuf
      leaveUnlessValid (-1)
  | .ztxt => do
      handleZtxtChunk library limit dataBuf
      leaveUnlessValid (-1)
  | .time => do
      leaveIf (dataBuf.length ≠ 7) (.code 1)
      handleTimeChunk dataBuf

/-- The body of the main loop. -/
def pngChunk (library : Library) (limit : Nat) (file : Bytes) : Routine PngState Stop Unit := do
  let lenBuf <- fread file 4
  leaveIf (lenBuf.length < 4) (.code 1)
  let typeBuf <- fread file 4
  leaveIf (typeBuf.length < 4) (.code 1)
  leaveUnlessValid 1
  addBytesRead 8
  leaveIf (bigEndian lenBuf > sizeSub file.length 20) (.code 1)
  let dataBuf <- freadData file (bigEndian lenBuf)
  leaveIf (dataBuf.length < bigEndian lenBuf) (.code 1)
  let chksumBuf <- fread file 4
  leaveIf (chksumBuf.length < 4) (.code 1)
  addBytesRead (bigEndian lenBuf + 4)
  leaveIf (passChecksum library typeBuf dataBuf chksumBuf = false) (.code (-1))
  handleChunk library limit (getType typeBuf) dataBuf

/-- The main loop, with a number of turns. -/
def pngLoop (library : Library) (limit : Nat) (file : Bytes) : Nat -> Routine PngState Stop Unit
  | 0 => leave .running
  | fuel + 1 => do
      let state <- inspect id
      if state.numBytesRead < file.length then do
        pngChunk library limit file
        pngLoop library limit file fuel
      else pure ()

def pngHeader : Bytes := [0x89, 0x50, 0x4E, 0x47, 0x0D, 0x0A, 0x1A, 0x0A]

/-- `analyze_png`; a return of 0 is the end of the routine. -/
def analyzePng (library : Library) (limit : Nat) (file : Bytes) : Routine PngState Stop Unit := do
  leaveIf (file.length < 8) (.code (-1))
  let buffer <- fread file 8
  leaveIf (buffer.length ≠ 8) (.code (-1))
  leaveIf (buffer ≠ pngHeader) (.code (-1))
  addBytesRead 8
  -- every turn reads twelve bytes at least
  pngLoop library limit file file.length

/-- The state in which `analyze_png` is called. -/
def PngState.opening (valid : Bool) : PngState where
  position := 0
  numBytesRead := 0
  valid := valid
  printed := []
  dataBufs := []

/-! ## What the handlers keep -/

variable (library : Library) (limit : Nat)

section

variable {Invariant : PngState -> Prop}

theorem keeps_inflate (source : Bytes) (reply : ZReply) :
    Keeps Invariant (inflate library source limit reply) := by
  induction limit generalizing reply with
  | zero => exact keeps_leave _
  | succ limit ih =>
    rw [inflate]
    cases reply.code with
    | ok | memError | dataError => exact keeps_pure _
    | bufError => exact Keeps.branch (keeps_pure _) (ih _)

theorem keeps_leaveUnlessValid (code : Int) : Keeps Invariant (leaveUnlessValid code) :=
  Keeps.bind (keeps_inspect _) (fun _ => keeps_leaveIf _ _)

variable (displays : ∀ output, Keeps Invariant (display output))
  (invalidates : Keeps Invariant invalidate)

include displays invalidates

theorem keeps_handleTextChunk (buffer : Bytes) : Keeps Invariant (handleTextChunk buffer) :=
  Keeps.branch invalidates (Keeps.branch (displays _) (displays _))

theorem keeps_handleZtxtChunk (buffer : Bytes) :
    Keeps Invariant (handleZtxtChunk library limit buffer) := by
  refine Keeps.branch invalidates (Keeps.branch invalidates (Keeps.branch invalidates
    (Keeps.branch (displays _) (Keeps.bind (keeps_inflate _ _ _ _) ?_))))
  intro value
  cases value with
  | none => exact invalidates
  | some value => exact displays _

/-- What text and flag leave alone is kept by the handlers of a chunk. -/
theorem keeps_handleChunk (chunkType : ChunkType) (dataBuf : Bytes) :
    Keeps Invariant (handleChunk library limit chunkType dataBuf) := by
  cases chunkType with
  | other => exact keeps_leaveUnlessValid _
  | text =>
    exact Keeps.bind (keeps_handleTextChunk displays invalidates _)
      (fun _ => keeps_leaveUnlessValid _)
  | ztxt =>
    exact Keeps.bind (keeps_handleZtxtChunk _ _ displays invalidates _)
      (fun _ => keeps_leaveUnlessValid _)
  | time => exact Keeps.bind (keeps_leaveIf _ _) (fun _ => displays _)

end

theorem keeps_dataBufs (chunkType : ChunkType) (dataBuf : Bytes) (buffers : List DataBuffer) :
    Keeps (fun state => state.dataBufs = buffers) (handleChunk library limit chunkType dataBuf) :=
  keeps_handleChunk _ _ (fun _ => keeps_change (fun _ => id)) (keeps_change (fun _ => id)) _ _

theorem leaveUnlessValid_bind {Value : Type} (code : Int)
    (next : Unit -> Routine PngState Stop Value) (state : PngState) :
    (leaveUnlessValid code >>= next) state =
      if state.valid = false then (.error (.code code), state) else next () state := by
  show (leaveIf (state.valid = false) (Stop.code code) >>= next) state = _
  rw [leaveIf_bind]

end ImageMetadata
end Codebank
