import Codebank.ImageMetadata.Png

namespace Codebank
namespace ImageMetadata

open Foundation Foundation.Routine PngState List

/-!
# The chunks of a PNG file

What one turn of the main loop does, said once: either a complete chunk stands at the
read position and the turn reads exactly that chunk, or the turn ends with a return of
1.  What an accepted chunk prints is a relation between its data and a text.  A whole
run reads accepted chunks up to the one that ends it, and has printed their texts.
-/

/-- A chunk as it stands in a file. -/
structure Chunk where
  lenBuf : Bytes
  typeBuf : Bytes
  dataBuf : Bytes
  chksumBuf : Bytes
  lenSize : lenBuf.length = 4
  typeSize : typeBuf.length = 4
  chksumSize : chksumBuf.length = 4
  sized : bigEndian lenBuf = dataBuf.length

namespace Chunk

variable (chunk : Chunk)

def bytes : Bytes :=
  chunk.lenBuf ++ (chunk.typeBuf ++ (chunk.dataBuf ++ chunk.chksumBuf))

theorem bytes_length : chunk.bytes.length = 12 + chunk.dataBuf.length := by
  rw [bytes, length_append, length_append, length_append, chunk.lenSize,
    chunk.typeSize, chunk.chksumSize]
  omega

def chunkType : ChunkType := getType chunk.typeBuf

def passes (library : Library) : Bool :=
  passChecksum library chunk.typeBuf chunk.dataBuf chunk.chksumBuf

end Chunk

/-- The state behind a chunk. -/
def PngState.past (state : PngState) (chunk : Chunk) : PngState :=
  { state with
    position := state.position + chunk.bytes.length
    numBytesRead := state.numBytesRead + chunk.bytes.length
    dataBufs := state.dataBufs ++ [⟨chunk.dataBuf.length, chunk.dataBuf.length⟩] }

/-- The state after a text was printed. -/
def PngState.shows (state : PngState) (output : Bytes) : PngState :=
  { state with printed := state.printed ++ output }

/-! ## One turn -/

section

variable {library : Library} {limit : Nat} {file : Bytes} {state : PngState}

/-- A chunk that stands at the read position is read as a whole. -/
theorem pngChunk_at {chunk : Chunk} {rest : Bytes} (valid : state.valid = true)
    (ahead : file.drop state.position = chunk.bytes ++ rest)
    (small : chunk.dataBuf.length <= sizeSub file.length 20) :
    pngChunk library limit file state =
      if chunk.passes library = false then (.error (.code (-1)), state.past chunk)
      else handleChunk library limit chunk.chunkType chunk.dataBuf (state.past chunk) := by
  rw [Chunk.bytes, append_assoc, append_assoc, append_assoc] at ahead
  have aheadType := drop_ahead ahead chunk.lenSize
  have aheadData := drop_ahead aheadType chunk.typeSize
  have aheadSum := drop_ahead aheadData rfl
  have past : PngState.mk (state.position + 4 + 4 + chunk.dataBuf.length + 4)
      (state.numBytesRead + 8 + (chunk.dataBuf.length + 4)) state.valid state.printed
      (state.dataBufs ++ [⟨chunk.dataBuf.length, chunk.dataBuf.length⟩]) = state.past chunk := by
    rw [PngState.past, chunk.bytes_length]
    congr 1 <;> omega
  rw [pngChunk, fread_bind, readAt_ahead ahead chunk.lenSize, chunk.lenSize,
    leaveIf_skip (by omega), fread_bind, readAt_ahead aheadType chunk.typeSize, chunk.typeSize,
    leaveIf_skip (by omega), leaveUnlessValid_bind, if_neg (by rw [valid]; exact Bool.noConfusion),
    addBytesRead_bind, chunk.sized, leaveIf_skip (by omega), freadData_bind,
    readAt_ahead aheadData rfl, leaveIf_skip (by omega), fread_bind,
    readAt_ahead aheadSum chunk.chksumSize, chunk.chksumSize, leaveIf_skip (by omega),
    addBytesRead_bind, leaveIf_bind, past]
  rfl

theorem readAt_full {file : Bytes} {position count : Nat}
    (enough : ¬ (readAt file position count).length < count) :
    (readAt file position count).length = count :=
  Nat.le_antisymm (readAt_length_le file position count) (Nat.le_of_not_lt enough)

/-- Where no complete chunk stands, the turn ends with a return of 1. -/
theorem pngChunk_cases (library : Library) (limit : Nat) (file : Bytes) (state : PngState) :
    (∃ chunk rest, file.drop state.position = Chunk.bytes chunk ++ rest ∧
      chunk.dataBuf.length <= sizeSub file.length 20 ∧ state.valid = true) ∨
    Ends (pngChunk library limit file state) (fun _ _ => False)
      (fun stop after => stop = .code 1 ∧ after.printed = state.printed) := by
  by_cases complete : ∃ chunk rest, file.drop state.position = Chunk.bytes chunk ++ rest ∧
      chunk.dataBuf.length <= sizeSub file.length 20 ∧ state.valid = true
  · exact .inl complete
  refine .inr ?_
  rw [pngChunk, fread_bind]
  refine Ends.leaveIf (fun _ => ⟨rfl, rfl⟩) (fun lenRead => ?_)
  rw [fread_bind, readAt_full lenRead]
  refine Ends.leaveIf (fun _ => ⟨rfl, rfl⟩) (fun typeRead => ?_)
  rw [leaveUnlessValid_bind]
  split
  · exact ends_error ⟨rfl, rfl⟩
  next stillValid =>
    rw [addBytesRead_bind]
    refine Ends.leaveIf (fun _ => ⟨rfl, rfl⟩) (fun fits => ?_)
    rw [freadData_bind, readAt_full typeRead]
    refine Ends.leaveIf (fun _ => ⟨rfl, rfl⟩) (fun dataRead => ?_)
    rw [fread_bind, readAt_full dataRead]
    refine Ends.leaveIf (fun _ => ⟨rfl, rfl⟩) (fun sumRead => ?_)
    -- all four reads were complete, so a chunk does stand there
    refine absurd ⟨⟨_, _, _, _, readAt_full lenRead, readAt_full typeRead, readAt_full sumRead,
      (readAt_full dataRead).symm⟩,
      file.drop (state.position + 4 + 4 + bigEndian (readAt file state.position 4) + 4),
      ?_, ?_, ?_⟩ complete
    · simp only [Chunk.bytes, append_assoc]
      rw [<- drop_readAt, <- drop_readAt, <- drop_readAt, <- drop_readAt]
    · show (readAt file _ _).length <= _
      rw [readAt_full dataRead]
      exact Nat.le_of_not_lt fits
    · exact eq_true_of_ne_false stillValid

end

/-! ## What a chunk prints -/

/-- A buffer without a zero byte, or a key with what stands behind the first one. -/
theorem chunkKey_cases (buffer : Bytes) :
    (chunkKey buffer).length = buffer.length ∨
      ∃ rest, buffer = chunkKey buffer ++ 0 :: rest ∧ 0 ∉ chunkKey buffer := by
  have split : chunkKey buffer ++ buffer.dropWhile (fun byte => byte != 0) = buffer :=
    takeWhile_append_dropWhile
  have free : 0 ∉ chunkKey buffer := by
    intro member
    have nonzero := mem_takeWhile_imp member
    exact absurd nonzero (by decide)
  cases behind : buffer.dropWhile (fun byte : UInt8 => byte != 0) with
  | nil =>
    rw [behind, append_nil] at split
    exact .inl (congrArg List.length split)
  | cons first rest =>
    have stopped := head?_dropWhile_not (fun byte : UInt8 => byte != 0) buffer
    rw [behind] at split stopped
    have zero : first = 0 := by simpa using stopped
    exact .inr ⟨rest, by rw [<- zero]; exact split.symm, free⟩

theorem chunkKey_append {key rest : Bytes} (free : 0 ∉ key) : chunkKey (key ++ 0 :: rest) = key :=
  takeWhile_stop free rest

/-- What an accepted chunk of a type prints for its data. -/
inductive Shown (library : Library) (limit : Nat) : ChunkType -> Bytes -> Bytes -> Prop where
  | other (data : Bytes) : Shown library limit .other data []
  | emptyText {key : Bytes} : 0 ∉ key ->
      Shown library limit .text (key ++ [0]) (key ++ text ":")
  | text {key value : Bytes} : 0 ∉ key -> value ≠ [] ->
      Shown library limit .text (key ++ 0 :: value) (key ++ text ": " ++ cString value ++ text "\n")
  | emptyZtxt {key : Bytes} : 0 ∉ key ->
      Shown library limit .ztxt (key ++ [0, 0]) (key ++ text ":")
  | ztxt {key source value : Bytes} : 0 ∉ key -> source ≠ [] ->
      inflate library source limit
        (library.uncompress source (2 * (key ++ 0 :: 0 :: source).length)) = pure (some value) ->
      Shown library limit .ztxt (key ++ 0 :: 0 :: source)
        (key ++ text ": " ++ cString value ++ text "\n")
  | time {data : Bytes} : data.length = 7 ->
      Shown library limit .time data (timestamp data ++ text "\n")

variable {library : Library} {limit : Nat}

/-- Only chunks of other types print nothing. -/
theorem Shown.eq_nil_iff {chunkType : ChunkType} {data output : Bytes}
    (shown : Shown library limit chunkType data output) : output = [] <-> chunkType = .other := by
  cases shown with
  | other data => exact ⟨fun _ => rfl, fun _ => rfl⟩
  | emptyText _ | text _ _ | emptyZtxt _ | ztxt _ _ _ | time _ => simp [Foundation.text]

section

variable {library : Library} {limit : Nat} {state : PngState}

theorem inflate_cases (library : Library) (source : Bytes) (limit : Nat) (reply : ZReply) :
    inflate library source limit reply = leave .running ∨
      ∃ value, inflate library source limit reply = pure value := by
  induction limit generalizing reply with
  | zero => exact .inl rfl
  | succ limit ih =>
    rw [inflate]
    cases reply.code with
    | ok | memError | dataError => exact .inr ⟨_, rfl⟩
    | bufError =>
      by_cases refused : library.realloc (sizeAdd reply.destLen reply.destLen) = false
      · exact .inr ⟨none, if_pos refused⟩
      · simp only [if_neg refused]
        exact ih _

section

variable {key rest : Bytes} (free : 0 ∉ key)

theorem keyed_length (key rest : Bytes) :
    (key ++ 0 :: rest).length = key.length + 1 + rest.length := by
  rw [length_append, length_cons]
  omega

theorem drop_keyed (key rest : Bytes) (count : Nat) :
    (key ++ 0 :: rest).drop (key.length + 1 + count) = rest.drop count := by
  rw [Nat.add_assoc, drop_length_add_append, Nat.add_comm 1 count, drop_succ_cons]

theorem byteAt_keyed (key rest : Bytes) (method : UInt8) :
    byteAt (key ++ 0 :: method :: rest) (key.length + 1) = method := by
  rw [byteAt, getD_eq_getElem?_getD, getElem?_append_right (Nat.le_add_right _ 1),
    Nat.add_sub_cancel_left]
  rfl

include free

theorem handleTextChunk_empty : handleTextChunk (key ++ [0]) = display (key ++ text ":") := by
  rw [handleTextChunk, chunkKey_append free, keyed_length, if_neg (by omega),
    length_nil, if_pos rfl]

theorem handleTextChunk_value (nonempty : rest ≠ []) : handleTextChunk (key ++ 0 :: rest) =
    display (key ++ text ": " ++ cString rest ++ text "\n") := by
  have positive := length_pos_iff.mpr nonempty
  rw [handleTextChunk, chunkKey_append free, keyed_length, if_neg (by omega), if_neg (by omega),
    <- Nat.add_zero (key.length + 1), drop_keyed, drop_zero]

theorem handleZtxtChunk_method {method : UInt8} (other : method ≠ 0) :
    handleZtxtChunk library limit (key ++ 0 :: method :: rest) = invalidate := by
  rw [handleZtxtChunk, chunkKey_append free, keyed_length, if_neg (by omega), length_cons,
    if_neg (by omega), byteAt_keyed, if_pos other]

theorem handleZtxtChunk_empty :
    handleZtxtChunk library limit (key ++ [0, 0]) = display (key ++ text ":") := by
  rw [handleZtxtChunk, chunkKey_append free, keyed_length, if_neg (by omega), length_cons,
    if_neg (by omega), byteAt_keyed, if_neg (fun other => other rfl),
    if_pos (by rw [length_nil])]

theorem handleZtxtChunk_source (nonempty : rest ≠ []) :
    handleZtxtChunk library limit (key ++ 0 :: 0 :: rest) =
      inflate library rest limit
        (library.uncompress rest (2 * (key ++ 0 :: 0 :: rest).length)) >>= fun value =>
          value.elim invalidate (fun value =>
            display (key ++ text ": " ++ cString value ++ text "\n")) := by
  have positive := length_pos_iff.mpr nonempty
  have source : (key ++ 0 :: 0 :: rest).drop (key.length + 2) = rest := drop_keyed key (0 :: rest) 1
  rw [handleZtxtChunk, chunkKey_append free, keyed_length, if_neg (by omega), length_cons,
    if_neg (by omega), byteAt_keyed, if_neg (fun other => other rfl), if_neg (by omega),
    source]
  refine congrArg (inflate library rest limit _ >>= ·) (funext fun value => ?_)
  cases value with
  | none => rfl
  | some value => rfl

end

/-- The handler of an accepted chunk prints its text and goes on. -/
theorem handleChunk_shown {chunkType : ChunkType} {data output : Bytes}
    (shown : Shown library limit chunkType data output) (valid : state.valid = true) :
    handleChunk library limit chunkType data state = (.ok (), state.shows output) := by
  have goesOn : ∀ output, leaveUnlessValid (-1) (state.shows output) =
      (.ok (), state.shows output) := by
    intro output
    show leaveIf (state.valid = false) (Stop.code (-1)) (state.shows output) = _
    rw [valid]
    rfl
  cases shown with
  | other data =>
    have same : state.shows [] = state := by
      rw [PngState.shows, append_nil]
    rw [same]
    exact same ▸ goesOn []
  | emptyText free =>
    rw [handleChunk, bind_apply, handleTextChunk_empty free]
    exact goesOn _
  | text free nonempty =>
    rw [handleChunk, bind_apply, handleTextChunk_value free nonempty]
    exact goesOn _
  | emptyZtxt free =>
    rw [handleChunk, bind_apply, handleZtxtChunk_empty free]
    exact goesOn _
  | ztxt free nonempty inflated =>
    rw [handleChunk, bind_apply, handleZtxtChunk_source free nonempty, inflated]
    exact goesOn _
  | time size =>
    rw [handleChunk, leaveIf_skip (fun other => other size), handleTimeChunk]
    rfl

/-- A handler prints the text of its chunk, or nothing and returns. -/
theorem handleChunk_cases (library : Library) (limit : Nat) (chunkType : ChunkType) (data : Bytes)
    (state : PngState) :
    (∃ output, Shown library limit chunkType data output) ∨
      Ends (handleChunk library limit chunkType data state) (fun _ _ => False)
        (fun _ after => after.printed = state.printed) := by
  have rejected : Ends (andThen (invalidate state) (fun _ => leaveUnlessValid (-1)))
      (fun _ _ => False) (fun _ after => after.printed = state.printed) := rfl
  cases chunkType with
  | other => exact .inl ⟨[], .other data⟩
  | text =>
    rcases chunkKey_cases data with whole | ⟨rest, split, free⟩
    · refine .inr ?_
      rw [handleChunk, bind_apply, handleTextChunk, if_pos whole]
      exact rejected
    · rw [split]
      by_cases empty : rest = []
      · rw [empty]
        exact .inl ⟨_, .emptyText free⟩
      · exact .inl ⟨_, .text free empty⟩
  | ztxt =>
    rcases chunkKey_cases data with whole | ⟨rest, split, free⟩
    · refine .inr ?_
      rw [handleChunk, bind_apply, handleZtxtChunk, if_pos whole]
      exact rejected
    · cases rest with
      | nil =>
        refine .inr ?_
        have one : (chunkKey data).length + 1 = data.length := by
          conv_rhs => rw [split]
          exact (keyed_length _ []).symm
        rw [handleChunk, bind_apply, handleZtxtChunk, if_neg (by omega), if_pos one]
        exact rejected
      | cons method source =>
        rw [split]
        generalize chunkKey data = key at free
        by_cases zero : method = 0
        · subst zero
          by_cases empty : source = []
          · rw [empty]
            exact .inl ⟨_, .emptyZtxt free⟩
          · rcases inflate_cases library source limit (library.uncompress source
              (2 * (key ++ 0 :: 0 :: source).length)) with running | ⟨_ | value, inflated⟩
            · refine .inr ?_
              rw [handleChunk, bind_apply, handleZtxtChunk_source free empty, running]
              exact rfl
            · refine .inr ?_
              rw [handleChunk, bind_apply, handleZtxtChunk_source free empty, inflated]
              exact rejected
            · exact .inl ⟨_, .ztxt free empty inflated⟩
        · refine .inr ?_
          rw [handleChunk, bind_apply, handleZtxtChunk_method free zero]
          exact rejected
  | time =>
    by_cases size : data.length = 7
    · exact .inl ⟨_, .time size⟩
    · refine .inr ?_
      rw [handleChunk]
      exact Ends.leaveIf (fun _ => rfl) (fun passed => absurd size passed)

end

/-! ## Whole runs -/

/-- Accepted chunks and all they print, in a file of a given size. -/
inductive Printed (library : Library) (limit size : Nat) : List Chunk -> Bytes -> Prop where
  | nil : Printed library limit size [] []
  | cons {chunk : Chunk} {chunks : List Chunk} {output later : Bytes} :
      chunk.dataBuf.length <= sizeSub size 20 -> chunk.passes library = true ->
      Shown library limit chunk.chunkType chunk.dataBuf output ->
      Printed library limit size chunks later ->
      Printed library limit size (chunk :: chunks) (output ++ later)

/-- The bytes of chunks that follow one another. -/
def chunkBytes (chunks : List Chunk) : Bytes :=
  chunks.flatMap Chunk.bytes

theorem chunkBytes_cons (chunk : Chunk) (chunks : List Chunk) :
    chunkBytes (chunk :: chunks) = chunk.bytes ++ chunkBytes chunks :=
  flatMap_cons

theorem chunkBytes_length_ge (chunks : List Chunk) :
    chunks.length <= (chunkBytes chunks).length := by
  induction chunks with
  | nil => exact Nat.le_refl 0
  | cons chunk chunks ih =>
    rw [chunkBytes_cons, length_cons, length_append, chunk.bytes_length]
    omega

theorem Printed.eq_nil_iff {size : Nat} {chunks : List Chunk} {output : Bytes}
    (printed : Printed library limit size chunks output) :
    output = [] <-> ∀ chunk, chunk ∈ chunks -> Chunk.chunkType chunk = .other := by
  induction printed with
  | nil => exact ⟨fun _ _ member => absurd member not_mem_nil, fun _ => rfl⟩
  | cons _ _ shown _ ih => rw [append_eq_nil_iff, forall_mem_cons, shown.eq_nil_iff, ih]

section

variable {library : Library} {limit : Nat} {file : Bytes}

/-- What the main loop needs from turn to turn. -/
structure BetweenChunks (file : Bytes) (state : PngState) : Prop where
  counted : state.numBytesRead = state.position
  inside : state.position <= file.length
  valid : state.valid = true

variable {state : PngState} {rest : Bytes} {chunk : Chunk}

theorem BetweenChunks.past (place : BetweenChunks file state)
    (ahead : file.drop state.position = chunk.bytes ++ rest) (output : Bytes) :
    BetweenChunks file ((state.past chunk).shows output) ∧
      file.drop ((state.past chunk).shows output).position = rest ∧
      state.numBytesRead < file.length := by
  have size := congrArg List.length ahead
  rw [length_drop, length_append, chunk.bytes_length] at size
  have counted := place.counted
  refine ⟨⟨?_, ?_, place.valid⟩, drop_ahead ahead rfl, by omega⟩
  · show state.numBytesRead + _ = state.position + _
    rw [counted]
  · show state.position + chunk.bytes.length <= file.length
    rw [chunk.bytes_length]
    omega

/-- The turn over an accepted chunk. -/
theorem pngChunk_shown {output : Bytes} (valid : state.valid = true)
    (ahead : file.drop state.position = chunk.bytes ++ rest)
    (small : chunk.dataBuf.length <= sizeSub file.length 20) (passes : chunk.passes library = true)
    (shown : Shown library limit chunk.chunkType chunk.dataBuf output) :
    pngChunk library limit file state = (.ok (), (state.past chunk).shows output) := by
  rw [pngChunk_at valid ahead small, passes, if_neg Bool.noConfusion]
  exact handleChunk_shown shown valid

/-- A turn reads an accepted chunk, or ends the run and prints nothing. -/
theorem pngChunk_turn (library : Library) (limit : Nat) (file : Bytes) (state : PngState) :
    (∃ chunk rest output, file.drop state.position = Chunk.bytes chunk ++ rest ∧
      chunk.dataBuf.length <= sizeSub file.length 20 ∧ chunk.passes library = true ∧
      Shown library limit chunk.chunkType chunk.dataBuf output ∧ state.valid = true) ∨
    Ends (pngChunk library limit file state) (fun _ _ => False)
      (fun _ after => after.printed = state.printed) := by
  rcases pngChunk_cases library limit file state with ⟨chunk, rest, ahead, small, valid⟩ | ends
  · rw [pngChunk_at valid ahead small]
    cases passes : chunk.passes library with
    | false => exact .inr rfl
    | true =>
      rw [if_neg Bool.noConfusion]
      rcases handleChunk_cases library limit chunk.chunkType chunk.dataBuf (state.past chunk) with
        ⟨output, shown⟩ | ends
      · exact .inl ⟨chunk, rest, output, ahead, small, passes, shown, valid⟩
      · exact .inr ends
  · exact .inr (ends.mono (fun _ _ => id) (fun _ _ => And.right))

/-- The loop reads accepted chunks one by one. -/
theorem pngLoop_printed {chunks : List Chunk} {output : Bytes}
    (printed : Printed library limit file.length chunks output) (place : BetweenChunks file state)
    (ahead : file.drop state.position = chunkBytes chunks ++ rest) (fuel : Nat) :
    ∃ after, BetweenChunks file after ∧ file.drop after.position = rest ∧
      after.printed = state.printed ++ output ∧
      pngLoop library limit file (chunks.length + fuel) state =
        pngLoop library limit file fuel after := by
  induction printed generalizing state with
  | nil =>
    refine ⟨state, place, ahead, (append_nil _).symm, ?_⟩
    rw [length_nil, Nat.zero_add]
  | @cons chunk chunks output later small passes shown _ ih =>
    rw [chunkBytes_cons, append_assoc] at ahead
    rcases place.past ahead output with ⟨next, behind, inside⟩
    rcases ih next behind with ⟨after, last, remaining, shownAll, same⟩
    refine ⟨after, last, remaining, ?_, ?_⟩
    · rw [shownAll, <- append_assoc]
      rfl
    · rw [length_cons, Nat.add_right_comm, pngLoop, inspect_bind, branch_apply, id_eq,
        if_pos inside, bind_apply, pngChunk_shown place.valid ahead small passes shown]
      exact same

/-- Whatever the loop has printed is what the accepted chunks at the read position print. -/
theorem pngLoop_prints (library : Library) (limit fuel : Nat) (place : BetweenChunks file state) :
    ∃ chunks output rest, Printed library limit file.length chunks output ∧
      file.drop state.position = chunkBytes chunks ++ rest ∧
      (pngLoop library limit file fuel state).2.printed = state.printed ++ output := by
  have nothing : ∀ {start final : PngState}, final.printed = start.printed ->
      ∃ chunks output rest, Printed library limit file.length chunks output ∧
        file.drop start.position = chunkBytes chunks ++ rest ∧
        final.printed = start.printed ++ output :=
    fun same => ⟨[], [], _, .nil, rfl, same.trans (append_nil _).symm⟩
  induction fuel generalizing state with
  | zero => exact nothing rfl
  | succ fuel ih =>
    rw [pngLoop, inspect_bind, branch_apply, id_eq]
    by_cases inside : state.numBytesRead < file.length
    · rw [if_pos inside, bind_apply]
      rcases pngChunk_turn library limit file state with
        ⟨chunk, rest, output, ahead, small, passes, shown, _⟩ | ends
      · rw [pngChunk_shown place.valid ahead small passes shown]
        rcases place.past ahead output with ⟨next, behind, _⟩
        rcases ih next with ⟨chunks, later, final, printed, following, same⟩
        refine ⟨chunk :: chunks, output ++ later, final, .cons small passes shown printed, ?_, ?_⟩
        · rw [ahead, chunkBytes_cons, append_assoc, <- following, behind]
        · rw [<- append_assoc]
          exact same
      · rcases turn : pngChunk library limit file state with ⟨stop | _, after⟩
        · rw [turn] at ends
          exact nothing ends
        · rw [turn] at ends
          exact ends.elim
    · rw [if_neg inside]
      exact nothing rfl

end

/-- The state in which the main loop begins. -/
def PngState.behindHeader (valid : Bool) : PngState where
  position := 8
  numBytesRead := 8
  valid := valid
  printed := []
  dataBufs := []

/-- A file with the signature goes to the main loop, any other is rejected. -/
theorem analyzePng_header (library : Library) (limit : Nat) (file : Bytes) (valid : Bool) :
    (∃ rest, file = pngHeader ++ rest ∧
      analyzePng library limit file (.opening valid) =
        pngLoop library limit file file.length (.behindHeader valid)) ∨
    (∀ rest, file ≠ pngHeader ++ rest) ∧
      ∃ after, after.printed = [] ∧ after.dataBufs = [] ∧
        analyzePng library limit file (.opening valid) = (.error (.code (-1)), after) := by
  by_cases signed : ∃ rest, file = pngHeader ++ rest
  · rcases signed with ⟨rest, signed⟩
    refine .inl ⟨rest, signed, ?_⟩
    have header : readAt file (PngState.opening valid).position 8 = pngHeader :=
      readAt_ahead (show file.drop 0 = pngHeader ++ rest from signed) rfl
    have long : 8 <= file.length := by
      rw [signed, length_append]
      exact Nat.le_add_right 8 _
    rw [analyzePng, leaveIf_skip (by omega), fread_bind, header,
      leaveIf_skip (fun other => other rfl), leaveIf_skip (fun other => other rfl),
      addBytesRead_bind]
    rfl
  · refine .inr ⟨fun rest same => signed ⟨rest, same⟩, ?_⟩
    have ends : Ends (analyzePng library limit file (.opening valid)) (fun _ _ => False)
        (fun stop after => stop = .code (-1) ∧ after.printed = [] ∧ after.dataBufs = []) := by
      rw [analyzePng]
      refine Ends.leaveIf (fun _ => ⟨rfl, rfl, rfl⟩) (fun _ => ?_)
      rw [fread_bind]
      refine Ends.leaveIf (fun _ => ⟨rfl, rfl, rfl⟩) (fun _ => ?_)
      refine Ends.leaveIf (fun _ => ⟨rfl, rfl, rfl⟩) (fun same => ?_)
      refine absurd ⟨file.drop 8, ?_⟩ signed
      rw [<- Decidable.not_not.mp same]
      exact drop_readAt file 0 8
    rcases run : analyzePng library limit file (.opening valid) with ⟨stop | _, after⟩
    · rw [run] at ends
      exact ⟨after, ends.2.1, ends.2.2, by rw [ends.1]⟩
    · rw [run] at ends
      exact ends.elim

/-! ## Data buffers -/

/-- The data buffer of one turn: there is one when the header of a chunk is complete, `valid`
is set and the length passes the check. -/
def turnBuffers (file : Bytes) (state : PngState) : List DataBuffer :=
  let length := bigEndian (readAt file state.position 4)
  if state.position + 8 <= file.length ∧ state.valid = true ∧ length <= sizeSub file.length 20 then
    [⟨length, (readAt file (state.position + 8) length).length⟩]
  else []

/-- A turn allocates its data buffer, and without one the run ends. -/
theorem pngChunk_buffers (library : Library) (limit : Nat) (file : Bytes) (state : PngState) :
    Ends (pngChunk library limit file state)
      (fun _ after => after.dataBufs = state.dataBufs ++ turnBuffers file state ∧
        turnBuffers file state ≠ [])
      (fun _ after => after.dataBufs = state.dataBufs ++ turnBuffers file state) := by
  have nothing (missing : ¬ (state.position + 8 <= file.length ∧ state.valid = true ∧
      bigEndian (readAt file state.position 4) <= sizeSub file.length 20)) :
      state.dataBufs = state.dataBufs ++ turnBuffers file state := by
    rw [turnBuffers, if_neg missing, append_nil]
  rw [pngChunk, fread_bind]
  refine Ends.leaveIf (fun short => nothing (fun ⟨long, _⟩ => ?_)) (fun lenRead => ?_)
  · rw [readAt_length] at short
    omega
  rw [fread_bind, readAt_full lenRead]
  refine Ends.leaveIf (fun short => nothing (fun ⟨long, _⟩ => ?_)) (fun typeRead => ?_)
  · rw [readAt_length] at short
    dsimp only at short
    omega
  rw [leaveUnlessValid_bind]
  split
  next invalid =>
    exact ends_error (nothing (fun ⟨_, valid, _⟩ => Bool.noConfusion (invalid.symm.trans valid)))
  next stillValid =>
    rw [addBytesRead_bind]
    refine Ends.leaveIf (fun large => nothing
      (fun ⟨_, _, fits⟩ => absurd fits (Nat.not_le.mpr large)))
      (fun fits => ?_)
    rw [freadData_bind, readAt_full typeRead]
    have long : state.position + 8 <= file.length := by
      have size := readAt_full typeRead
      rw [readAt_length] at size
      dsimp only at size
      omega
    have one : turnBuffers file state = [⟨bigEndian (readAt file state.position 4),
        (readAt file (state.position + 8) (bigEndian (readAt file state.position 4))).length⟩] :=
      if_pos ⟨long, eq_true_of_ne_false stillValid, Nat.le_of_not_lt fits⟩
    rw [one]
    refine Ends.leaveIf (fun _ => rfl) (fun _ => ?_)
    rw [fread_bind]
    refine Ends.leaveIf (fun _ => rfl) (fun _ => ?_)
    rw [addBytesRead_bind]
    refine Ends.leaveIf (fun _ => rfl) (fun _ => ?_)
    exact (keeps_dataBufs library limit _ _ _ _ rfl).mono
      (fun _ _ same => ⟨same, cons_ne_nil _ _⟩) (fun _ _ => id)

theorem turnBuffers_fit {file : Bytes} {state : PngState} {buffer : DataBuffer}
    (member : buffer ∈ turnBuffers file state) : buffer.allocated <= sizeSub file.length 20 := by
  rw [turnBuffers] at member
  split at member
  next passed =>
    rw [mem_singleton.mp member]
    exact passed.2.2
  next => exact absurd member not_mem_nil

/-- The data buffers of the main loop pass the check; there are none when the first turn has
none, and the first turn's is among them. -/
theorem pngLoop_buffers (library : Library) (limit : Nat) (file : Bytes) (fuel : Nat)
    (state : PngState) :
    ∃ later, (pngLoop library limit file fuel state).2.dataBufs = state.dataBufs ++ later ∧
      (∀ buffer, buffer ∈ later -> DataBuffer.allocated buffer <= sizeSub file.length 20) ∧
      (turnBuffers file state = [] -> later = []) ∧
      (0 < fuel -> state.numBytesRead < file.length -> turnBuffers file state ⊆ later) := by
  induction fuel generalizing state with
  | zero =>
    exact ⟨[], (append_nil _).symm, fun _ member => absurd member not_mem_nil,
      fun _ => rfl, fun positive => absurd positive (Nat.lt_irrefl 0)⟩
  | succ fuel ih =>
    rw [pngLoop, inspect_bind, branch_apply, id_eq]
    by_cases inside : state.numBytesRead < file.length
    · rw [if_pos inside, bind_apply]
      have buffers := pngChunk_buffers library limit file state
      rcases turn : pngChunk library limit file state with ⟨stop | _, after⟩
      · rw [turn] at buffers
        exact ⟨_, buffers, fun _ => turnBuffers_fit, id, fun _ _ => List.Subset.refl _⟩
      · rw [turn] at buffers
        rcases buffers with ⟨same, some⟩
        rcases ih after with ⟨later, more, fit, _, _⟩
        refine ⟨turnBuffers file state ++ later, ?_, ?_, fun none => absurd none some,
          fun _ _ => subset_append_left _ _⟩
        · rw [<- append_assoc, <- same]
          exact more
        · intro buffer member
          rcases mem_append.mp member with here | there
          · exact turnBuffers_fit here
          · exact fit buffer there
    · rw [if_neg inside]
      exact ⟨[], (append_nil _).symm, fun _ member => absurd member not_mem_nil,
        fun _ => rfl, fun _ => (absurd · inside)⟩

theorem sizeSub_le {first second : Nat} (less : second <= first) :
    sizeSub first second <= first - second := by
  rw [sizeSub, Nat.sub_add_comm less, Nat.add_mod_right]
  exact Nat.mod_le _ _

theorem bigEndian_le_wrapped {bytes : Bytes} {size : Nat} (short : bytes.length <= 4)
    (large : 16 <= size) (small : size < 20) : bigEndian bytes <= sizeSub size 20 := by
  have range : sizeRange = 18446744073709551616 := by rw [sizeRange]
  have digits : bigEndian bytes < 256 ^ 4 :=
    Nat.lt_of_lt_of_le (bigEndian_lt bytes) (Nat.pow_le_pow_right (by decide) short)
  rw [sizeSub, Nat.mod_eq_of_lt (by omega)]
  omega

/-- Every data buffer is at most as large as the file without its smallest frame, unless the
file has the signature and 16 to 19 bytes and `valid` is set. -/
theorem data_buffers_fit_iff (library : Library) (limit : Nat) (file : Bytes) (valid : Bool) :
    (∀ buffer, buffer ∈ (analyzePng library limit file (.opening valid)).2.dataBufs ->
      20 <= file.length ∧ buffer.allocated <= file.length - 20) <->
      ¬ (16 <= file.length ∧ file.length < 20 ∧ pngHeader <+: file ∧ valid = true) := by
  rcases analyzePng_header library limit file valid with
    ⟨rest, signed, looped⟩ | ⟨unsigned, after, _, none, run⟩
  · rw [looped]
    rcases pngLoop_buffers library limit file file.length (.behindHeader valid) with
      ⟨later, same, fit, empty, first⟩
    rw [same]
    show (∀ buffer, buffer ∈ later -> _) <-> _
    constructor
    · rintro fits ⟨large, small, _, set⟩
      have turn : turnBuffers file (.behindHeader valid) = [⟨_, _⟩] :=
        if_pos ⟨large, set, bigEndian_le_wrapped (readAt_length_le _ _ _) large small⟩
      have allocated := first (by omega) (show 8 < file.length by omega)
      rw [turn] at allocated
      exact absurd (fits _ (allocated mem_cons_self)).1 (Nat.not_le.mpr small)
    · intro outside buffer member
      by_cases large : 20 <= file.length
      · exact ⟨large, Nat.le_trans (fit buffer member) (sizeSub_le large)⟩
      · have nothing : turnBuffers file (.behindHeader valid) = [] :=
          if_neg (fun ⟨long, one, _⟩ => outside ⟨long, by omega, ⟨rest, signed.symm⟩, one⟩)
        rw [empty nothing] at member
        exact absurd member not_mem_nil
  · rw [run]
    refine ⟨fun _ ⟨_, _, ⟨rest, signed⟩, _⟩ => unsigned rest signed.symm, fun _ buffer member => ?_⟩
    rw [none] at member
    exact absurd member not_mem_nil

/-- A library with the checksum of zlib, for runs on given files. -/
def plainLibrary : Library where
  crc32 := crc32
  uncompress := fun _ size => ⟨.dataError, size, []⟩
  realloc := fun _ => true

/-- The subtraction wraps for files of 16 to 19 bytes: a buffer of 4 GiB is allocated for a
file of 16 bytes, and in a file of 19 bytes one of three bytes is allocated and filled. -/
theorem data_buffer_of_wrapped_size :
    (analyzePng plainLibrary 0 (pngHeader ++ [0xFF, 0xFF, 0xFF, 0xFF, 0x49, 0x44, 0x41, 0x54])
        (.opening true)).2.dataBufs = [⟨4294967295, 0⟩] ∧
      (analyzePng plainLibrary 0
        (pngHeader ++ [0x00, 0x00, 0x00, 0x03, 0x49, 0x44, 0x41, 0x54, 0x01, 0x02, 0x03])
        (.opening true)).2.dataBufs = [⟨3, 3⟩] := by
  decide +kernel

end ImageMetadata
end Codebank
