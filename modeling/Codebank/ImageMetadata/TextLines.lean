import Codebank.ImageMetadata.PngOutput

namespace Codebank
namespace ImageMetadata

open Foundation Foundation.Routine PngState List

/-!
# One line for each text and time chunk

A well-formed file is the signature and a list of chunks whose checksums are right and
whose data have the form of their type.
The output is one line for each text and time chunk exactly when every text chunk is
plain: a value is stored in it, and neither a newline nor a zero byte cuts the line.
Chunks so long that the 32-bit length given to `crc32` wraps have to pass their check.
-/

/-! ## Decompression -/

/-- zlib decompresses as specified: `inflated` is the text of valid compressed data, and
memory never runs out. -/
structure Zlib (library : Library) (inflated : Bytes -> Option Bytes) : Prop where
  allocates : ∀ size, library.realloc size = true
  /-- the text is written if it fits the buffer -/
  fits : ∀ source value size, inflated source = some value -> value.length <= size ->
    library.uncompress source size =
      ⟨.ok, value.length, (library.uncompress source size).dest⟩ ∧
      (library.uncompress source size).dest.take value.length = value
  /-- a buffer that is too small is filled -/
  short : ∀ source value size, inflated source = some value -> size < value.length ->
    library.uncompress source size = ⟨.bufError, size, (library.uncompress source size).dest⟩
  /-- the format expands by at most 1032 to 1 -/
  ratio : ∀ source value, inflated source = some value ->
    value.length <= 1032 * source.length

variable {inflated : Bytes -> Option Bytes} {library : Library}

/-- The loop that doubles the buffer ends with the whole text. -/
theorem inflate_eq (zlib : Zlib library inflated) {source value : Bytes}
    (valid : inflated source = some value) (short : source.length < 4294967296) {limit size : Nat}
    (positive : 0 < size) (enough : value.length - size < limit) :
    inflate library source limit (library.uncompress source size) = pure (some value) := by
  induction limit generalizing size with
  | zero => exact absurd enough (Nat.not_lt_zero _)
  | succ limit ih =>
    rcases Nat.lt_or_ge size value.length with small | large
    · have ratio := zlib.ratio source value valid
      have range : 2064 * 4294967296 < sizeRange := by decide +kernel
      rw [zlib.short source value size valid small, inflate]
      simp only [sizeAdd_of_lt (show size + size < sizeRange by omega), zlib.allocates]
      exact ih (by omega) (by omega)
    · have done := zlib.fits source value size valid large
      rw [done.1, inflate]
      simp only [done.2]

/-! ## Well-formed chunks -/

namespace Chunk

variable (inflated : Bytes -> Option Bytes) (chunk : Chunk)

def keyword : Bytes := chunkKey chunk.dataBuf

/-- What is stored behind the keyword, and behind the compression method. -/
def stored : Bytes :=
  match chunk.chunkType with
  | .text => chunk.dataBuf.drop (chunk.keyword.length + 1)
  | .ztxt => chunk.dataBuf.drop (chunk.keyword.length + 2)
  | .time => []
  | .other => []

/-- The text of a chunk. -/
def value : Bytes :=
  match chunk.chunkType with
  | .text => chunk.stored
  | .ztxt => if chunk.stored = [] then [] else (inflated chunk.stored).getD []
  | .time => []
  | .other => []

/-- The checksum is right, and the data have the form of their type. -/
structure WellFormed (library : Library) (chunk : Chunk) : Prop where
  checksum : bigEndian chunk.chksumBuf = library.crc32 (chunk.typeBuf ++ chunk.dataBuf)
  text : chunk.chunkType = .text -> 0 ∈ chunk.dataBuf
  ztxt : chunk.chunkType = .ztxt -> ∃ key source, 0 ∉ key ∧
    chunk.dataBuf = key ++ 0 :: 0 :: source ∧
      (source = [] ∨ ∃ value, inflated source = some value)
  time : chunk.chunkType = .time -> chunk.dataBuf.length = 7

/-- The line carries the keyword and the text of the chunk, or its time. -/
def Carried (line : Bytes) : Prop :=
  if chunk.chunkType = .time then line = timestamp chunk.dataBuf
  else chunk.keyword <:+: line ∧ chunk.value inflated <:+: line

/-- A value is stored, and what is printed is on one line and not cut. -/
structure Plain : Prop where
  stored : chunk.stored ≠ []
  keyLine : 10 ∉ chunk.keyword
  valueLine : 10 ∉ chunk.value inflated
  uncut : 0 ∉ chunk.value inflated

/-- Text, compressed text and time. -/
def speaks : Bool := chunk.chunkType != .other

/-- What is printed for a well-formed chunk. -/
def output : Bytes :=
  match chunk.chunkType with
  | .other => []
  | .time => timestamp chunk.dataBuf ++ Foundation.text "\n"
  | _ =>
    if chunk.stored = [] then chunk.keyword ++ Foundation.text ":"
    else chunk.keyword ++ Foundation.text ": " ++ cString (chunk.value inflated) ++
      Foundation.text "\n"

/-- Text and compressed text. -/
def Textual : Prop := chunk.chunkType = .text ∨ chunk.chunkType = .ztxt

variable {inflated chunk}

theorem output_empty (textual : chunk.Textual) (empty : chunk.stored = []) :
    chunk.output inflated = chunk.keyword ++ Foundation.text ":" := by
  rcases textual with same | same
  · simp only [output, same, if_pos empty]
  · simp only [output, same, if_pos empty]

theorem output_value (textual : chunk.Textual) (nonempty : chunk.stored ≠ []) :
    chunk.output inflated = chunk.keyword ++ Foundation.text ": " ++
      cString (chunk.value inflated) ++ Foundation.text "\n" := by
  rcases textual with same | same
  · simp only [output, same, if_neg nonempty]
  · simp only [output, same, if_neg nonempty]

theorem output_time (same : chunk.chunkType = .time) :
    chunk.output inflated = timestamp chunk.dataBuf ++ Foundation.text "\n" := by
  simp only [output, same]

theorem output_other (same : chunk.chunkType = .other) : chunk.output inflated = [] := by
  simp only [output, same]

/-- The length of the data has four bytes. -/
theorem data_short (chunk : Chunk) : chunk.dataBuf.length < 4294967296 := by
  have small := bigEndian_lt chunk.lenBuf
  rw [chunk.sized, chunk.lenSize] at small
  exact small

section

variable {library : Library} {limit : Nat} {key rest : Bytes}

theorem keyword_eq (free : 0 ∉ key) (data : chunk.dataBuf = key ++ 0 :: rest) :
    chunk.keyword = key := by
  rw [keyword, data, chunkKey_append free]

theorem shown_text (same : chunk.chunkType = .text) (free : 0 ∉ key)
    (data : chunk.dataBuf = key ++ 0 :: rest) :
    Shown library limit .text chunk.dataBuf (chunk.output inflated) := by
  have keyword := keyword_eq free data
  have stored : chunk.stored = rest := by
    simp only [Chunk.stored, same, keyword]
    rw [data]
    exact drop_keyed key rest 0
  by_cases empty : rest = []
  · rw [output_empty (.inl same) (stored.trans empty), keyword, data, empty]
    exact .emptyText free
  · have value : chunk.value inflated = rest := by
      simp only [Chunk.value, same, stored]
    rw [output_value (.inl same) (stored ▸ empty), keyword, value, data]
    exact .text free empty

theorem shown_ztxt (zlib : Zlib library inflated) (same : chunk.chunkType = .ztxt) (free : 0 ∉ key)
    (data : chunk.dataBuf = key ++ 0 :: 0 :: rest)
    (valid : rest = [] ∨ ∃ value, inflated rest = some value)
    (enough : (chunk.value inflated).length < limit) :
    Shown library limit .ztxt chunk.dataBuf (chunk.output inflated) := by
  have keyword := keyword_eq free data
  have stored : chunk.stored = rest := by
    simp only [Chunk.stored, same, keyword]
    rw [data]
    exact drop_keyed key (0 :: rest) 1
  by_cases empty : rest = []
  · rw [output_empty (.inr same) (stored.trans empty), keyword, data, empty]
    exact .emptyZtxt free
  · rcases valid.resolve_left empty with ⟨text, decompressed⟩
    have value : chunk.value inflated = text := by
      simp only [Chunk.value, same, stored, if_neg empty, decompressed]
      rfl
    rw [output_value (.inr same) (stored ▸ empty), keyword, value, data]
    have short := chunk.data_short
    rw [data, keyed_length, length_cons] at short
    refine .ztxt free empty (inflate_eq zlib decompressed (by omega) ?_ ?_)
    · rw [keyed_length]
      omega
    · rw [value] at enough
      omega

/-- A well-formed chunk is accepted. -/
theorem WellFormed.shown (zlib : Zlib library inflated)
    (wellFormed : WellFormed inflated library chunk)
    (enough : (chunk.value inflated).length < limit) :
    Shown library limit chunk.chunkType chunk.dataBuf (chunk.output inflated) := by
  cases same : chunk.chunkType with
  | other =>
    rw [output_other same]
    exact .other _
  | time =>
    rw [output_time same]
    exact .time (wellFormed.time same)
  | text =>
    have zero := wellFormed.text same
    rcases chunkKey_cases chunk.dataBuf with whole | ⟨rest, data, free⟩
    · have all : chunkKey chunk.dataBuf = chunk.dataBuf :=
        (takeWhile_sublist _).eq_of_length whole
      rw [<- all] at zero
      exact absurd zero (zero_notMem_cString chunk.dataBuf)
    · exact shown_text same free data
  | ztxt =>
    rcases wellFormed.ztxt same with ⟨key, source, free, data, valid⟩
    exact shown_ztxt zlib same free data valid enough

end

end Chunk

/-! ## Well-formed files -/

/-- All that is printed for well-formed chunks. -/
def outputs (inflated : Bytes -> Option Bytes) (chunks : List Chunk) : Bytes :=
  chunks.flatMap (fun chunk => chunk.output inflated)

variable {chunks : List Chunk}

theorem printed_outputs (zlib : Zlib library inflated) {limit size : Nat}
    (wellFormed : ∀ chunk, chunk ∈ chunks -> Chunk.WellFormed inflated library chunk)
    (enough : ∀ chunk, chunk ∈ chunks -> (Chunk.value inflated chunk).length < limit)
    (passes : ∀ chunk, chunk ∈ chunks -> Chunk.passes chunk library = true)
    (small : ∀ chunk, chunk ∈ chunks -> (Chunk.dataBuf chunk).length <= sizeSub size 20) :
    Printed library limit size chunks (outputs inflated chunks) := by
  induction chunks with
  | nil => exact .nil
  | cons chunk chunks ih =>
    have here := wellFormed chunk mem_cons_self
    exact .cons (small chunk mem_cons_self) (passes chunk mem_cons_self)
      (here.shown zlib (enough chunk mem_cons_self))
      (ih (fun other member => wellFormed other (mem_cons_of_mem _ member))
        (fun other member => enough other (mem_cons_of_mem _ member))
        (fun other member => passes other (mem_cons_of_mem _ member))
        (fun other member => small other (mem_cons_of_mem _ member)))

/-- Every chunk leaves room for the signature and its own frame. -/
theorem data_length_le {chunk : Chunk} (member : chunk ∈ chunks) :
    20 + chunk.dataBuf.length <= (pngHeader ++ chunkBytes chunks).length := by
  induction chunks with
  | nil => exact absurd member not_mem_nil
  | cons first chunks ih =>
    rw [chunkBytes_cons, length_append, length_append, first.bytes_length]
    rcases mem_cons.mp member with rfl | later
    · show _ <= 8 + _
      omega
    · have rest := ih later
      rw [length_append] at rest
      omega

theorem data_small (small : (pngHeader ++ chunkBytes chunks).length < sizeRange) (chunk : Chunk)
    (member : chunk ∈ chunks) :
    chunk.dataBuf.length <= sizeSub (pngHeader ++ chunkBytes chunks).length 20 := by
  have room := data_length_le member
  rw [sizeSub_of_le (by omega) small]
  omega

theorem signed_chunks (chunks : List Chunk) :
    pngHeader ++ chunkBytes chunks = pngHeader ++ (chunkBytes chunks ++ []) := by
  rw [append_nil]

section

variable {library : Library} {inflated : Bytes -> Option Bytes} (zlib : Zlib library inflated)
  {limit : Nat} {chunks : List Chunk}
  (wellFormed : ∀ chunk, chunk ∈ chunks -> Chunk.WellFormed inflated library chunk)
  (enough : ∀ chunk, chunk ∈ chunks -> (Chunk.value inflated chunk).length < limit)

include zlib wellFormed enough

/-- The main loop stops at the first chunk that does not pass its check. -/
theorem passes_of_loop {file rest : Bytes} {fuel : Nat} {state after : PngState}
    (place : BetweenChunks file state)
    (ahead : file.drop state.position = chunkBytes chunks ++ rest)
    (small : ∀ chunk, chunk ∈ chunks -> (Chunk.dataBuf chunk).length <= sizeSub file.length 20)
    (ended : pngLoop library limit file fuel state = (.ok (), after)) :
    ∀ chunk, chunk ∈ chunks -> Chunk.passes chunk library = true := by
  induction chunks generalizing state fuel with
  | nil => exact fun _ member => absurd member not_mem_nil
  | cons chunk chunks ih =>
    rw [forall_mem_cons] at wellFormed enough small ⊢
    rw [chunkBytes_cons, append_assoc] at ahead
    rcases place.past ahead (chunk.output inflated) with ⟨next, behind, inside⟩
    cases fuel with
    | zero => cases ended
    | succ fuel =>
      rw [pngLoop, inspect_bind, branch_apply, id_eq, if_pos inside, bind_apply] at ended
      cases passes : chunk.passes library with
      | false =>
        rw [pngChunk_at place.valid ahead small.1, passes] at ended
        cases ended
      | true =>
        rw [pngChunk_shown place.valid ahead small.1 passes
          (wellFormed.1.shown zlib enough.1)] at ended
        exact ⟨rfl, ih wellFormed.2 enough.2 next behind small.2 ended⟩

variable (small : (pngHeader ++ chunkBytes chunks).length < sizeRange)

include small

/-- A file whose analysis returns 0 has chunks that pass their checks. -/
theorem passes_of_analyzePng {after : PngState}
    (ended : analyzePng library limit (pngHeader ++ chunkBytes chunks) (.opening true) =
      (.ok (), after)) : ∀ chunk, chunk ∈ chunks -> Chunk.passes chunk library = true := by
  rcases analyzePng_header library limit (pngHeader ++ chunkBytes chunks) true with
    ⟨_, _, looped⟩ | ⟨unsigned, _⟩
  · rcases betweenChunks_behindHeader (signed_chunks chunks) with ⟨place, ahead⟩
    rw [looped] at ended
    exact passes_of_loop zlib wellFormed enough place ahead (data_small small) ended
  · exact absurd rfl (unsigned (chunkBytes chunks))

/-- The analysis of a well-formed file whose chunks pass their checks returns 0 and has
printed their texts. -/
theorem analyzePng_wellFormed
    (passes : ∀ chunk, chunk ∈ chunks -> Chunk.passes chunk library = true) :
    ∃ after, analyzePng library limit (pngHeader ++ chunkBytes chunks) (.opening true) =
      (.ok (), after) ∧ after.printed = outputs inflated chunks := by
  have printed := printed_outputs zlib wellFormed enough passes (data_small small)
  rcases betweenChunks_behindHeader (signed_chunks chunks) with ⟨place, ahead⟩
  have many := chunkBytes_length_ge chunks
  have size : (pngHeader ++ chunkBytes chunks).length = 8 + (chunkBytes chunks).length :=
    length_append
  have fuel : (pngHeader ++ chunkBytes chunks).length =
      chunks.length + ((pngHeader ++ chunkBytes chunks).length - chunks.length - 1 + 1) := by
    omega
  rcases pngLoop_printed printed place ahead
    ((pngHeader ++ chunkBytes chunks).length - chunks.length - 1 + 1) with
    ⟨after, between, atEnd, shown, same⟩
  have outside : ¬ after.numBytesRead < (pngHeader ++ chunkBytes chunks).length := by
    have left := drop_eq_nil_iff.mp atEnd
    rw [between.counted]
    omega
  refine ⟨after, ?_, shown⟩
  rcases analyzePng_header library limit (pngHeader ++ chunkBytes chunks) true with
    ⟨_, _, looped⟩ | ⟨unsigned, _⟩
  · rw [looped, fuel, same, pngLoop, inspect_bind, branch_apply, id_eq, if_neg outside]
    rfl
  · exact absurd rfl (unsigned (chunkBytes chunks))

end

/-! ## Lines -/

/-- The output is one line for each text and time chunk, in their order. -/
def OneLinePerChunk (inflated : Bytes -> Option Bytes) (chunks : List Chunk) (output : Bytes) :
    Prop :=
  ∃ lines, output = unlines lines ∧ (∀ line, line ∈ lines -> 10 ∉ line) ∧
    List.Forall₂ (Chunk.Carried inflated) (chunks.filter Chunk.speaks) lines

section

variable {inflated : Bytes -> Option Bytes} {chunk : Chunk} {chunks : List Chunk}

theorem newline_notMem_decimal (number : Nat) : 10 ∉ decimal number := by
  intro member
  have digit := mem_text_toString member
  exact absurd digit (by decide)

theorem newline_notMem_timestamp (data : Bytes) : 10 ∉ timestamp data := by
  have title : 10 ∉ text "Timestamp: " := by decide
  have slash : 10 ∉ text "/" := by decide
  have colon : 10 ∉ text ":" := by decide
  have blank : 10 ∉ text " " := by decide
  simp only [timestamp, mem_append, newline_notMem_decimal, title, slash, colon, blank,
    or_self, not_false_eq_true]

theorem Chunk.speaks_eq_false : chunk.speaks = false <-> chunk.chunkType = .other := by
  rw [Chunk.speaks, bne_eq_false_iff_eq]

theorem Chunk.textual_of_speaks (speaks : chunk.speaks = true) (noTime : chunk.chunkType ≠ .time) :
    chunk.Textual := by
  have noOther : chunk.chunkType ≠ .other := by
    intro other
    rw [Chunk.speaks_eq_false.mpr other] at speaks
    cases speaks
  rw [Chunk.Textual]
  cases same : chunk.chunkType with
  | text => exact .inl rfl
  | ztxt => exact .inr rfl
  | time => exact absurd same noTime
  | other => exact absurd same noOther

theorem Chunk.Textual.speaks (textual : chunk.Textual) : chunk.speaks = true := by
  rw [Chunk.speaks]
  rcases textual with same | same
  · rw [same]
    rfl
  · rw [same]
    rfl

theorem Chunk.Textual.ne_time (textual : chunk.Textual) : chunk.chunkType ≠ .time := by
  rintro time
  rcases textual with same | same
  · cases same.symm.trans time
  · cases same.symm.trans time

/-- The keyword and the text of a chunk that is carried by a line have no newline. -/
theorem Chunk.Carried.free {line : Bytes} (carried : chunk.Carried inflated line)
    (textual : chunk.Textual) (free : 10 ∉ line) :
    10 ∉ chunk.keyword ∧ 10 ∉ chunk.value inflated := by
  rw [Chunk.Carried, if_neg textual.ne_time] at carried
  exact ⟨fun member => free (carried.1.subset member), fun member => free (carried.2.subset member)⟩

/-- The line of a chunk whose value is stored. -/
def Chunk.line (inflated : Bytes -> Option Bytes) (chunk : Chunk) : Bytes :=
  if chunk.chunkType = .time then timestamp chunk.dataBuf
  else chunk.keyword ++ text ": " ++ cString (chunk.value inflated)

theorem Chunk.output_line (speaks : chunk.speaks = true)
    (stored : chunk.Textual -> chunk.stored ≠ []) :
    chunk.output inflated = chunk.line inflated ++ [10] := by
  rw [Chunk.line]
  by_cases time : chunk.chunkType = .time
  · rw [if_pos time, Chunk.output_time time]
    rfl
  · have textual := Chunk.textual_of_speaks speaks time
    rw [if_neg time, Chunk.output_value textual (stored textual)]
    rfl

theorem Chunk.newline_notMem_line (key : chunk.Textual -> 10 ∉ chunk.keyword)
    (value : chunk.Textual -> 10 ∉ chunk.value inflated) (speaks : chunk.speaks = true) :
    10 ∉ chunk.line inflated := by
  rw [Chunk.line]
  by_cases time : chunk.chunkType = .time
  · rw [if_pos time]
    exact newline_notMem_timestamp chunk.dataBuf
  · have textual := Chunk.textual_of_speaks speaks time
    have colon : 10 ∉ text ": " := by decide
    rw [if_neg time, mem_append, mem_append, not_or, not_or]
    exact ⟨⟨key textual, colon⟩, fun member => value textual (mem_of_mem_cString member)⟩

/-- A text chunk without a stored value prints no newline. -/
theorem Chunk.newline_notMem_output (textual : chunk.Textual) (key : 10 ∉ chunk.keyword)
    (empty : chunk.stored = []) : 10 ∉ chunk.output inflated := by
  have colon : 10 ∉ text ":" := by decide
  rw [Chunk.output_empty textual empty, mem_append, not_or]
  exact ⟨key, colon⟩

/-- Chunks that are carried by lines print at most one newline each. -/
theorem newlines_le {lines : List Bytes} (free : ∀ line, line ∈ lines -> 10 ∉ line)
    (carried : List.Forall₂ (Chunk.Carried inflated) (chunks.filter Chunk.speaks) lines) :
    (outputs inflated chunks).count 10 <= lines.length := by
  induction chunks generalizing lines with
  | nil => exact Nat.zero_le _
  | cons chunk chunks ih =>
    rw [outputs, flatMap_cons, count_append, <- outputs]
    cases speaks : chunk.speaks with
    | false =>
      rw [filter_cons_of_neg (by rw [speaks]; exact Bool.noConfusion)] at carried
      rw [Chunk.output_other (Chunk.speaks_eq_false.mp speaks), count_nil, Nat.zero_add]
      exact ih free carried
    | true =>
      rw [filter_cons_of_pos speaks] at carried
      rcases carried with _ | ⟨here, later⟩
      rename_i line lines
      have rest := ih (fun other member => free other (mem_cons_of_mem _ member)) later
      have one : (chunk.output inflated).count 10 <= 1 := by
        have parts := fun textual => here.free textual (free line mem_cons_self)
        by_cases empty : chunk.Textual ∧ chunk.stored = []
        · rw [count_eq_zero_of_not_mem
            (Chunk.newline_notMem_output empty.1 (parts empty.1).1 empty.2)]
          exact Nat.zero_le _
        · rw [Chunk.output_line speaks (fun textual none => empty ⟨textual, none⟩),
            count_append, count_eq_zero_of_not_mem (Chunk.newline_notMem_line
              (fun textual => (parts textual).1) (fun textual => (parts textual).2) speaks)]
          exact Nat.le_refl 1
      rw [length_cons]
      omega

/-- The output has one line for each chunk exactly when all text chunks are plain. -/
theorem oneLinePerChunk_iff : OneLinePerChunk inflated chunks (outputs inflated chunks) <->
    ∀ chunk, chunk ∈ chunks -> Chunk.Textual chunk -> Chunk.Plain inflated chunk := by
  induction chunks with
  | nil =>
    exact ⟨fun _ _ member => absurd member not_mem_nil,
      fun _ => ⟨[], rfl, fun _ member => absurd member not_mem_nil, .nil⟩⟩
  | cons chunk chunks ih =>
    rw [forall_mem_cons, <- ih, outputs, flatMap_cons, <- outputs, OneLinePerChunk]
    cases speaks : chunk.speaks with
    | false =>
      have other := Chunk.speaks_eq_false.mp speaks
      rw [filter_cons_of_neg (by rw [speaks]; exact Bool.noConfusion),
        Chunk.output_other other, nil_append]
      refine ⟨fun lines => ⟨fun textual => ?_, lines⟩, And.right⟩
      rw [textual.speaks] at speaks
      cases speaks
    | true =>
      rw [filter_cons_of_pos speaks]
      constructor
      · rintro ⟨lines, same, free, carried⟩
        rcases carried with _ | ⟨here, later⟩
        rename_i line lines
        have freeLater : ∀ other, other ∈ lines -> 10 ∉ other :=
          fun other member => free other (mem_cons_of_mem _ member)
        have parts := fun textual => here.free textual (free line mem_cons_self)
        -- without a stored value there is a newline too few
        have stored : chunk.Textual -> chunk.stored ≠ [] := by
          intro textual empty
          have newlines := congrArg (List.count 10) same
          rw [count_unlines free, count_append, count_eq_zero_of_not_mem
            (Chunk.newline_notMem_output textual (parts textual).1 empty), Nat.zero_add,
            length_cons] at newlines
          have few := newlines_le freeLater later
          omega
        rw [Chunk.output_line speaks stored, unlines_cons, append_assoc,
          singleton_append] at same
        rcases append_stop_inj (Chunk.newline_notMem_line (fun textual => (parts textual).1)
          (fun textual => (parts textual).2) speaks) (free line mem_cons_self) same with
          ⟨rfl, rest⟩
        refine ⟨fun textual => ⟨stored textual, (parts textual).1, (parts textual).2, ?_⟩,
          lines, rest, freeLater, later⟩
        intro zero
        rw [Chunk.Carried, if_neg textual.ne_time, Chunk.line, if_neg textual.ne_time] at here
        have member := here.2.subset zero
        rw [mem_append, mem_append] at member
        rcases member with (inKey | inColon) | inValue
        · exact zero_notMem_cString chunk.dataBuf inKey
        · exact absurd inColon (by decide)
        · exact zero_notMem_cString _ inValue
      · rintro ⟨plain, lines, rest, free, later⟩
        refine ⟨chunk.line inflated :: lines, ?_, ?_, .cons ?_ later⟩
        · rw [Chunk.output_line speaks (fun textual => (plain textual).stored), rest,
            unlines_cons, append_assoc, singleton_append]
        · rw [forall_mem_cons]
          exact ⟨Chunk.newline_notMem_line (fun textual => (plain textual).keyLine)
            (fun textual => (plain textual).valueLine) speaks, free⟩
        · rw [Chunk.Carried, Chunk.line]
          by_cases time : chunk.chunkType = .time
          · rw [if_pos time, if_pos time]
          · have textual := Chunk.textual_of_speaks speaks time
            rw [if_neg time, if_neg time, cString_eq_self (plain textual).uncut]
            exact ⟨⟨[], text ": " ++ chunk.value inflated, by simp⟩,
              (suffix_append _ _).isInfix⟩

end

/-- The analysis of a well-formed file returns 0 and prints one line for each text and time
chunk exactly when all chunks pass their checks and all text chunks are plain. -/
theorem one_line_per_chunk_iff (library : Library) (inflated : Bytes -> Option Bytes)
    (zlib : Zlib library inflated) (chunks : List Chunk)
    (wellFormed : ∀ chunk, chunk ∈ chunks -> chunk.WellFormed inflated library)
    (small : (pngHeader ++ chunkBytes chunks).length < sizeRange) (limit : Nat)
    (enough : ∀ chunk, chunk ∈ chunks -> (chunk.value inflated).length < limit) :
    (∃ after, analyzePng library limit (pngHeader ++ chunkBytes chunks) (.opening true) =
        (.ok (), after) ∧ OneLinePerChunk inflated chunks after.printed) <->
      ∀ chunk, chunk ∈ chunks ->
        chunk.passes library = true ∧ (chunk.Textual -> chunk.Plain inflated) := by
  constructor
  · rintro ⟨after, ended, lines⟩
    have passes := passes_of_analyzePng zlib wellFormed enough small ended
    rcases analyzePng_wellFormed zlib wellFormed enough small passes with ⟨last, run, printed⟩
    cases ended.symm.trans run
    rw [printed] at lines
    exact fun chunk member => ⟨passes chunk member, oneLinePerChunk_iff.mp lines chunk member⟩
  · intro each
    rcases analyzePng_wellFormed zlib wellFormed enough small
      (fun chunk member => (each chunk member).1) with ⟨after, run, printed⟩
    refine ⟨after, run, ?_⟩
    rw [printed]
    exact oneLinePerChunk_iff.mpr (fun chunk member => (each chunk member).2)

/-! ## Files of text chunks -/

/-- The checksum of zlib, and data that are stored as they are. -/
def storedLibrary : Library where
  crc32 := crc32
  uncompress := fun source size =>
    if source.length <= size then ⟨.ok, source.length, source⟩
    else ⟨.bufError, size, source.take size⟩
  realloc := fun _ => true

theorem storedLibrary_zlib : Zlib storedLibrary some where
  allocates _ := rfl
  fits source value size same large := by
    cases same
    simp only [storedLibrary, if_pos large, take_length, and_self]
  short source value size same small := by
    cases same
    simp only [storedLibrary, if_neg (Nat.not_le_of_lt small)]
  ratio source value same := by
    cases same
    omega

/-- A text chunk with one data byte in front of its zero byte and none behind it. -/
def emptyValueChunk : Chunk where
  lenBuf := [0x00, 0x00, 0x00, 0x02]
  typeBuf := [0x74, 0x45, 0x58, 0x74]
  dataBuf := [0x41, 0x00]
  chksumBuf := [0x05, 0x41, 0xA0, 0xC8]
  lenSize := rfl
  typeSize := rfl
  chksumSize := rfl
  sized := rfl

/-- A text chunk with the keyword `B` and the text `c`. -/
def plainTextChunk : Chunk where
  lenBuf := [0x00, 0x00, 0x00, 0x03]
  typeBuf := [0x74, 0x45, 0x58, 0x74]
  dataBuf := [0x42, 0x00, 0x63]
  chksumBuf := [0x91, 0x45, 0x6A, 0x14]
  lenSize := rfl
  typeSize := rfl
  chksumSize := rfl
  sized := rfl

/-- A time chunk. -/
def timeChunk : Chunk where
  lenBuf := [0x00, 0x00, 0x00, 0x07]
  typeBuf := [0x74, 0x49, 0x4D, 0x45]
  dataBuf := [0x07, 0xE0, 0x02, 0x1D, 0x0C, 0x1E, 0x3B]
  chksumBuf := [0x6E, 0x73, 0x42, 0x9F]
  lenSize := rfl
  typeSize := rfl
  chksumSize := rfl
  sized := rfl

theorem emptyValueChunk_wellFormed : emptyValueChunk.WellFormed some storedLibrary where
  checksum := by decide +kernel
  text _ := by decide
  ztxt same := absurd same (by decide)
  time same := absurd same (by decide)

theorem plainTextChunk_wellFormed : plainTextChunk.WellFormed some storedLibrary where
  checksum := by decide +kernel
  text _ := by decide
  ztxt same := absurd same (by decide)
  time same := absurd same (by decide)

theorem timeChunk_wellFormed : timeChunk.WellFormed some storedLibrary where
  checksum := by decide +kernel
  text same := absurd same (by decide)
  ztxt same := absurd same (by decide)
  time _ := rfl

theorem one_line_per_chunk_iff_plainText :
    ∃ after, analyzePng storedLibrary 2 (pngHeader ++ chunkBytes [plainTextChunk, timeChunk])
        (.opening true) = (.ok (), after) ∧
        OneLinePerChunk some [plainTextChunk, timeChunk] after.printed :=
  (one_line_per_chunk_iff storedLibrary some storedLibrary_zlib [plainTextChunk, timeChunk]
    (forall_mem_cons.mpr ⟨plainTextChunk_wellFormed,
      forall_mem_singleton.mpr timeChunk_wellFormed⟩) (by decide +kernel) 2
    (forall_mem_cons.mpr ⟨by decide, forall_mem_singleton.mpr (by decide)⟩)).mpr
    (forall_mem_cons.mpr
      ⟨⟨by decide +kernel, fun _ => ⟨by decide, by decide, by decide, by decide⟩⟩,
        forall_mem_singleton.mpr ⟨by decide +kernel, fun textual => absurd textual
          (by rw [Chunk.Textual]; decide)⟩⟩)

/-- Behind an empty value no newline is printed, so two chunks share a line. -/
theorem empty_value_without_newline :
    (∀ chunk, chunk ∈ [emptyValueChunk, plainTextChunk] ->
      chunk.WellFormed some storedLibrary) ∧
      ∃ after, analyzePng storedLibrary 2
        (pngHeader ++ chunkBytes [emptyValueChunk, plainTextChunk]) (.opening true) =
          (.ok (), after) ∧ after.printed = text "A:B: c\n" ∧
        ¬ OneLinePerChunk some [emptyValueChunk, plainTextChunk] after.printed := by
  refine ⟨forall_mem_cons.mpr ⟨emptyValueChunk_wellFormed,
    forall_mem_singleton.mpr plainTextChunk_wellFormed⟩,
    ⟨37, 37, true, text "A:B: c\n", [⟨2, 2⟩, ⟨3, 3⟩]⟩, by decide +kernel, rfl, fun lines => ?_⟩
  have plain := oneLinePerChunk_iff.mp
    (show OneLinePerChunk some _ (outputs some [emptyValueChunk, plainTextChunk]) from lines)
  exact (plain emptyValueChunk mem_cons_self (.inl rfl)).stored rfl

end ImageMetadata
end Codebank
