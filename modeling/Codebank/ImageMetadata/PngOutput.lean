import Codebank.ImageMetadata.Chunks

namespace Codebank
namespace ImageMetadata

open Foundation Foundation.Routine PngState List

/-!
# The output of the PNG scan

The texts of the chunks are printed as they are read.  A file that is rejected has
printed nothing exactly when no text or time chunk was accepted in it before, and a
well-formed file gives one line for each such chunk exactly when all values are plain.
-/

/-! ## Rejected files -/

theorem betweenChunks_behindHeader {file rest : Bytes} (signed : file = pngHeader ++ rest) :
    BetweenChunks file (.behindHeader true) ∧
      file.drop (PngState.behindHeader true).position = rest := by
  refine ⟨⟨rfl, ?_, rfl⟩, ?_⟩
  · rw [signed, length_append]
    exact Nat.le_add_right 8 _
  · rw [signed]
    rfl

variable {library : Library} {limit : Nat}

/-- With `valid` cleared the main loop does not reach a return of -1. -/
theorem invalid_not_rejected {file : Bytes} {after : PngState} (fuel : Nat) :
    pngLoop library limit file fuel (.behindHeader false) ≠ (.error (.code (-1)), after) := by
  intro returned
  cases fuel with
  | zero => cases returned
  | succ fuel =>
    rw [pngLoop, inspect_bind, branch_apply, bind_apply] at returned
    split at returned
    · rcases pngChunk_cases library limit file (.behindHeader false) with ⟨_, _, _, _, valid⟩ | ends
      · cases valid
      · rcases turn : pngChunk library limit file (.behindHeader false) with ⟨stop | _, last⟩
        · rw [turn] at ends returned
          rcases ends with ⟨rfl, _⟩
          cases returned
        · rw [turn] at ends
          exact ends
    · cases returned

/-- The texts of accepted chunks at the start of a file are the start of its output. -/
theorem printed_isPrefix {file rest output : Bytes} {chunks : List Chunk}
    (printed : Printed library limit file.length chunks output)
    (signed : file = pngHeader ++ (chunkBytes chunks ++ rest)) :
    output <+: (pngLoop library limit file file.length (.behindHeader true)).2.printed := by
  rcases betweenChunks_behindHeader signed with ⟨place, ahead⟩
  have enough : chunks.length <= file.length := by
    have size := congrArg List.length signed
    have many := chunkBytes_length_ge chunks
    rw [length_append, length_append] at size
    omega
  rcases pngLoop_printed printed place ahead (file.length - chunks.length) with
    ⟨after, between, _, shown, same⟩
  rw [Nat.add_sub_cancel' enough] at same
  rcases pngLoop_prints library limit (file.length - chunks.length) between with
    ⟨_, later, _, _, _, more⟩
  refine ⟨later, ?_⟩
  rw [same, more, shown]
  rfl

/-- A file that is rejected has printed nothing exactly when no text or time chunk
stands among the accepted chunks at its start. -/
theorem rejected_silent_iff (library : Library) (limit : Nat) (file : Bytes) (valid : Bool)
    (after : PngState)
    (returned : analyzePng library limit file (.opening valid) = (.error (.code (-1)), after)) :
    after.printed = [] <->
      ∀ chunks output rest, Printed library limit file.length chunks output ->
        file = pngHeader ++ (chunkBytes chunks ++ rest) ->
        ∀ chunk, chunk ∈ chunks -> chunk.chunkType = .other := by
  rcases analyzePng_header library limit file valid with
    ⟨rest, signed, looped⟩ | ⟨unsigned, last, silent, _, run⟩
  · rw [looped] at returned
    cases valid with
    | false => exact absurd returned (invalid_not_rejected file.length)
    | true =>
      have left : (pngLoop library limit file file.length (.behindHeader true)).2 = after := by
        rw [returned]
      constructor
      · intro silent chunks output rest printed whole
        have before := printed_isPrefix printed whole
        rw [left, silent] at before
        exact printed.eq_nil_iff.mp (prefix_nil.mp before)
      · intro others
        rcases betweenChunks_behindHeader signed with ⟨place, ahead⟩
        rcases pngLoop_prints library limit file.length place with
          ⟨chunks, output, final, printed, following, shown⟩
        rw [left] at shown
        rw [ahead] at following
        rw [shown, printed.eq_nil_iff.mpr (others chunks output final printed (following ▸ signed))]
        rfl
  · rw [run] at returned
    cases returned
    exact ⟨fun _ _ _ rest _ whole => absurd whole (unsigned _), fun _ => silent⟩

/-- A chunk `IEND` whose checksum is wrong. -/
def damagedEnd : Bytes := [0x00, 0x00, 0x00, 0x00, 0x49, 0x45, 0x4E, 0x44, 0x00, 0x00, 0x00, 0x00]

theorem rejected_silent_iff_damagedEnd :
    analyzePng plainLibrary 0 (pngHeader ++ damagedEnd) (.opening true) =
        (.error (.code (-1)), ⟨20, 20, true, [], [⟨0, 0⟩]⟩) ∧
      (([] : Bytes) = [] <->
        ∀ chunks output rest,
          Printed plainLibrary 0 (pngHeader ++ damagedEnd).length chunks output ->
          pngHeader ++ damagedEnd = pngHeader ++ (chunkBytes chunks ++ rest) ->
          ∀ chunk, chunk ∈ chunks -> chunk.chunkType = .other) :=
  have returned : analyzePng plainLibrary 0 (pngHeader ++ damagedEnd) (.opening true) =
      (.error (.code (-1)), ⟨20, 20, true, [], [⟨0, 0⟩]⟩) := by decide +kernel
  ⟨returned, rejected_silent_iff plainLibrary 0 (pngHeader ++ damagedEnd) true
    ⟨20, 20, true, [], [⟨0, 0⟩]⟩ returned⟩

/-- The chunk `tEXt` of the key `A` and the value `b`. -/
def textChunk : Bytes :=
  [0x00, 0x00, 0x00, 0x03, 0x74, 0x45, 0x58, 0x74, 0x41, 0x00, 0x62, 0xE4, 0x04, 0xE4, 0xDB]

/-- A text chunk is printed before the damaged chunk behind it is seen, so a file that is
rejected has printed something. -/
theorem rejected_file_prints :
    ∃ after, analyzePng plainLibrary 0 (pngHeader ++ textChunk ++ damagedEnd) (.opening true) =
      (.error (.code (-1)), after) ∧ after.printed = text "A: b\n" ∧ after.printed ≠ [] :=
  ⟨⟨35, 35, true, text "A: b\n", [⟨3, 3⟩, ⟨0, 0⟩]⟩, by decide +kernel, rfl, by decide⟩

end ImageMetadata
end Codebank
