import Codebank.Foundation.Bytes
import Codebank.Foundation.Words

namespace Codebank
namespace Pintos
namespace Strings

open Foundation List Option

/-!
# Strings of the kernel

The functions of `lib/string.c` that the argument passing uses.  A pointer into a
page is an offset, and the model stops when a loop reads past the end of the page.
`strtok_r` cuts a command line into its words in place: it overwrites the separator
behind a word, and nothing in front of the place where it started.
-/

variable {buffer : Bytes} {offset : Nat}

/-- `strchr` in the string that has these bytes in front of its terminator -/
def strchr : Bytes -> UInt8 -> Option Nat
  | [], c => if 0 = c then some 0 else none
  | byte :: string, c => if byte = c then some 0 else (strchr string c).map Nat.succ

/-- A pointer `s` with these bytes ahead is moved on to the first byte at which the
loop ends. -/
def scan (ends : UInt8 -> Bool) : Bytes -> Nat -> Option Nat
  | [], _ => none
  | byte :: ahead, s => if ends byte then some s else scan ends ahead (s + 1)

/-- `strlen` -/
def strlen (buffer : Bytes) (string : Nat) : Option Nat := do
  let p <- scan (fun byte => byte = 0) (buffer.drop string) string
  return p - string

/-- `strlcpy` from the string with these bytes in front of its terminator -/
def strlcpy (dst src : Bytes) (size : Nat) : Bytes :=
  if 0 < size then
    let dstLen := if src.length < size - 1 then src.length else size - 1
    src.take dstLen ++ 0 :: dst.drop (dstLen + 1)
  else dst

/-- The first loop of `strtok_r`: where it ends, and whether a token starts there. -/
def skipDelimiters (delimiters : Bytes) : Bytes -> Nat -> Option (Nat × Bool)
  | [], _ => none
  | byte :: ahead, s =>
    if (strchr delimiters byte).isSome then
      if byte = 0 then some (s, false) else skipDelimiters delimiters ahead (s + 1)
    else some (s, true)

/-- What a call of `strtok_r` returns and leaves behind. -/
structure Tokenized where
  buffer : Bytes
  token : Option Nat
  savePtr : Nat

/-- `strtok_r` from the pointer `s`, which is the argument or the saved one -/
def strtokR (buffer : Bytes) (s : Nat) (delimiters : Bytes) : Option Tokenized := do
  let start <- skipDelimiters delimiters (buffer.drop s) s
  if start.2 then
    let stop <- scan (fun byte => (strchr delimiters byte).isSome) (buffer.drop start.1) start.1
    let byte <- buffer[stop]?
    if byte ≠ 0 then
      return ⟨buffer.set stop 0, some start.1, stop + 1⟩
    else
      return ⟨buffer, some start.1, stop⟩
  else
    return ⟨buffer, none, start.1⟩

/-- `" "` -/
def space : UInt8 := 32

theorem strchr_space (byte : UInt8) :
    (strchr [space] byte).isSome = true <-> byte = space ∨ byte = 0 := by
  by_cases delimiter : space = byte
  case pos => simp [strchr, delimiter]
  case neg =>
    by_cases terminator : 0 = byte
    case pos =>
      subst terminator
      simp [strchr, delimiter]
    case neg => simp [strchr, delimiter, terminator, Ne.symm delimiter, Ne.symm terminator]

theorem scan_stop {ends : UInt8 -> Bool} {front : Bytes} {byte : UInt8}
    (passes : ∀ other, other ∈ front -> ends other = false) (here : ends byte = true)
    (rest : Bytes) (s : Nat) : scan ends (front ++ byte :: rest) s = some (s + front.length) := by
  induction front generalizing s with
  | nil => exact if_pos here
  | cons first front ih =>
    have skipped : ends first = false := passes first mem_cons_self
    rw [cons_append, scan, skipped, if_neg Bool.false_ne_true,
      ih (fun other member => passes other (mem_cons_of_mem _ member)), length_cons]
    congr 1
    omega

theorem skipDelimiters_gap (count s : Nat) (ahead : Bytes) :
    skipDelimiters [space] (replicate count space ++ ahead) s =
      skipDelimiters [space] ahead (s + count) := by
  induction count generalizing s with
  | zero => rfl
  | succ count ih =>
    rw [replicate_succ, cons_append, skipDelimiters,
      if_pos ((strchr_space space).mpr (.inl rfl)), if_neg (by decide), ih]
    congr 1
    omega

/-- A string of these bytes stands at the offset. -/
structure StringAt (buffer : Bytes) (offset : Nat) (string : Bytes) : Prop where
  free : 0 ∉ string
  ahead : ∃ rest, buffer.drop offset = string ++ 0 :: rest

namespace StringAt

variable {string : Bytes}

section

variable (stands : StringAt buffer offset string)

include stands

theorem strlen : strlen buffer offset = some string.length := by
  obtain ⟨rest, ahead⟩ := stands.ahead
  have passes : ∀ byte, byte ∈ string -> decide (byte = 0) = false := by
    intro byte member
    rw [decide_eq_false_iff_not]
    rintro rfl
    exact stands.free member
  rw [Strings.strlen, ahead, scan_stop passes (by decide)]
  simp

theorem readAt : readAt buffer offset (string.length + 1) = string ++ [0] := by
  obtain ⟨rest, ahead⟩ := stands.ahead
  have split : buffer.drop offset = string ++ [0] ++ rest := by
    rw [ahead, append_assoc, singleton_append]
  exact readAt_ahead split length_append

theorem fits : offset + (string.length + 1) <= buffer.length := by
  obtain ⟨rest, ahead⟩ := stands.ahead
  have lengths := congrArg List.length ahead
  rw [length_drop, length_append, length_cons] at lengths
  omega

/-- A string stays while the bytes up to its terminator do. -/
theorem kept {after : Bytes} {bound : Nat} (inside : offset + string.length + 1 <= bound)
    (same : after.take bound = buffer.take bound) : StringAt after offset string := by
  obtain ⟨rest, ahead⟩ := stands.ahead
  have front : (after.drop offset).take (bound - offset) =
      (string ++ 0 :: rest).take (bound - offset) := by
    rw [<- ahead, <- drop_take, <- drop_take, same]
  have cut : (string ++ 0 :: rest).take (bound - offset) =
      string ++ 0 :: rest.take (bound - offset - string.length - 1) := by
    have size : bound - offset = string.length +
        (bound - offset - string.length - 1 + 1) := by omega
    rw [size, take_length_add_append, take_succ_cons]
    congr 3
    omega
  refine ⟨stands.free, rest.take (bound - offset - string.length - 1) ++ (after.drop offset).drop
    (bound - offset), ?_⟩
  rw [<- cons_append, <- append_assoc, <- cut, <- front, take_append_drop]

end

end StringAt

/-- These words stand between the pointer and the end of the string. -/
def Remaining (buffer : Bytes) (offset : Nat) (left : List Bytes) : Prop :=
  ∃ text, StringAt buffer offset text ∧ words space text = left

/-- What a call of `strtok_r` does that finds a word. -/
structure Takes (buffer : Bytes) (offset : Nat) (word : Bytes) (left : List Bytes)
    (after : Tokenized) (token : Nat) : Prop where
  found : after.token = some token
  stands : StringAt after.buffer token word
  remaining : Remaining after.buffer after.savePtr left
  forward : offset <= after.savePtr
  /-- later calls do not reach the word, unless there is no further word -/
  behind : token + word.length + 1 <= after.savePtr ∨ left = []
  same : after.buffer.take offset = buffer.take offset

theorem strtokR_end (remaining : Remaining buffer offset []) :
    ∃ savePtr, strtokR buffer offset [space] = some ⟨buffer, none, savePtr⟩ := by
  obtain ⟨text, stands, none⟩ := remaining
  obtain ⟨rest, drop⟩ := stands.ahead
  cases ahead space text with
  | gap count all =>
    refine ⟨offset + count, ?_⟩
    have skipped : skipDelimiters [space] (buffer.drop offset) offset =
        some (offset + count, false) := by
      rw [drop, all, skipDelimiters_gap, skipDelimiters, if_pos ((strchr_space 0).mpr (.inr rfl)),
        if_pos rfl]
    rw [strtokR, skipped]
    rfl
  | last count word some_symbol free all =>
    rw [all, words_gap, words_word some_symbol free] at none
    cases none
  | word count word rest some_symbol free all =>
    rw [all, words_gap, words_word_append some_symbol free] at none
    cases none

section

variable {word rest : Bytes} {count : Nat} {byte : UInt8} (some_symbol : word ≠ [])
  (free : space ∉ word) (string : 0 ∉ word)

include free string

theorem scan_word (stop : byte = space ∨ byte = 0) :
    scan (fun other => (strchr [space] other).isSome) (word ++ byte :: rest) offset =
      some (offset + word.length) := by
  refine scan_stop ?_ ((strchr_space byte).mpr stop) rest offset
  intro other member
  rw [<- Bool.not_eq_true, strchr_space]
  rintro (rfl | rfl)
  · exact free member
  · exact string member

include some_symbol

theorem skipDelimiters_word :
    skipDelimiters [space] (replicate count space ++ (word ++ rest)) offset =
      some (offset + count, true) := by
  rw [skipDelimiters_gap]
  cases word with
  | nil => exact absurd rfl some_symbol
  | cons first word =>
    have plain : ¬ (strchr [space] first).isSome = true := by
      rw [strchr_space]
      rintro (rfl | rfl)
      · exact free mem_cons_self
      · exact string mem_cons_self
    rw [cons_append, skipDelimiters, if_neg plain]

theorem strtokR_word
    (drop : buffer.drop offset = replicate count space ++ (word ++ byte :: rest))
    (stop : byte = space ∨ byte = 0) :
    strtokR buffer offset [space] =
      if byte ≠ 0 then
        some ⟨buffer.set (offset + count + word.length) 0, some (offset + count),
          offset + count + word.length + 1⟩
      else some ⟨buffer, some (offset + count), offset + count + word.length⟩ := by
  have skipped : skipDelimiters [space] (buffer.drop offset) offset =
      some (offset + count, true) := by
    rw [drop, skipDelimiters_word some_symbol free string]
  have token : buffer.drop (offset + count) = word ++ byte :: rest :=
    drop_ahead drop length_replicate
  have scanned : scan (fun other => (strchr [space] other).isSome) (buffer.drop (offset + count))
      (offset + count) = some (offset + count + word.length) := by
    rw [token, scan_word free string stop]
  have behind : buffer.drop (offset + count + word.length) = byte :: rest := drop_ahead token rfl
  have here : buffer[offset + count + word.length]? = some byte := by
    rw [<- Nat.add_zero (offset + count + word.length), <- getElem?_drop, behind,
      getElem?_cons_zero]
  rw [strtokR, skipped]
  simp only [bind_eq_bind, bind_some, if_true, scanned, here, Option.pure_def]

end

theorem strtokR_next {word : Bytes} {left : List Bytes}
    (remaining : Remaining buffer offset (word :: left)) :
    ∃ after token, strtokR buffer offset [space] = some after ∧
      Takes buffer offset word left after token := by
  obtain ⟨text, stands, next⟩ := remaining
  obtain ⟨rest, drop⟩ := stands.ahead
  have string := stands.free
  cases ahead space text with
  | gap count all =>
    rw [all, <- append_nil (replicate count space), words_gap, words_nil] at next
    cases next
  | last count found some_symbol free all =>
    rw [all, words_gap, words_word some_symbol free] at next
    obtain ⟨rfl, rfl⟩ := List.cons.inj next
    rw [all, append_assoc] at drop
    have plain : 0 ∉ found :=
      fun member => string (all ▸ mem_append_right _ member)
    have token : buffer.drop (offset + count) = found ++ 0 :: rest :=
      drop_ahead drop length_replicate
    refine ⟨⟨buffer, some (offset + count), offset + count + found.length⟩, offset + count, ?_, rfl,
      ⟨plain, rest, token⟩, ?_, ?_, .inr rfl, rfl⟩
    · rw [strtokR_word some_symbol free plain drop (.inr rfl), if_neg (by decide)]
    · exact ⟨[], ⟨not_mem_nil, rest, drop_ahead token rfl⟩, words_nil⟩
    · exact Nat.le_trans (Nat.le_add_right _ _) (Nat.le_add_right _ _)
  | word count found later some_symbol free all =>
    rw [all, words_gap, words_word_append some_symbol free] at next
    obtain ⟨rfl, rfl⟩ := List.cons.inj next
    rw [all, append_assoc, append_assoc, cons_append] at drop
    have inside : ∀ {byte : UInt8}, byte ∈ found ++ space :: later -> byte ∈ text :=
      fun member => all ▸ mem_append_right _ member
    have plain : 0 ∉ found := fun member => string (inside (mem_append_left _ member))
    have laterPlain : 0 ∉ later := fun member =>
      string (inside (mem_append_right _ (mem_cons_of_mem _ member)))
    have token : buffer.drop (offset + count) = found ++ space :: (later ++ 0 :: rest) :=
      drop_ahead drop length_replicate
    have cut : (buffer.set (offset + count + found.length) 0).drop (offset + count) =
        found ++ 0 :: (later ++ 0 :: rest) := by
      rw [drop_set, if_neg (by omega), token, Nat.add_sub_cancel_left,
        set_append_right _ _ (Nat.le_refl _), Nat.sub_self, set_cons_zero]
    have cutStop : (buffer.set (offset + count + found.length) 0).drop
        (offset + count + found.length) = 0 :: (later ++ 0 :: rest) := drop_ahead cut rfl
    have cutBehind : (buffer.set (offset + count + found.length) 0).drop
        (offset + count + found.length + 1) = later ++ 0 :: rest := by
      rw [<- drop_drop, cutStop, drop_one, tail_cons]
    refine ⟨⟨buffer.set (offset + count + found.length) 0, some (offset + count),
      offset + count + found.length + 1⟩, offset + count, ?_, rfl, ⟨plain, _, cut⟩, ?_, ?_,
      .inl (Nat.le_refl _), ?_⟩
    · rw [strtokR_word some_symbol free plain drop (.inl rfl), if_pos (by decide)]
    · exact ⟨later, ⟨laterPlain, rest, cutBehind⟩, rfl⟩
    · show offset <= offset + count + found.length + 1
      omega
    · exact take_set_of_le (by omega)

end Strings
end Pintos
end Codebank
