import Mathlib.Data.List.Basic
import Mathlib.Data.List.TakeWhile

namespace Codebank
namespace Foundation

open List

/-!
# Words of a text

A word is a longest stretch of a text without separators.  A text has no word, or it
is a gap of separators, its first word, and what stands behind the separator that
ends this word.
-/

variable {α : Type} [DecidableEq α] {separator : α}

/-- The longest non-empty stretches without the separator, in order. -/
def words (separator : α) (text : List α) : List (List α) :=
  (text.splitOnP (fun symbol => symbol == separator)).filter (fun word => !word.isEmpty)

theorem words_nil : words separator [] = [] := by
  simp [words]

theorem words_separator_cons (text : List α) :
    words separator (separator :: text) = words separator text := by
  have here : (separator == separator) = true := beq_self_eq_true separator
  rw [words, splitOnP_cons_eq_if_modifyHead, if_pos here, filter_cons_of_neg (by simp),
    words]

theorem words_gap (count : Nat) (text : List α) :
    words separator (replicate count separator ++ text) = words separator text := by
  induction count with
  | zero => rfl
  | succ count ih => rw [replicate_succ, cons_append, words_separator_cons, ih]

section

variable {word : List α} (some_symbol : word ≠ []) (free : separator ∉ word)

include free in
theorem beq_separator_of_mem {symbol : α} (member : symbol ∈ word) :
    (symbol == separator) = false := by
  rw [beq_eq_false_iff_ne]
  rintro rfl
  exact free member

include some_symbol free

theorem words_word : words separator word = [word] := by
  have single : word.splitOnP (fun symbol => symbol == separator) = [word] :=
    splitOnP_eq_singleton (fun _ member => beq_separator_of_mem free member)
  rw [words, single, filter_cons_of_pos (by simpa using some_symbol), filter_nil]

theorem words_word_append (text : List α) :
    words separator (word ++ separator :: text) = word :: words separator text := by
  have parts := splitOnP_append_cons_of_forall_mem
    (fun _ member => beq_separator_of_mem free member) separator
    (beq_self_eq_true separator) text
  rw [words, parts, filter_cons_of_pos (by simpa using some_symbol), words]

end

/-- A text as a tokenizer meets it from its start: a gap, and then its end or the first
word with the end of the text or a separator behind it. -/
inductive Ahead (separator : α) (text : List α) : Prop where
  | gap (count : Nat) (all : text = replicate count separator)
  | last (count : Nat) (word : List α) (some_symbol : word ≠ []) (free : separator ∉ word)
      (all : text = replicate count separator ++ word)
  | word (count : Nat) (word rest : List α) (some_symbol : word ≠ []) (free : separator ∉ word)
      (all : text = replicate count separator ++ (word ++ separator :: rest))

/-- What stands in front of the first separator. -/
theorem separator_notMem_or_split (separator : α) (text : List α) :
    separator ∉ text ∨ ∃ word rest, separator ∉ word ∧ text = word ++ separator :: rest := by
  by_cases member : separator ∈ text
  case neg => exact .inl member
  case pos =>
    obtain ⟨word, rest, all, free⟩ := eq_append_cons_of_mem member
    exact .inr ⟨word, rest, free, all⟩

theorem ahead (separator : α) (text : List α) : Ahead separator text := by
  induction text with
  | nil => exact .gap 0 rfl
  | cons symbol text ih =>
    by_cases here : symbol = separator
    case pos =>
      subst here
      cases ih with
      | gap count all => exact .gap (count + 1) (by rw [all]; rfl)
      | last count word some_symbol free all =>
        exact .last (count + 1) word some_symbol free (by rw [all]; rfl)
      | word count word rest some_symbol free all =>
        exact .word (count + 1) word rest some_symbol free (by rw [all]; rfl)
    case neg =>
      -- the first word starts here and goes on to the first separator
      have first : ∀ {word : List α}, separator ∉ word -> separator ∉ symbol :: word :=
        fun free member => (mem_cons.mp member).elim (fun same => here same.symm) free
      obtain free | ⟨word, rest, free, all⟩ := separator_notMem_or_split separator text
      · exact .last 0 (symbol :: text) (cons_ne_nil _ _) (first free) rfl
      · exact .word 0 (symbol :: word) rest (cons_ne_nil _ _) (first free) (by rw [all]; rfl)

/-- Words need at least one symbol each and a separator between them. -/
theorem length_words_le (separator : α) (text : List α) :
    2 * (words separator text).length <= text.length + 1 := by
  cases ahead separator text with
  | gap count all =>
    have none : words separator text = [] := by
      rw [all, <- append_nil (replicate count separator), words_gap, words_nil]
    rw [none]
    exact Nat.zero_le _
  | last count word some_symbol free all =>
    have long := length_pos_iff.mpr some_symbol
    have size : text.length = count + word.length := by
      rw [all, length_append, length_replicate]
    rw [all, words_gap, words_word some_symbol free, <- all, length_singleton]
    omega
  | word count word rest some_symbol free all =>
    have long := length_pos_iff.mpr some_symbol
    have size : text.length = count + (word.length + (rest.length + 1)) := by
      rw [all, length_append, length_replicate, length_append, length_cons]
    have later := length_words_le separator rest
    rw [all, words_gap, words_word_append some_symbol free, <- all, length_cons]
    omega
termination_by text.length

end Foundation
end Codebank
