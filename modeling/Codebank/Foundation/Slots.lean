import Mathlib.Data.Fintype.Basic
import Mathlib.Data.Finset.Card
import Mathlib.Data.List.Range

namespace Codebank
namespace Foundation

open List Function

/-!
# Counting what a finite table of optional entries holds
-/

section

variable {Entry : Type*} [DecidableEq Entry]

/-- How many of the first slots hold the entry. -/
def occurrences (slots : Nat -> Option Entry) (count : Nat) (entry : Entry) : Nat :=
  (List.range count).countP fun index => slots index = some entry

variable {slots other : Nat -> Option Entry} {count index : Nat} {entry : Entry}

@[simp] theorem occurrences_zero : occurrences slots 0 entry = 0 := rfl

theorem occurrences_succ :
    occurrences slots (count + 1) entry =
      occurrences slots count entry + if slots count = some entry then 1 else 0 := by
  simp [occurrences, range_succ]

theorem occurrences_congr (same : ∀ index, index < count -> slots index = other index) :
    occurrences slots count entry = occurrences other count entry := by
  induction count with
  | zero => rfl
  | succ count ih =>
    rw [occurrences_succ, occurrences_succ, same count (Nat.lt_succ_self count),
      ih fun index below => same index (Nat.lt_succ_of_lt below)]

theorem occurrences_eq_zero :
    occurrences slots count entry = 0 <-> ∀ index, index < count -> slots index ≠ some entry := by
  simp [occurrences]

/-- A slot beyond the table does not count. -/
theorem occurrences_update_of_le (outside : count <= index) (value : Option Entry) :
    occurrences (update slots index value) count entry = occurrences slots count entry :=
  occurrences_congr fun _ below =>
    update_of_ne (Nat.ne_of_lt (Nat.lt_of_lt_of_le below outside)) _ _

/-- Writing a slot takes its old entry out and puts the new one in. -/
theorem occurrences_update (slots : Nat -> Option Entry) (inside : index < count)
    (value : Option Entry) (entry : Entry) :
    occurrences (update slots index value) count entry +
        (if slots index = some entry then 1 else 0) =
      occurrences slots count entry + if value = some entry then 1 else 0 := by
  induction count with
  | zero => cases inside
  | succ count ih =>
    rw [occurrences_succ, occurrences_succ]
    by_cases last : index = count
    · subst last
      rw [update_self, occurrences_update_of_le (Nat.le_refl index)]
      omega
    · have before : index < count := by omega
      rw [update_of_ne (Ne.symm last)]
      have earlier := ih before
      omega

/-- Empty slots at the end do not count. -/
theorem occurrences_extend {more : Nat} (longer : count <= more)
    (empty : ∀ index, count <= index -> slots index = none) :
    occurrences slots more entry = occurrences slots count entry := by
  induction more, longer using Nat.le_induction with
  | base => rfl
  | succ more longer ih => rw [occurrences_succ, ih, empty more longer, if_neg (by simp)]; rfl

theorem count_filterMap_range :
    ((List.range count).filterMap slots).count entry = occurrences slots count entry := by
  induction count with
  | zero => rfl
  | succ count ih =>
    rw [range_succ, filterMap_append, count_append, ih, occurrences_succ]
    cases held : slots count with
    | none => simp [held]
    | some other =>
      simp [held, count_singleton]

end

/-- At most one entry counts when any two that count are the same. -/
theorem countP_le_one_iff {Item : Type*} {items : List Item} (distinct : items.Nodup)
    {counts : Item -> Bool} :
    items.countP counts <= 1 <-> ∀ first second, first ∈ items -> second ∈ items ->
      counts first = true -> counts second = true -> first = second := by
  rw [countP_eq_length_filter]
  have members : ∀ item, item ∈ items.filter counts <-> item ∈ items ∧ counts item = true :=
    fun item => mem_filter
  have distinctToo := distinct.filter counts
  constructor
  · intro few first second isFirst isSecond countsFirst countsSecond
    have listedFirst := (members first).mpr ⟨isFirst, countsFirst⟩
    have listedSecond := (members second).mpr ⟨isSecond, countsSecond⟩
    match items.filter counts, few, listedFirst, listedSecond with
    | [only], _, isOnly, isOnlyToo =>
      exact (mem_singleton.mp isOnly).trans (mem_singleton.mp isOnlyToo).symm
  · intro same
    match matching : items.filter counts, distinctToo with
    | [], _ => exact Nat.zero_le 1
    | [only], _ => exact Nat.le_refl 1
    | first :: second :: rest, distinctThree =>
      have isFirst := (members first).mp (matching ▸ mem_cons_self)
      have isSecond := (members second).mp
        (matching ▸ mem_cons_of_mem _ mem_cons_self)
      have equal := same first second isFirst.1 isSecond.1 isFirst.2 isSecond.2
      exact absurd (equal ▸ mem_cons_self) (nodup_cons.mp distinctThree).1

/-! ## Tables over a finite type -/

section

variable {Place Value : Type*} [Fintype Place] [DecidableEq Place] [DecidableEq Value]

/-- How many places hold the value. -/
def tally (table : Place -> Value) (value : Value) : Nat :=
  (Finset.univ.filter fun place => table place = value).card

/-- The place itself and all the others. -/
theorem tally_eq_erase (table : Place -> Value) (place : Place) (value : Value) :
    tally table value =
      ((Finset.univ.erase place).filter fun other => table other = value).card +
        if table place = value then 1 else 0 := by
  have whole : (Finset.univ : Finset Place) = insert place (Finset.univ.erase place) :=
    (Finset.insert_erase (Finset.mem_univ place)).symm
  rw [tally, whole, Finset.filter_insert, Finset.erase_insert_eq_erase]
  by_cases holds : table place = value
  · rw [if_pos holds, if_pos holds, Finset.card_insert_of_notMem (by simp), Finset.erase_idem]
  · rw [if_neg holds, if_neg holds, Finset.erase_idem, Nat.add_zero]

theorem tally_update (table : Place -> Value) (place : Place) (new value : Value) :
    tally (update table place new) value + (if table place = value then 1 else 0) =
      tally table value + if new = value then 1 else 0 := by
  rw [tally_eq_erase table place, tally_eq_erase (update table place new) place,
    update_self]
  have others : ((Finset.univ.erase place).filter fun other =>
        update table place new other = value) =
      (Finset.univ.erase place).filter fun other => table other = value := by
    apply Finset.filter_congr
    intro other member
    rw [update_of_ne (Finset.ne_of_mem_erase member)]
  rw [others]
  omega

end

end Foundation
end Codebank
