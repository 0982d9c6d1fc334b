import Mathlib.Logic.Basic

namespace Codebank
namespace Foundation

/-!
# Sight along lines

A direction takes a place to the next one, until the line ends.  A place sees the first
occupied place of each of its lines, and the places seen can be kept in a cache.  The last
section says how one place has to be patched into the cache and out of it again: only the
places that it sees itself are concerned.
-/

universe u v

section

variable {Place : Type u}

/-- The line leads from one place to another with only free places between them. -/
inductive Clear (step : Place -> Option Place) (free : Place -> Prop) : Place -> Place -> Prop where
  | next {place target : Place} : step place = some target -> Clear step free place target
  | further {place middle target : Place} : step place = some middle -> free middle ->
      Clear step free middle target -> Clear step free place target

/-- The first occupied place of the line. -/
def Sees (step : Place -> Option Place) (occupied : Place -> Prop) (place target : Place) : Prop :=
  Clear step (fun middle => ¬ occupied middle) place target ∧ occupied target

variable {step back : Place -> Option Place} {free : Place -> Prop}
  {occupied after : Place -> Prop} {place middle target : Place}

theorem Clear.concat (clear : Clear step free place middle) (isFree : free middle)
    (last : step middle = some target) : Clear step free place target := by
  induction clear with
  | next first => exact .further first isFree (.next last)
  | further first between _ ih => exact .further first between (ih isFree last)

/-- A clear line is clear in the other direction. -/
theorem Clear.reverse
    (inverse : ∀ first second, step first = some second -> back second = some first)
    (clear : Clear step free place target) : Clear back free target place := by
  induction clear with
  | next first => exact .next (inverse _ _ first)
  | further first between _ ih => exact ih.concat between (inverse _ _ first)

variable {rank : Place -> Nat}

theorem Clear.descends
    (lower : ∀ first second, step first = some second -> rank second < rank first)
    (clear : Clear step free place target) : rank target < rank place := by
  induction clear with
  | next first => exact lower _ _ first
  | further first _ _ ih => exact Nat.lt_trans ih (lower _ _ first)

theorem Sees.unique {other : Place} (sees : Sees step occupied place target)
    (seesToo : Sees step occupied place other) : target = other := by
  rcases sees with ⟨clear, taken⟩
  rcases seesToo with ⟨clearToo, takenToo⟩
  induction clear with
  | next first =>
    cases clearToo with
    | next firstToo => exact Option.some.inj (first.symm.trans firstToo)
    | further firstToo between _ =>
      cases Option.some.inj (first.symm.trans firstToo)
      exact absurd taken between
  | further first between _ ih =>
    cases clearToo with
    | next firstToo =>
      cases Option.some.inj (first.symm.trans firstToo)
      exact absurd takenToo between
    | further firstToo _ rest =>
      cases Option.some.inj (first.symm.trans firstToo)
      exact ih taken rest

/-- A place behind a free one is seen from both. -/
theorem Sees.through (clear : Clear step (fun place => ¬ occupied place) place middle)
    (between : ¬ occupied middle) :
    Sees step occupied place target <-> Sees step occupied middle target := by
  induction clear with
  | next first =>
    constructor
    · rintro ⟨clearToo, taken⟩
      cases clearToo with
      | next firstToo =>
        cases Option.some.inj (first.symm.trans firstToo)
        exact absurd taken between
      | further firstToo _ rest =>
        cases Option.some.inj (first.symm.trans firstToo)
        exact ⟨rest, taken⟩
    · rintro ⟨rest, taken⟩
      exact ⟨.further first between rest, taken⟩
  | further first isFree _ ih =>
    rw [<- ih between]
    constructor
    · rintro ⟨clearToo, taken⟩
      cases clearToo with
      | next firstToo =>
        cases Option.some.inj (first.symm.trans firstToo)
        exact absurd taken isFree
      | further firstToo _ rest =>
        cases Option.some.inj (first.symm.trans firstToo)
        exact ⟨rest, taken⟩
    · rintro ⟨rest, taken⟩
      exact ⟨.further first isFree rest, taken⟩

/-! ### One more place is occupied -/

section

variable {added : Place} (adds : ∀ place, after place <-> place = added ∨ occupied place)

include adds

/-- The added place itself does not hide what leads to it. -/
theorem clear_occupied_iff :
    Clear step (fun place => ¬ after place) place added <->
      Clear step (fun place => ¬ occupied place) place added := by
  constructor
  · intro clear
    induction clear with
    | next first => exact .next first
    | further first between _ ih =>
      exact .further first (fun taken => between ((adds _).mpr (.inr taken))) (ih adds)
  · intro clear
    generalize goal : added = final at clear
    induction clear with
    | next first => exact .next first
    | @further start between final first isFree _ ih =>
      by_cases same : between = added
      · subst same
        subst goal
        exact .next first
      · refine .further first (fun taken => ?_) (ih goal)
        exact ((adds between).mp taken).elim same isFree

/-- A place sees the added one when the line to it is clear, and what it saw otherwise. -/
theorem sees_occupied_iff :
    Sees step after place target <->
      target = added ∧ Clear step (fun place => ¬ occupied place) place added ∨
        Sees step occupied place target ∧
          ¬ Clear step (fun place => ¬ occupied place) place added := by
  constructor
  · rintro ⟨clear, taken⟩
    by_cases line : Clear step (fun place => ¬ occupied place) place added
    · left
      have seesAdded : Sees step after place added :=
        ⟨(clear_occupied_iff adds).mpr line, (adds added).mpr (.inl rfl)⟩
      exact ⟨Sees.unique ⟨clear, taken⟩ seesAdded, line⟩
    · right
      refine ⟨⟨?_, ?_⟩, line⟩
      · induction clear with
        | next first => exact .next first
        | further first between _ ih =>
          have isFree := fun before => between ((adds _).mpr (.inr before))
          exact .further first isFree
            (ih taken fun rest => line (.further first isFree rest))
      · rcases (adds target).mp taken with same | before
        · subst same
          exact absurd ((clear_occupied_iff adds).mp clear) line
        · exact before
  · rintro (⟨rfl, line⟩ | ⟨⟨clear, taken⟩, hidden⟩)
    · exact ⟨(clear_occupied_iff adds).mpr line, (adds target).mpr (.inl rfl)⟩
    · refine ⟨?_, (adds target).mpr (.inr taken)⟩
      induction clear with
      | next first => exact .next first
      | further first between _ ih =>
        refine .further first (fun now => ?_)
          (ih (fun rest => hidden (.further first between rest)) taken)
        rcases (adds _).mp now with same | before
        · subst same
          exact hidden (.next first)
        · exact between before

end

/-! ### Looking for it -/

/-- Follow the line for a number of steps at most, up to the first hit. -/
def firstHit (step : Place -> Option Place) (hit : Place -> Bool) : Nat -> Place -> Option Place
  | 0, _ => none
  | steps + 1, place =>
    match step place with
    | none => none
    | some next => if hit next then some next else firstHit step hit steps next

/-- The search ends with the first occupied place when the line is not longer. -/
theorem firstHit_eq_some {hit : Place -> Bool}
    (descends : ∀ first second, step first = some second -> rank second < rank first)
    {steps : Nat} (enough : rank place <= steps) :
    firstHit step hit steps place = some target <->
      Sees step (fun place => hit place = true) place target := by
  induction steps generalizing place with
  | zero =>
    constructor
    · intro found
      cases found
    · rintro ⟨clear, _⟩
      cases clear with
      | next first | further first _ _ => exact absurd (descends _ _ first) (by omega)
  | succ steps ih =>
    rw [firstHit]
    cases first : step place with
    | none =>
      constructor
      · intro found
        cases found
      · rintro ⟨clear, _⟩
        cases clear with
        | next firstToo | further firstToo _ _ => rw [first] at firstToo; cases firstToo
    | some next =>
      have lower := descends _ _ first
      change (if hit next = true then some next else firstHit step hit steps next) = _ <-> _
      by_cases taken : hit next = true
      · rw [if_pos taken, Option.some.injEq]
        have sees : Sees step (fun place => hit place = true) place next := ⟨.next first, taken⟩
        constructor
        · rintro rfl
          exact sees
        · exact sees.unique
      · rw [if_neg taken, ih (by omega)]
        exact (Sees.through (.next first) taken).symm

end

/-! ## A cache of what is seen -/

section

variable {Place : Type u} {Direction : Type v} {step : Direction -> Place -> Option Place}
  {opposite : Direction -> Direction} {occupied after : Place -> Prop}
  {cache : Place -> Direction -> Option Place} {seen : Direction -> Option Place} {changed : Place}

/-- Occupied places have what they see in the cache, the others nothing. -/
structure Caches (step : Direction -> Place -> Option Place) (occupied : Place -> Prop)
    (cache : Place -> Direction -> Option Place) : Prop where
  sees : ∀ {place}, occupied place -> ∀ direction target,
    cache place direction = some target <-> Sees (step direction) occupied place target
  empty : ∀ {place}, ¬ occupied place -> ∀ direction, cache place direction = none

variable (inverse : ∀ direction first second, step direction first = some second ->
    step (opposite direction) second = some first)
  (involutive : ∀ direction, opposite (opposite direction) = direction)

include inverse involutive

/-- An occupied place is seen from where it sees. -/
theorem sees_opposite_iff {direction : Direction} {place target : Place} (taken : occupied place) :
    Sees (step (opposite direction)) occupied target place <->
      Clear (step direction) (fun place => ¬ occupied place) place target := by
  constructor
  · rintro ⟨clear, _⟩
    refine clear.reverse fun first second stepped => ?_
    rw [<- involutive direction]
    exact inverse _ _ _ stepped
  · intro clear
    exact ⟨clear.reverse (inverse direction), taken⟩

variable [DecidableEq Place]

/-- A place is added: it gets what it sees, and is what the places it sees get. -/
theorem Caches.add (exact : Caches step occupied cache)
    (adds : ∀ place, after place <-> place = changed ∨ occupied place)
    (sight : ∀ direction target,
      seen direction = some target <-> Sees (step direction) after changed target) :
    Caches step after fun place direction =>
      if place = changed then seen direction
      else if seen (opposite direction) = some place then some changed
      else cache place direction where
  sees {place} taken direction target := by
    by_cases same : place = changed
    · subst same
      rw [if_pos rfl]
      exact sight direction target
    · rw [if_neg same]
      have before : occupied place := ((adds place).mp taken).resolve_left same
      have facing : seen (opposite direction) = some place <->
          Clear (step direction) (fun place => ¬ occupied place) place changed := by
        rw [sight, sees_opposite_iff inverse involutive taken, clear_occupied_iff adds]
      rw [sees_occupied_iff adds, <- facing]
      by_cases inSight : seen (opposite direction) = some place
      · rw [if_pos inSight, Option.some.injEq]
        simp [inSight, eq_comm]
      · rw [if_neg inSight, exact.sees before]
        simp [inSight]
  empty {place} isFree direction := by
    have different : place ≠ changed := fun same => isFree ((adds place).mpr (.inl same))
    have before : ¬ occupied place := fun taken => isFree ((adds place).mpr (.inr taken))
    have hidden : ¬ seen (opposite direction) = some place := fun found =>
      isFree ((sight _ _).mp found).2
    rw [if_neg different, if_neg hidden]
    exact exact.empty before direction

/-- A place is taken away: the places it sees get what it sees on the other side. -/
theorem Caches.remove (exact : Caches step occupied cache)
    (removes : ∀ place, occupied place <-> place = changed ∨ after place)
    (isFree : ¬ after changed) (sight : ∀ direction target,
      seen direction = some target <-> Sees (step direction) after changed target) :
    Caches step after fun place direction =>
      if place = changed then none
      else if seen (opposite direction) = some place then seen direction
      else cache place direction where
  sees {place} taken direction target := by
    have different : place ≠ changed := fun same => isFree (same ▸ taken)
    have before : occupied place := (removes place).mpr (.inr taken)
    have facing : seen (opposite direction) = some place <->
        Clear (step direction) (fun place => ¬ after place) place changed := by
      rw [sight, sees_opposite_iff inverse involutive taken]
    rw [if_neg different]
    by_cases inSight : seen (opposite direction) = some place
    · rw [if_pos inSight, sight]
      exact (Sees.through (facing.mp inSight) isFree).symm
    · rw [if_neg inSight, exact.sees before, sees_occupied_iff removes, <- facing]
      simp [inSight]
  empty {place} free direction := by
    by_cases same : place = changed
    · rw [if_pos same]
    · have before : ¬ occupied place := fun taken => ((removes place).mp taken).elim same free
      have hidden : ¬ seen (opposite direction) = some place := fun found =>
        free ((sight _ _).mp found).2
      rw [if_neg same, if_neg hidden]
      exact exact.empty before direction

end

end Foundation
end Codebank
