import Mathlib.Algebra.Order.Ring.Nat
import Mathlib.Data.List.Chain

namespace Codebank
namespace Foundation
namespace RunLength

open List

/-!
# Runs of equal values

A list of values is written as runs, each a value with its number of
repetitions.  Runs are maximal when none is empty and neighbours differ; a list
of values has at most one such writing.  The second half says which maximal runs
stand for a list after one value in the middle of a run has been replaced.
-/

universe u

variable {Value : Type u} {runs : List (Value × Nat)} {value : Value} {count : Nat}

/-- The values that the runs stand for. -/
def expand (runs : List (Value × Nat)) : List Value :=
  runs.flatMap fun run => replicate run.2 run.1

@[simp] theorem expand_nil : expand ([] : List (Value × Nat)) = [] := rfl

@[simp] theorem expand_cons (run : Value × Nat) (runs : List (Value × Nat)) :
    expand (run :: runs) = replicate run.2 run.1 ++ expand runs := rfl

@[simp] theorem expand_append (left right : List (Value × Nat)) :
    expand (left ++ right) = expand left ++ expand right :=
  flatMap_append

theorem length_expand (runs : List (Value × Nat)) :
    (expand runs).length = (runs.map Prod.snd).sum := by
  induction runs with
  | nil => rfl
  | cons run runs ih =>
    rw [expand_cons, length_append, length_replicate, ih]
    rfl

def Differ (first second : Value × Nat) : Prop :=
  first.1 ≠ second.1

structure Maximal (runs : List (Value × Nat)) : Prop where
  positive : ∀ run, run ∈ runs -> 0 < run.2
  separated : runs.IsChain Differ

theorem maximal_nil : Maximal ([] : List (Value × Nat)) :=
  ⟨fun _ member => absurd member not_mem_nil, List.IsChain.nil⟩

theorem maximal_append {left right : List (Value × Nat)} :
    Maximal (left ++ right) <-> Maximal left ∧ Maximal right ∧
      ∀ last, last ∈ left.getLast? -> ∀ first, first ∈ right.head? ->
        last.1 ≠ first.1 := by
  constructor
  · intro maximal
    have chains := isChain_append.mp maximal.separated
    exact ⟨⟨fun run member => maximal.positive run (mem_append_left _ member), chains.1⟩,
      ⟨fun run member => maximal.positive run (mem_append_right _ member), chains.2.1⟩,
      chains.2.2⟩
  · rintro ⟨maximalLeft, maximalRight, apart⟩
    refine ⟨fun run member => ?_, isChain_append.mpr
      ⟨maximalLeft.separated, maximalRight.separated, apart⟩⟩
    rcases mem_append.mp member with inLeft | inRight
    · exact maximalLeft.positive run inLeft
    · exact maximalRight.positive run inRight

variable {run : Value × Nat}

theorem maximal_cons :
    Maximal (run :: runs) <-> 0 < run.2 ∧ (∀ first, first ∈ runs.head? -> run.1 ≠ first.1) ∧
      Maximal runs := by
  constructor
  · intro maximal
    have chain := isChain_cons.mp maximal.separated
    exact ⟨maximal.positive run mem_cons_self, chain.1,
      fun other member => maximal.positive other (mem_cons_of_mem _ member), chain.2⟩
  · rintro ⟨positive, apart, maximal⟩
    refine ⟨fun other member => ?_, isChain_cons.mpr ⟨apart, maximal.separated⟩⟩
    rcases mem_cons.mp member with rfl | inside
    · exact positive
    · exact maximal.positive other inside

theorem maximal_singleton (positive : 0 < count) : Maximal [(value, count)] := by
  refine maximal_cons.mpr ⟨positive, ?_, maximal_nil⟩
  intro first here
  cases here

/-! ## Maximal runs are determined by what they stand for -/

theorem Maximal.head?_expand (maximal : Maximal runs) :
    (expand runs).head? = runs.head?.map Prod.fst := by
  cases runs with
  | nil => rfl
  | cons run rest =>
    rcases run with ⟨value, count⟩
    have positive : 0 < count := maximal.positive _ mem_cons_self
    cases count with
    | zero => exact absurd positive (Nat.lt_irrefl 0)
    | succ count => rfl

variable {number : Nat}

/-- Two equal lists that start with a full run start with the same one. -/
theorem leading_run_eq {other : Value} {rest remaining : List Value} (started : 0 < count)
    (begun : 0 < number) (stops : rest.head? ≠ some value) (ends : remaining.head? ≠ some other)
    (same : replicate count value ++ rest = replicate number other ++ remaining) :
    value = other ∧ count = number ∧ rest = remaining := by
  induction count generalizing number with
  | zero => exact absurd started (Nat.lt_irrefl 0)
  | succ count ih =>
    cases number with
    | zero => exact absurd begun (Nat.lt_irrefl 0)
    | succ number =>
      simp only [replicate_succ, cons_append, List.cons.injEq] at same
      rcases same with ⟨rfl, same⟩
      cases count with
      | zero =>
        cases number with
        | zero => exact ⟨rfl, rfl, same⟩
        | succ number => exact absurd (congrArg List.head? same) stops
      | succ count =>
        cases number with
        | zero => exact absurd (congrArg List.head? same).symm ends
        | succ number =>
          rcases ih (Nat.succ_pos count) (Nat.succ_pos number) same with ⟨-, counts, rests⟩
          exact ⟨rfl, congrArg Nat.succ counts, rests⟩

theorem Maximal.rest_stops (maximal : Maximal (run :: runs)) :
    (expand runs).head? ≠ some run.1 := by
  rcases maximal_cons.mp maximal with ⟨-, apart, rest⟩
  rw [rest.head?_expand]
  cases runs with
  | nil => exact Option.some_ne_none run.1 |>.symm
  | cons first others =>
    intro same
    exact apart first rfl (Option.some.inj same).symm

theorem Maximal.unique {first second : List (Value × Nat)} (maximal : Maximal first)
    (maximalToo : Maximal second) (same : expand first = expand second) : first = second := by
  induction first generalizing second with
  | nil =>
    have empty := maximalToo.head?_expand
    rw [<- same] at empty
    cases second with
    | nil => rfl
    | cons run runs => cases empty
  | cons run runs ih =>
    cases second with
    | nil =>
      have empty := maximal.head?_expand
      rw [same] at empty
      cases empty
    | cons other others =>
      rcases leading_run_eq (maximal.positive _ mem_cons_self)
        (maximalToo.positive _ mem_cons_self) maximal.rest_stops maximalToo.rest_stops
        same with ⟨values, counts, rests⟩
      rw [Prod.ext values counts, ih (maximal_cons.mp maximal).2.2
        (maximal_cons.mp maximalToo).2.2 rests]

/-! ## Growing at the end -/

theorem Maximal.lengthen (maximal : Maximal (runs ++ [(value, count)])) (positive : 0 < number) :
    Maximal (runs ++ [(value, number)]) := by
  rcases maximal_append.mp maximal with ⟨before, -, apart⟩
  refine maximal_append.mpr ⟨before, maximal_singleton positive, ?_⟩
  intro last member first here
  cases here
  exact apart last member (value, count) rfl

theorem Maximal.start {next : Value} (maximal : Maximal (runs ++ [(value, count)]))
    (different : value ≠ next) : Maximal (runs ++ [(value, count)] ++ [(next, 1)]) := by
  refine maximal_append.mpr ⟨maximal, maximal_singleton Nat.one_pos, ?_⟩
  intro last member first here
  cases here
  rw [getLast?_concat] at member
  cases member
  exact different

/-! ## Replacing one value -/

/-- The runs end in exactly so many copies of a value, after the base. -/
structure Trailing (value : Value) (runs base : List (Value × Nat)) (copies : Nat) : Prop where
  expanded : expand runs = expand base ++ replicate copies value
  maximal : Maximal base
  apart : ∀ last, last ∈ base.getLast? -> last.1 ≠ value

/-- The runs start with exactly so many copies of a value, before the base. -/
structure Leading (value : Value) (runs base : List (Value × Nat)) (copies : Nat) : Prop where
  expanded : expand runs = replicate copies value ++ expand base
  maximal : Maximal base
  apart : ∀ first, first ∈ base.head? -> value ≠ first.1

theorem trailing_self (maximal : Maximal runs)
    (apart : ∀ last, last ∈ runs.getLast? -> last.1 ≠ value) : Trailing value runs runs 0 :=
  ⟨(append_nil _).symm, maximal, apart⟩

theorem trailing_concat {copies : Nat} (maximal : Maximal (runs ++ [(value, copies)])) :
    Trailing value (runs ++ [(value, copies)]) runs copies := by
  rcases maximal_append.mp maximal with ⟨before, -, apart⟩
  refine ⟨?_, before, fun last member => apart last member _ rfl⟩
  rw [expand_append, expand_cons, expand_nil, append_nil]

theorem leading_self (maximal : Maximal runs)
    (apart : ∀ first, first ∈ runs.head? -> value ≠ first.1) : Leading value runs runs 0 :=
  ⟨rfl, maximal, apart⟩

theorem leading_cons {copies : Nat} (maximal : Maximal ((value, copies) :: runs)) :
    Leading value ((value, copies) :: runs) runs copies :=
  ⟨rfl, (maximal_cons.mp maximal).2.2, (maximal_cons.mp maximal).2.1⟩

section

variable {old value : Value} {left right : List (Value × Nat)} {offset : Nat}

theorem expand_getElem? (within : offset < count) :
    (expand (left ++ (old, count) :: right))[(expand left).length + offset]? = some old := by
  rw [expand_append, getElem?_append_right (Nat.le_add_right _ _), Nat.add_sub_cancel_left,
    expand_cons, getElem?_append_left (by rwa [length_replicate]),
    getElem?_replicate, if_pos within]

theorem expand_set (within : offset < count) :
    (expand (left ++ (old, count) :: right)).set ((expand left).length + offset) value =
      expand left ++ (replicate offset old ++
        value :: (replicate (count - offset - 1) old ++ expand right)) := by
  have split : replicate count old =
      replicate offset old ++ old :: replicate (count - offset - 1) old := by
    rw [<- replicate_succ, replicate_append_replicate]
    congr 1
    omega
  rw [expand_append, expand_cons, set_append_right _ _ (Nat.le_add_right _ _),
    Nat.add_sub_cancel_left, split, append_assoc,
    set_append_right _ _ (Nat.le_of_eq length_replicate), length_replicate,
    Nat.sub_self]
  rfl

/-- What the runs after a replacement have to be. -/
structure Replaced (runs : List (Value × Nat)) (position : Nat) (value : Value)
    (after : List (Value × Nat)) : Prop where
  maximal : Maximal after
  expanded : expand after = (expand runs).set position value

variable {before behind : List (Value × Nat)} {copiesLeft copiesRight : Nat}

/-- A run of one value disappears between its neighbours. -/
theorem replaced_single (trailing : Trailing value left before copiesLeft)
    (leading : Leading value right behind copiesRight) :
    Replaced (left ++ (old, 1) :: right) ((expand left).length + 0) value
      (before ++ (value, 1 + copiesLeft + copiesRight) :: behind) := by
  refine ⟨maximal_append.mpr ⟨trailing.maximal, maximal_cons.mpr
    ⟨by omega, leading.apart, leading.maximal⟩, ?_⟩, ?_⟩
  · intro last member first here
    cases here
    exact trailing.apart last member
  · rw [expand_set Nat.one_pos, expand_append, expand_cons, trailing.expanded, leading.expanded,
      Nat.add_comm 1, Nat.add_assoc, <- replicate_append_replicate, Nat.add_comm 1,
      replicate_succ]
    simp

/-- The first value of a longer run goes over to the left. -/
theorem replaced_first (more : 1 < count) (different : old ≠ value)
    (maximal : Maximal (left ++ (old, count) :: right))
    (trailing : Trailing value left before copiesLeft) :
    Replaced (left ++ (old, count) :: right) ((expand left).length + 0) value
      (before ++ (value, 1 + copiesLeft) :: (old, count - 1) :: right) := by
  have rest := maximal_cons.mp (maximal_append.mp maximal).2.1
  refine ⟨maximal_append.mpr ⟨trailing.maximal, maximal_cons.mpr ⟨by omega, ?_,
    maximal_cons.mpr ⟨Nat.sub_pos_of_lt more, rest.2.1, rest.2.2⟩⟩, ?_⟩, ?_⟩
  · intro first here
    cases here
    exact different.symm
  · intro last member first here
    cases here
    exact trailing.apart last member
  · rw [expand_set (Nat.lt_of_succ_lt more), expand_append, expand_cons, expand_cons,
      trailing.expanded, Nat.add_comm 1, <- replicate_append_replicate]
    simp

/-- The last value of a longer run goes over to the right. -/
theorem replaced_last (more : 1 < count) (different : old ≠ value)
    (maximal : Maximal (left ++ (old, count) :: right))
    (leading : Leading value right behind copiesRight) :
    Replaced (left ++ (old, count) :: right) ((expand left).length + (count - 1)) value
      (left ++ (old, count - 1) :: (value, 1 + copiesRight) :: behind) := by
  rcases maximal_append.mp maximal with ⟨maximalLeft, -, apart⟩
  refine ⟨maximal_append.mpr ⟨maximalLeft, maximal_cons.mpr ⟨Nat.sub_pos_of_lt more, ?_,
    maximal_cons.mpr ⟨by omega, leading.apart, leading.maximal⟩⟩, ?_⟩, ?_⟩
  · intro first here
    cases here
    exact different
  · intro last member first here
    cases here
    exact apart last member (old, count) rfl
  · have nothing : count - (count - 1) - 1 = 0 := by omega
    rw [expand_set (Nat.sub_lt_of_pos_le Nat.one_pos (Nat.le_of_lt more)), nothing,
      expand_append, expand_cons, expand_cons, leading.expanded, Nat.add_comm 1,
      replicate_succ]
    simp

/-- A value inside a run splits it. -/
theorem replaced_middle (inside : 0 < offset) (short : offset + 1 < count) (different : old ≠ value)
    (maximal : Maximal (left ++ (old, count) :: right)) :
    Replaced (left ++ (old, count) :: right) ((expand left).length + offset) value
      (left ++ (old, offset) :: (value, 1) :: (old, count - offset - 1) :: right) := by
  rcases maximal_append.mp maximal with ⟨maximalLeft, maximalRight, apart⟩
  have rest := maximal_cons.mp maximalRight
  refine ⟨maximal_append.mpr ⟨maximalLeft, maximal_cons.mpr ⟨inside, ?_, maximal_cons.mpr
    ⟨Nat.one_pos, ?_, maximal_cons.mpr ⟨by omega, rest.2.1, rest.2.2⟩⟩⟩, ?_⟩, ?_⟩
  · intro first here
    cases here
    exact different
  · intro first here
    cases here
    exact different.symm
  · intro last member first here
    cases here
    exact apart last member (old, count) rfl
  · rw [expand_set (by omega)]
    simp

end

/-! ## Merging runs -/

section

variable [DecidableEq Value]

/-- A run before others; if the first of them has the same value, the two become one. -/
def joinRun (run : Value × Nat) : List (Value × Nat) -> List (Value × Nat)
  | [] => [run]
  | next :: rest =>
    if run.1 = next.1 then (next.1, run.2 + next.2) :: rest else run :: next :: rest

def merge (runs : List (Value × Nat)) : List (Value × Nat) :=
  runs.foldr joinRun []

theorem expand_joinRun (run : Value × Nat) (runs : List (Value × Nat)) :
    expand (joinRun run runs) = replicate run.2 run.1 ++ expand runs := by
  cases runs with
  | nil => rfl
  | cons next rest =>
    rw [joinRun]
    split_ifs with same
    · rw [expand_cons, expand_cons, same, replicate_add, append_assoc]
    · rfl

theorem Maximal.joinRun {run : Value × Nat} (maximal : Maximal runs) (positive : 0 < run.2) :
    Maximal (joinRun run runs) := by
  cases runs with
  | nil => exact maximal_singleton positive
  | cons next rest =>
    rcases maximal_cons.mp maximal with ⟨-, apart, maximalRest⟩
    rw [RunLength.joinRun]
    split_ifs with same
    · exact maximal_cons.mpr ⟨Nat.add_pos_left positive next.2, apart, maximalRest⟩
    · refine maximal_cons.mpr ⟨positive, fun first here => ?_, maximal⟩
      cases here
      exact same

theorem expand_merge (runs : List (Value × Nat)) : expand (merge runs) = expand runs := by
  induction runs with
  | nil => rfl
  | cons run runs ih =>
    rw [merge, foldr_cons, expand_joinRun]
    exact congrArg (replicate run.2 run.1 ++ ·) ih

theorem maximal_merge (positive : ∀ run, run ∈ runs -> 0 < run.2) : Maximal (merge runs) := by
  induction runs with
  | nil => exact maximal_nil
  | cons run runs ih =>
    have rest := ih fun other member => positive other (mem_cons_of_mem run member)
    exact rest.joinRun (positive run mem_cons_self)

/-- Merging looks only at which values are equal. -/
theorem merge_map {Other : Type u} [DecidableEq Other] {rename : Value -> Other}
    (injective : Function.Injective rename) (runs : List (Value × Nat)) :
    merge (runs.map fun run => (rename run.1, run.2)) =
      (merge runs).map fun run => (rename run.1, run.2) := by
  have join : ∀ (run : Value × Nat) (others : List (Value × Nat)),
      joinRun (rename run.1, run.2) (others.map fun run => (rename run.1, run.2)) =
        (joinRun run others).map fun run => (rename run.1, run.2) := by
    intro run others
    cases others with
    | nil => rfl
    | cons next rest =>
      rw [map_cons, joinRun, joinRun]
      by_cases same : run.1 = next.1
      · rw [if_pos same, if_pos (congrArg rename same)]
        rfl
      · rw [if_neg same, if_neg fun alike => same (injective alike)]
        rfl
  induction runs with
  | nil => rfl
  | cons run runs ih =>
    have unfolded : merge (run :: runs) = joinRun run (merge runs) := rfl
    rw [unfolded, <- join, <- ih]
    rfl

end

end RunLength
end Foundation
end Codebank
