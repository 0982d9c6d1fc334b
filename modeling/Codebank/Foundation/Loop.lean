import Mathlib.Data.List.AList

namespace Codebank
namespace Foundation

open AList List

/-!
# Loops that may fail

A `for` loop whose body may raise an exception is a monadic fold over the list
of keys.  The rule below is the usual one: an invariant that mentions the keys
done so far, kept by the body, holds of all keys at the end.  Dictionaries are
Mathlib's association lists.
-/

universe u v w

/-- A finite map with keys in `K` and values in `V`. -/
abbrev Dict (K : Type u) (V : Type v) := AList (fun _ : K => V)

theorem lookup_insert_if {K : Type u} {V : Type v} [DecidableEq K] (dict : Dict K V)
    (key : K) (value : V) (other : K) :
    (dict.insert key value).lookup other =
      if other = key then some value else dict.lookup other := by
  by_cases same : other = key
  · subst same
    rw [lookup_insert, if_pos rfl]
  · rw [lookup_insert_ne same, if_neg same]

theorem lookup_erase_if {K : Type u} {V : Type v} [DecidableEq K] (dict : Dict K V)
    (key other : K) :
    (dict.erase key).lookup other = if other = key then none else dict.lookup other := by
  by_cases same : other = key
  · subst same
    rw [lookup_erase, if_pos rfl]
  · rw [lookup_erase_ne same, if_neg same]

section

variable {Key : Type u} {State : Type w} {keys : List Key} {start : State}
  {body : State -> Key -> Option State}

/-- The key that a loop over distinct keys comes to next. -/
theorem next_key (nodup : keys.Nodup) {done rest : List Key} {key : Key}
    (whole : done ++ key :: rest = keys) :
    key ∈ keys ∧ key ∉ done ∧ done ++ [key] ++ rest = keys := by
  subst whole
  refine ⟨mem_append_right _ mem_cons_self, fun member => ?_, by simp⟩
  exact (List.nodup_append.mp nodup).2.2 key member key mem_cons_self rfl

section

variable (Invariant : List Key -> State -> Prop)

include Invariant

/-- What holds of the keys done so far, and is kept by each turn of a loop over
distinct keys, holds of all keys after the loop. -/
theorem foldlM_invariant (nodup : keys.Nodup) {final : State} (initially : Invariant [] start)
    (turn : ∀ done key state next, key ∈ keys -> key ∉ done -> Invariant done state ->
      body state key = some next -> Invariant (done ++ [key]) next)
    (finished : keys.foldlM body start = some final) : Invariant keys final := by
  suffices ∀ (rest done : List Key) (state : State), done ++ rest = keys ->
      Invariant done state -> rest.foldlM body state = some final -> Invariant keys final from
    this keys [] start rfl initially finished
  intro rest
  induction rest with
  | nil =>
    intro done state whole holds last
    cases last
    rw [append_nil] at whole
    exact whole ▸ holds
  | cons key rest ih =>
    intro done state whole holds last
    rw [foldlM_cons] at last
    cases first : body state key with
    | none => rw [first] at last; cases last
    | some next =>
      rw [first] at last
      rcases next_key nodup whole with ⟨member, fresh, whole⟩
      exact ih (done ++ [key]) next whole (turn done key state next member fresh holds first) last

/-- A loop whose turns all succeed under the invariant succeeds. -/
theorem foldlM_succeeds (initially : Invariant [] start)
    (turn : ∀ done key rest state, done ++ key :: rest = keys -> Invariant done state ->
      ∃ next, body state key = some next ∧ Invariant (done ++ [key]) next) :
    ∃ final, keys.foldlM body start = some final ∧ Invariant keys final := by
  suffices ∀ (rest done : List Key) (state : State), done ++ rest = keys ->
      Invariant done state -> ∃ final, rest.foldlM body state = some final ∧
        Invariant keys final from this keys [] start rfl initially
  intro rest
  induction rest with
  | nil =>
    intro done state whole holds
    rw [append_nil] at whole
    exact ⟨state, rfl, whole ▸ holds⟩
  | cons key rest ih =>
    intro done state whole holds
    rcases turn done key rest state whole holds with ⟨next, first, after⟩
    rw [foldlM_cons, first]
    exact ih (done ++ [key]) next (append_assoc .. ▸ whole) after

theorem foldlM_total (nodup : keys.Nodup) (initially : Invariant [] start)
    (turn : ∀ done key state, key ∈ keys -> key ∉ done -> Invariant done state ->
      ∃ next, body state key = some next ∧ Invariant (done ++ [key]) next) :
    ∃ final, keys.foldlM body start = some final ∧ Invariant keys final := by
  refine foldlM_succeeds Invariant initially fun done key rest state whole holds => ?_
  rcases next_key nodup whole with ⟨member, fresh, _⟩
  exact turn done key state member fresh holds

/-- The invariant rule for a loop that cannot fail. -/
theorem foldl_invariant {body : State -> Key -> State} (nodup : keys.Nodup)
    (initially : Invariant [] start)
    (turn : ∀ done key state, key ∈ keys -> key ∉ done -> Invariant done state ->
      Invariant (done ++ [key]) (body state key)) : Invariant keys (keys.foldl body start) := by
  have succeeds : ∀ (rest : List Key) (state : State),
      rest.foldlM (fun current key => some (body current key)) state =
        some (rest.foldl body state) := by
    intro rest
    induction rest with
    | nil => exact fun _ => rfl
    | cons key rest ih => exact fun state => ih (body state key)
  refine foldlM_invariant Invariant nodup initially ?_ (succeeds keys start)
  intro done key state next member fresh holds same
  cases same
  exact turn done key state member fresh holds

end

/-- A loop whose body may return; it may also fail.  The flag tells whether it returned. -/
def loopUntil (body : Key -> State -> Option (Bool × State)) :
    List Key -> State -> Option (Bool × State)
  | [], state => some (false, state)
  | key :: rest, state =>
    match body key state with
    | none => none
    | some (true, final) => some (true, final)
    | some (false, next) => loopUntil body rest next

theorem loopUntil_cons {body : Key -> State -> Option (Bool × State)} {key : Key} {rest : List Key}
    {state next : State} {returned : Bool} (turn : body key state = some (returned, next)) :
    loopUntil body (key :: rest) state =
      if returned then some (true, next) else loopUntil body rest next := by
  rw [loopUntil, turn]
  cases returned <;> rfl

end

end Foundation
end Codebank
