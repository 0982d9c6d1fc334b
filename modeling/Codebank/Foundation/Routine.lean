namespace Codebank
namespace Foundation

/-!
# Routines that change a state and may return early

A routine is a straight piece of imperative code: it changes a state, and then
either goes on with a value or returns at once with a code.  The state it leaves
is kept in both cases.  `Ends` is the postcondition of one such outcome, and the
rules below follow the shape of the code.
-/

/-- Code that goes on with a value or returns with a code, changing a state. -/
def Routine (State Code Value : Type) : Type :=
  State -> Except Code Value × State

namespace Routine

variable {State Code Value Other : Type}

/-- Run the rest of the code unless the first part returned. -/
def andThen (outcome : Except Code Value × State) (next : Value -> Routine State Code Other) :
    Except Code Other × State :=
  match outcome with
  | (.ok value, after) => next value after
  | (.error code, after) => (.error code, after)

instance : Monad (Routine State Code) where
  pure value := fun state => (.ok value, state)
  bind routine next := fun state => andThen (routine state) next

/-- Return from the code. -/
def leave (code : Code) : Routine State Code Value :=
  fun state => (.error code, state)

/-- Return from the code under a condition. -/
def leaveIf (condition : Prop) [Decidable condition] (code : Code) : Routine State Code Unit :=
  if condition then leave code else pure ()

/-- A statement that is run under a condition. -/
def whenever (condition : Prop) [Decidable condition] (routine : Routine State Code Unit) :
    Routine State Code Unit :=
  if condition then routine else pure ()

def inspect (view : State -> Value) : Routine State Code Value :=
  fun state => (.ok (view state), state)

def change (update : State -> State) : Routine State Code Unit :=
  fun state => (.ok (), update state)

/-- A loop that makes a fixed number of turns. -/
def turns (body : Routine State Code Unit) : Nat -> Routine State Code Unit
  | 0 => pure ()
  | count + 1 => do
      body
      turns body count

/-! ## One step of the code -/

section

variable (next : Value -> Routine State Code Other) (state : State)

theorem leave_apply (code : Code) :
    (leave code : Routine State Code Value) state = (.error code, state) := rfl

theorem bind_apply (routine : Routine State Code Value) :
    (routine >>= next) state = andThen (routine state) next := rfl

theorem inspect_bind (view : State -> Value) :
    (inspect view >>= next) state = next (view state) state := rfl

theorem change_bind (update : State -> State) (rest : Unit -> Routine State Code Other) :
    (change update >>= rest) state = rest () (update state) := rfl

theorem leaveIf_bind (condition : Prop) [Decidable condition] (code : Code)
    (rest : Unit -> Routine State Code Other) :
    (leaveIf condition code >>= rest) state =
      if condition then (.error code, state) else rest () state := by
  by_cases holds : condition
  · rw [leaveIf, if_pos holds, if_pos holds]
    rfl
  · rw [leaveIf, if_neg holds, if_neg holds]
    rfl

/-- A return whose condition does not hold is passed. -/
theorem leaveIf_skip {condition : Prop} [Decidable condition] {code : Code}
    {rest : Unit -> Routine State Code Other} {state : State} (holds : ¬ condition) :
    (leaveIf condition code >>= rest) state = rest () state := by
  rw [leaveIf_bind, if_neg holds]

theorem branch_apply (condition : Prop) [Decidable condition]
    (first second : Routine State Code Value) :
    (if condition then first else second) state =
      if condition then first state else second state := by
  by_cases holds : condition
  · rw [if_pos holds, if_pos holds]
  · rw [if_neg holds, if_neg holds]

end

/-! ## Postconditions -/

/-- The outcome meets the first condition when the code goes on, and the second
when it returned. -/
def Ends (outcome : Except Code Value × State) (post : Value -> State -> Prop)
    (left : Code -> State -> Prop) : Prop :=
  match outcome with
  | (.ok value, after) => post value after
  | (.error code, after) => left code after

section

variable {post : Value -> State -> Prop} {left : Code -> State -> Prop} {state : State}
  {outcome : Except Code Value × State} {code : Code}

theorem ends_error (holds : left code state) :
    Ends ((.error code, state) : Except Code Value × State) post left := holds

variable {next : Value -> Routine State Code Other} {last : Other -> State -> Prop}

theorem Ends.andThen (first : Ends outcome post left)
    (rest : ∀ value after, post value after -> Ends (next value after) last left) :
    Ends (andThen outcome next) last left := by
  rcases outcome with ⟨value | value, after⟩
  · exact first
  · exact rest value after first

theorem Ends.bind {routine : Routine State Code Value} (middle : Value -> State -> Prop)
    (first : Ends (routine state) middle left)
    (rest : ∀ value after, middle value after -> Ends (next value after) last left) :
    Ends ((routine >>= next) state) last left :=
  first.andThen rest

theorem Ends.mono {weaker : Value -> State -> Prop} {more : Code -> State -> Prop}
    (holds : Ends outcome post left)
    (values : ∀ value after, post value after -> weaker value after)
    (codes : ∀ code after, left code after -> more code after) : Ends outcome weaker more := by
  rcases outcome with ⟨code | value, after⟩
  · exact codes code after holds
  · exact values value after holds

theorem Ends.and {other : Value -> State -> Prop} {alsoLeft : Code -> State -> Prop}
    (first : Ends outcome post left) (second : Ends outcome other alsoLeft) :
    Ends outcome (fun value after => post value after ∧ other value after)
      (fun code after => left code after ∧ alsoLeft code after) := by
  rcases outcome with ⟨code | value, after⟩
  · exact ⟨first, second⟩
  · exact ⟨first, second⟩

/-- What holds in both cases holds of the state left. -/
theorem Ends.after {Holds : State -> Prop} (ends : Ends outcome (fun _ => Holds) (fun _ => Holds)) :
    Holds outcome.2 := by
  rcases outcome with ⟨code | value, after⟩
  · exact ends
  · exact ends

variable {condition : Prop}

theorem Ends.leaveIf [Decidable condition] {rest : Unit -> Routine State Code Value}
    (returned : condition -> left code state)
    (passed : ¬ condition -> Ends (rest () state) post left) :
    Ends ((Routine.leaveIf condition code >>= rest) state) post left := by
  rw [leaveIf_bind]
  by_cases holds : condition
  · rw [if_pos holds]
    exact returned holds
  · rw [if_neg holds]
    exact passed holds

/-- What holds before a loop and is kept by each of its turns holds at its end. -/
theorem Ends.turns {body : Routine State Code Unit} (Invariant : Nat -> State -> Prop)
    (turn : ∀ remaining state, Invariant (remaining + 1) state ->
      Ends (body state) (fun _ => Invariant remaining) left)
    {count : Nat} (holds : Invariant count state) :
    Ends (turns body count state) (fun _ => Invariant 0) left := by
  induction count generalizing state with
  | zero => exact holds
  | succ count ih => exact (turn count state holds).andThen (fun _ _ kept => ih kept)

end

/-! ## Invariants -/

section

variable {Invariant : State -> Prop}

/-- The code keeps an invariant, whether it returns or not. -/
def Keeps (Invariant : State -> Prop) (routine : Routine State Code Value) : Prop :=
  ∀ state, Invariant state ->
    Ends (routine state) (fun _ => Invariant) (fun _ => Invariant)

theorem keeps_pure (value : Value) : Keeps Invariant (pure value : Routine State Code Value) :=
  fun _ holds => holds

theorem keeps_leave (code : Code) : Keeps Invariant (leave code : Routine State Code Value) :=
  fun _ holds => holds

theorem keeps_inspect (view : State -> Value) :
    Keeps Invariant (inspect view : Routine State Code Value) :=
  fun _ holds => holds

theorem keeps_change {update : State -> State}
    (kept : ∀ state, Invariant state -> Invariant (update state)) :
    Keeps Invariant (change update : Routine State Code Unit) :=
  kept

theorem Keeps.bind {routine : Routine State Code Value}
    {next : Value -> Routine State Code Other} (first : Keeps Invariant routine)
    (rest : ∀ value, Keeps Invariant (next value)) : Keeps Invariant (routine >>= next) :=
  fun state holds => (first state holds).andThen (fun value after kept => rest value after kept)

variable {condition : Prop}

theorem Keeps.branch [Decidable condition] {first second : Routine State Code Value}
    (positive : Keeps Invariant first) (negative : Keeps Invariant second) :
    Keeps Invariant (if condition then first else second) := by
  split
  · exact positive
  · exact negative

theorem keeps_leaveIf (condition : Prop) [Decidable condition] (code : Code) :
    Keeps Invariant (leaveIf condition code : Routine State Code Unit) :=
  Keeps.branch (keeps_leave code) (keeps_pure ())

theorem Keeps.whenever [Decidable condition] {routine : Routine State Code Unit}
    (kept : Keeps Invariant routine) : Keeps Invariant (whenever condition routine) :=
  Keeps.branch kept (keeps_pure ())

theorem Keeps.turns {body : Routine State Code Unit} (kept : Keeps Invariant body) (count : Nat) :
    Keeps Invariant (turns body count) :=
  fun _ holds => Ends.turns (fun _ => Invariant) (fun _ state holds => kept state holds) holds

end

end Routine
end Foundation
end Codebank
