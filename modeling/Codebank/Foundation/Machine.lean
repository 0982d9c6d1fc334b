import Mathlib.Data.List.Basic
import Mathlib.Data.List.Induction

namespace Codebank
namespace Foundation

open List

/-!
# Step functions over input sequences, and labelled transition systems

Two small theories that every component below instantiates.  A `stepper` is a
total function from a state and an input to an output and the next state; its
runs are compared with the runs of another stepper by a simulation relation.
A labelled transition system is a relation; its runs are finite sequences of
labels, and properties of all reachable states come from invariants.
-/

universe u v w x

/-! ## Deterministic steppers -/

section

variable {State : Type u} {Other : Type v} {Input : Type w} {Output : Type x}

/-- Feed the inputs in order; collect the outputs and the final state. -/
def runAll (step : State -> Input -> Output × State) :
    State -> List Input -> List Output × State
  | state, [] => ([], state)
  | state, input :: rest =>
    let now := step state input
    let later := runAll step now.2 rest
    (now.1 :: later.1, later.2)

/-- The state after a sequence of inputs. -/
def stateAfter (step : State -> Input -> Output × State) (state : State)
    (inputs : List Input) : State :=
  (runAll step state inputs).2

theorem stateAfter_append (step : State -> Input -> Output × State) (state : State)
    (first second : List Input) :
    stateAfter step state (first ++ second) =
      stateAfter step (stateAfter step state first) second := by
  induction first generalizing state with
  | nil => rfl
  | cons input rest ih => exact ih (step state input).2

/-- Two steppers that agree step by step under a relation agree on whole runs. -/
theorem runAll_simulation {step : State -> Input -> Output × State}
    {other : Other -> Input -> Output × Other} {Related : State -> Other -> Prop}
    {Admissible : Input -> Prop}
    (simulated : ∀ state image input, Related state image -> Admissible input ->
      (step state input).1 = (other image input).1 ∧
        Related (step state input).2 (other image input).2)
    {state : State} {image : Other} (start : Related state image) {inputs : List Input}
    (admissible : ∀ input, input ∈ inputs -> Admissible input) :
    (runAll step state inputs).1 = (runAll other image inputs).1 ∧
      Related (stateAfter step state inputs) (stateAfter other image inputs) := by
  induction inputs generalizing state image with
  | nil => exact ⟨rfl, start⟩
  | cons input rest ih =>
    have now := simulated state image input start (admissible input mem_cons_self)
    have later := ih now.2 (fun next member => admissible next (mem_cons_of_mem _ member))
    refine ⟨?_, later.2⟩
    change (step state input).1 :: _ = (other image input).1 :: _
    rw [now.1]
    exact congrArg _ later.1

end

/-! ## Labelled transition systems -/

section

variable {State : Type u} {Label : Type v}

/-- A finite run: the labels of its steps, oldest first. -/
inductive Run (step : State -> Label -> State -> Prop) (start : State) :
    List Label -> State -> Prop where
  | nil : Run step start [] start
  | snoc {labels : List Label} {state next : State} {label : Label} :
      Run step start labels state -> step state label next ->
      Run step start (labels ++ [label]) next

variable {step : State -> Label -> State -> Prop} {start : State} {labels : List Label}
  {final : State} {label : Label}

theorem Run.single {next : State} (first : step start label next) :
    Run step start [label] next := by
  change Run step start ([] ++ [label]) next
  exact Run.snoc Run.nil first

variable {later : List Label}

theorem Run.trans {middle : State} (first : Run step start labels middle)
    (second : Run step middle later final) : Run step start (labels ++ later) final := by
  induction second with
  | nil => simpa using first
  | snoc _ last ih =>
    rw [<- append_assoc]
    exact Run.snoc ih last

/-- An invariant of single steps holds along every run. -/
theorem Run.invariant {Invariant : State -> Prop}
    (preserved : ∀ {state label next}, Invariant state -> step state label next ->
      Invariant next) (initially : Invariant start) {state : State}
    (run : Run step start labels state) : Invariant state := by
  induction run with
  | nil => exact initially
  | snoc _ last ih => exact preserved ih last

theorem Run.last (run : Run step start (labels ++ [label]) final) :
    ∃ state, Run step start labels state ∧ step state label final := by
  generalize whole : labels ++ [label] = all at run
  cases run with
  | nil => simp at whole
  | snoc earlier last =>
    rcases append_inj' whole rfl with ⟨sameEarlier, sameLabel⟩
    cases sameLabel
    subst sameEarlier
    exact ⟨_, earlier, last⟩

theorem Run.split (run : Run step start (labels ++ later) final) :
    ∃ middle, Run step start labels middle ∧ Run step middle later final := by
  induction later using List.reverseRecOn generalizing final with
  | nil => exact ⟨final, by simpa using run, Run.nil⟩
  | append_singleton later label ih =>
    rw [<- append_assoc] at run
    rcases run.last with ⟨state, earlier, last⟩
    rcases ih earlier with ⟨middle, first, second⟩
    exact ⟨middle, first, second.snoc last⟩

theorem Run.head (run : Run step start (label :: later) final) :
    ∃ next, step start label next ∧ Run step next later final := by
  rcases Run.split (show Run step start ([label] ++ later) final from run) with
    ⟨next, first, second⟩
  rcases Run.last (show Run step start ([] ++ [label]) next from first) with
    ⟨state, nothing, stepped⟩
  generalize empty : ([] : List Label) = labels at nothing
  cases nothing with
  | nil => exact ⟨next, stepped, second⟩
  | snoc _ _ => simp at empty

theorem Run.mono {weaker : State -> Label -> State -> Prop}
    (weaken : ∀ {state label next}, step state label next -> weaker state label next)
    (run : Run step start labels final) : Run weaker start labels final := by
  induction run with
  | nil => exact Run.nil
  | snoc _ last ih => exact ih.snoc (weaken last)

/-- A run of steps that are steps of another system under other labels. -/
theorem Run.relabel {Other : Type w} {other : State -> Other -> State -> Prop}
    (rename : Label -> Other)
    (contained : ∀ {state label next}, step state label next -> other state (rename label) next)
    (run : Run step start labels final) : Run other start (labels.map rename) final := by
  induction run with
  | nil => exact Run.nil
  | snoc _ last ih =>
    rw [map_append]
    exact ih.snoc (contained last)

/-- Take the given actions one after the other, as long as they are possible. -/
def execute {Action : Type w} (next : State -> Action -> Option (Label × State)) :
    State -> List Action -> Option (List Label × State)
  | state, [] => some ([], state)
  | state, action :: rest =>
    match next state action with
    | none => none
    | some (label, after) =>
      (execute next after rest).map (fun later => (label :: later.1, later.2))

/-- What was executed is a run. -/
theorem run_of_execute {Action : Type w} {next : State -> Action -> Option (Label × State)}
    {actions : List Action} (done : execute next start actions = some (labels, final)) :
    Run (fun state label after => ∃ action, next state action = some (label, after))
      start labels final := by
  induction actions generalizing start labels with
  | nil =>
    cases done
    exact Run.nil
  | cons action rest ih =>
    simp only [execute] at done
    cases first : next start action with
    | none => rw [first] at done; cases done
    | some result =>
      rcases result with ⟨label, after⟩
      rw [first] at done
      rcases Option.map_eq_some_iff.mp done with ⟨later, executed, same⟩
      cases same
      have now : Run (fun state label after =>
          ∃ action, next state action = some (label, after)) start [label] after :=
        Run.single ⟨action, first⟩
      exact now.trans (ih executed)

/-- Taking steps by a function gives a run of the relation that contains it. -/
theorem run_of_foldlM {next : State -> Label -> Option State}
    (contained : ∀ {state label after}, next state label = some after ->
      step state label after) (done : labels.foldlM next start = some final) :
    Run step start labels final := by
  induction labels generalizing start with
  | nil =>
    cases done
    exact Run.nil
  | cons label rest ih =>
    rw [foldlM_cons] at done
    rcases Option.bind_eq_some_iff.mp done with ⟨middle, first, later⟩
    exact (Run.single (contained first)).trans (ih later)

end

end Foundation
end Codebank
