import Codebank.Pintos.Execution

namespace Codebank
namespace Pintos

open Foundation List Option

/-!
# What `process_wait` returns, and when

The first wait for a child returns its exit status and every later one -1, as long as
`malloc` hands out no block of a freed `wait_status`: a child may up its semaphore after
its parent has freed it, and a new process that got the block is then believed to be dead.
A wait does not always wait for the child to be gone: a child that ends with -1
writes this code before it releases anything, and a parent that reads it then takes
it for the mark of an earlier wait.
-/

namespace Kernel

variable {kernel after : Kernel} {actions : List Action} {parent child : Tid}

/-- A step is taken if a condition on it holds. -/
def whenever (condition : Kernel -> Action -> Bool) (kernel : Kernel) (action : Action) :
    Option Kernel :=
  if condition kernel action then kernel.next action else none

variable {action : Action}

theorem step_of_whenever {condition : Kernel -> Action -> Bool}
    (step : whenever condition kernel action = some after) :
    Step kernel action after ∧ condition kernel action = true := by
  unfold whenever at step
  split at step
  next holds => exact ⟨step, holds⟩
  next => cases step

theorem Sound.waits (sound : Sound kernel) (isChild : kernel.isChild parent child = true) :
    Shared.Waits (kernel.pairOf parent child) := by
  rcases sound.paired parent child isChild with ⟨_, run⟩
  exact Shared.waits_run run

/-- A step with the block that `malloc` hands out; it is not a freed one, and a condition
holds. -/
def FreshStep (condition : Kernel -> Action -> Bool) (kernel : Kernel) (label : Action × Tid)
    (after : Kernel) : Prop :=
  kernel.nextIn label = some after ∧ label.2 ∉ kernel.freed ∧ condition kernel label.1 = true

/-- Taking fresh steps. -/
def nextFresh (condition : Kernel -> Action -> Bool) (kernel : Kernel) (label : Action × Tid) :
    Option Kernel :=
  if label.2 ∉ kernel.freed ∧ condition kernel label.1 = true then kernel.nextIn label else none

section

variable {condition : Kernel -> Action -> Bool} {label : Action × Tid}

theorem fresh_of_nextFresh (step : nextFresh condition kernel label = some after) :
    FreshStep condition kernel label after := by
  unfold nextFresh at step
  split at step
  next holds => exact ⟨step, holds⟩
  next => cases step

theorem FreshStep.step (step : FreshStep condition kernel label after) :
    Step kernel label.1 after ∧ condition kernel label.1 = true := by
  rcases label with ⟨action, wstatus⟩
  rcases step with ⟨taken, fresh, holds⟩
  refine ⟨?_, holds⟩
  cases action with
  | execute tid => rwa [nextIn, if_neg fresh] at taken
  | _ => exact taken

theorem run_of_fresh {labels : List (Action × Tid)}
    (run : Run (FreshStep condition) initial labels kernel) :
    Run (fun before action after => Step before action after ∧ condition before action = true)
      initial (labels.map Prod.fst) kernel :=
  run.relabel Prod.fst FreshStep.step

end

theorem Sound.counted (sound : Sound kernel) (isChild : kernel.isChild parent child = true) :
    Shared.Counted (kernel.pairOf parent child) := by
  rcases sound.paired parent child isChild with ⟨_, run⟩
  exact Shared.counted_run run

/-- Results are recorded for children only. -/
theorem Sound.isChild_of_answered (sound : Sound kernel)
    (answered : resultsFor child (kernel.threads parent).waited ≠ []) :
    kernel.isChild parent child = true := by
  rcases exists_mem_of_ne_nil _ answered with ⟨result, member⟩
  rcases List.mem_map.mp member with ⟨call, counts, _⟩
  rcases mem_filter.mp counts with ⟨logged, counts⟩
  rw [Bool.and_eq_true, decide_eq_true_iff] at counts
  exact counts.2 ▸ (sound.logged parent call logged).1 counts.1

/-! ## A wait that comes back -/

/-- The thread comes back from `process_wait` with a result by its own steps alone. -/
def ReturnsAlone (kernel : Kernel) (tid child : Tid) (result : Int) : Prop :=
  ∃ steps after, Run Step kernel (replicate steps (.resume tid)) after ∧
    after.pc tid = .user ∧
    (after.threads tid).waited = (kernel.threads tid).waited ++ [⟨child, true, result⟩]

variable {result : Int}

theorem ReturnsAlone.cons {tid : Tid} (first : Step kernel (.resume tid) after)
    (same : (after.threads tid).waited = (kernel.threads tid).waited)
    (later : ReturnsAlone after tid child result) : ReturnsAlone kernel tid child result := by
  rcases later with ⟨steps, final, run, user, log⟩
  refine ⟨steps + 1, final, ?_, user, by rw [log, same]⟩
  rw [replicate_succ]
  exact (Run.single first).trans run

/-- A child that has ended has left its status, and has upped its semaphore for the first wait. -/
theorem Sound.ready (sound : Sound kernel) (isChild : kernel.isChild parent child = true)
    (unanswered : resultsFor child (kernel.threads parent).waited = [])
    (dead : kernel.pc child = .dead)
    (staying : (kernel.pairOf parent child).parent = .idle ∨
      (kernel.pairOf parent child).parent = .down) :
    ∃ status, (kernel.threads child).ended = some status ∧
      (kernel.statuses child).childExitCode = status ∧
      0 < (kernel.statuses child).childExitSem := by
  have waits := sound.waits isChild
  rcases sound.paired parent child isChild with ⟨_, run⟩
  have gone : (kernel.pairOf parent child).child = .dead := by
    rw [pairOf, dead]
    rfl
  have code : (kernel.statuses child).childExitCode =
      (kernel.threads child).ended.getD (-2) := waits.unasked unanswered
  cases ended : (kernel.threads child).ended with
  | none => cases gone.symm.trans (waits.living.mpr ended)
  | some status =>
    rw [ended] at code
    exact ⟨status, rfl, code, Shared.upped_run run gone unanswered staying⟩

/-- The actions with a name that no freed block has. -/
def withNewBlocks (actions : List Action) : List (Action × Tid) :=
  actions.map (fun action => (action, 0))

/-- A child that exits with 7 while its parent waits, and a second wait. -/
def waitTwice : List Action :=
  [.execute 0, .wait 0 1, .resume 0, .exit 1 7] ++ replicate 8 (.resume 1) ++
    replicate 3 (.resume 0) ++ [.wait 0 1, .resume 0]

/-- Not a step at which `process_wait` reads an exit code -1 of a child that it has
not waited for and that has not yet upped its semaphore. -/
def patient (kernel : Kernel) : Action -> Bool
  | .resume parent =>
    match kernel.pc parent with
    | .waitTest child (.entry wstatus) =>
      decide (wstatus ≠ child) || decide ((kernel.statuses child).childExitCode ≠ -1) ||
        decide (resultsFor child (kernel.threads parent).waited ≠ []) ||
        decide (0 < (kernel.statuses child).childExitSem)
    | _ => true
  | _ => true

def PatientStep (kernel : Kernel) (action : Action) (after : Kernel) : Prop :=
  Step kernel action after ∧ kernel.patient action = true

theorem answered_or_upped (patient : kernel.patient (.resume parent) = true)
    (here : kernel.pc parent = .waitTest child (.entry child))
    (marked : (kernel.statuses child).childExitCode = -1) :
    resultsFor child (kernel.threads parent).waited ≠ [] ∨
      0 < (kernel.statuses child).childExitSem := by
  simpa [Kernel.patient, here, marked] using patient

/-- The children that have been waited for are gone. -/
def Gone (kernel : Kernel) : Prop :=
  ∀ parent child, kernel.isChild parent child = true ->
    (kernel.pairOf parent child).results ≠ [] -> (kernel.pairOf parent child).child = .dead

theorem eq_resume_of_not_user (step : Step kernel action after)
    (inside : kernel.pc action.tid ≠ .user) : action = .resume action.tid := by
  cases action with
  | resume tid => rfl
  | _ => exact absurd (fromUser_eq_some step).1 inside

theorem Gone.step (gone : Gone kernel) (sound : Sound kernel)
    (step : PatientStep kernel action after) : Gone after := by
  intro parent child isChild answered
  rcases sound.pairNext step.1 isChild with ⟨before, same | ⟨move, next, taken⟩⟩ | new
  · rw [same] at answered ⊢
    exact gone parent child before answered
  · refine Shared.dead_of_answered (sound.waits before) next ?_ (gone parent child before) answered
    rintro rfl
    rcases taken with ⟨actor, here⟩
    subst actor
    have resumes := eq_resume_of_not_user step.1 (by rw [here]; simp)
    exact answered_or_upped (resumes ▸ step.2) here next.marked
  · rw [new] at answered
    exact absurd rfl answered

theorem gone_run (run : Run PatientStep initial actions kernel) : Sound kernel ∧ Gone kernel := by
  induction run with
  | nil =>
    refine ⟨initial_sound, fun parent child isChild => ?_⟩
    rw [initial_isChild] at isChild
    cases isChild
  | snoc _ last ih => exact ⟨ih.1.step last.1, ih.2.step ih.1 last⟩

theorem pc_of_dead {pc : Pc} (dead : childPhase pc = .dead) : pc = .dead := by
  cases pc <;> first | rfl | cases dead

/-- As long as all steps are patient and `malloc` hands out no block of a freed `wait_status`, a
child for which a wait has returned has left `process_exit` behind: its semaphore has been upped
and its resources released. -/
theorem process_wait_awaits_exit {labels : List (Action × Tid)}
    (run : Run (FreshStep patient) initial labels kernel)
    (answered : resultsFor child (kernel.threads parent).waited ≠ []) :
    kernel.pc child = .dead ∧ (kernel.threads child).resources = false := by
  rcases gone_run (run_of_fresh run) with ⟨sound, gone⟩
  have dead := pc_of_dead (gone parent child (sound.isChild_of_answered answered) answered)
  exact ⟨dead, sound.wellFormed.released child (by rw [dead]; rfl)⟩

theorem process_wait_awaits_exit_waitTwice :
    ∃ kernel, Run (FreshStep patient) initial (withNewBlocks waitTwice) kernel ∧
      resultsFor 1 (kernel.threads 0).waited = [7, -1] ∧
      kernel.pc 1 = .dead ∧ (kernel.threads 1).resources = false := by
  have observed : ((withNewBlocks waitTwice).foldlM (nextFresh patient) initial).map
      (fun kernel => resultsFor 1 (kernel.threads 0).waited) = some [7, -1] := by
    decide +kernel
  rcases map_eq_some_iff.mp observed with ⟨kernel, done, results⟩
  have run := run_of_foldlM fresh_of_nextFresh done
  exact ⟨kernel, run, results, process_wait_awaits_exit run (by rw [results]; simp)⟩

/-- The child is killed, and its parent waits for it before it has released anything. -/
def waitForKilled : List Action :=
  [.execute 0, .exception 1, .wait 0 1, .resume 0]

theorem process_wait_returns_before_exit :
    ∃ kernel, Run Step initial waitForKilled kernel ∧
      resultsFor 1 (kernel.threads 0).waited = [-1] ∧
      kernel.pc 1 = .release ∧ (kernel.threads 1).resources = true := by
  have observed : (waitForKilled.foldlM next initial).map (fun kernel =>
      (resultsFor 1 (kernel.threads 0).waited, kernel.pc 1, (kernel.threads 1).resources)) =
        some ([-1], .release, true) := by
    decide +kernel
  rcases map_eq_some_iff.mp observed with ⟨kernel, done, same⟩
  simp only [Prod.mk.injEq] at same
  exact ⟨kernel, run_of_foldlM id done, same⟩

end Kernel

end Pintos
end Codebank
