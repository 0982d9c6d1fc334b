import Codebank.Foundation.Machine
import Mathlib.Data.List.Count
import Mathlib.Data.List.Nodup

namespace Codebank
namespace Pintos
namespace Handshake

open Foundation List

/-!
# The handshake of `process_execute` with `start_process`

The parent makes three objects on the heap and one on its stack, creates a thread
and waits for the outcome of `load`; the child waits until its `wait_status` is in
place.  Two semaphores order the two threads, and the objects on the heap change
hands when the thread is created.  Each step is one access to shared data, and the
outcomes of the allocations, of `thread_create` and of `load` are arbitrary.
-/

/-- The objects on the heap. -/
inductive Object where
  | fnCopy
  | progNamePg
  | wsCreateSema
  deriving DecidableEq

/-- The returns of `process_execute`. -/
inductive Exit where
  /-- an allocation or `thread_create` failed, and there is no child -/
  | aborted
  | loadFailed
  /-- the `wait_status` could not be allocated -/
  | noStatus
  | created
  deriving DecidableEq

/-- Whether `process_execute` returns `TID_ERROR`. -/
def Exit.isError : Exit -> Bool
  | .created => false
  | _ => true

/-- Where the parent is in `process_execute`. -/
inductive ParentPc where
  /-- `palloc_get_page` for `fn_copy` -/
  | copyName
  /-- `palloc_get_page` for `prog_name_pg` -/
  | copyProgram
  /-- `malloc` of `ws_create_sema` -/
  | createSema
  | threadCreate
  /-- `sema_down (&ls.load_sema)` -/
  | awaitLoad
  /-- the test of `ls.success` -/
  | readSuccess
  /-- `malloc` of the `wait_status` -/
  | createStatus
  /-- `ls.child->parent_wait_status = ws` -/
  | setStatus
  /-- `sema_up (ls.wait_status_create)` when there is no `wait_status` -/
  | upWithout
  /-- `sema_up (ls.wait_status_create)` -/
  | upCreate
  /-- the objects that are still to be freed before the return -/
  | release (objects : List Object) (exit : Exit)
  | returned (exit : Exit)
  deriving DecidableEq

/-- How `start_process` ends. -/
inductive Ending where
  | threadExit
  | userMode
  deriving DecidableEq

/-- Where the child is in `start_process`. -/
inductive ChildPc where
  | absent
  /-- `file_name = ls->file_name` -/
  | readName
  | load
  /-- `ls->success = success` -/
  | writeSuccess (success : Bool)
  /-- `ls->child = thread_current ()` -/
  | writeChild (success : Bool)
  /-- `wait_status_create = ls->wait_status_create` -/
  | readCreate (success : Bool)
  /-- `sema_up (&ls->load_sema)` -/
  | upLoad (success : Bool)
  /-- the arguments are copied from `file_name` to the stack -/
  | copyArguments
  /-- `sema_down (wait_status_create)` -/
  | awaitStatus
  | release (objects : List Object) (ending : Ending)
  | ended (ending : Ending)
  deriving DecidableEq

structure State where
  parent : ParentPc
  child : ChildPc
  loadSema : Nat
  createSema : Nat
  /-- `ls.success` -/
  success : Bool
  /-- `parent_wait_status` of the child is set -/
  parentWaitStatus : Bool
  /-- history: the objects that have been allocated -/
  allocated : List Object
  /-- history: the objects that have been freed -/
  freed : List Object
  /-- history: what `load` returned -/
  outcome : Option Bool
  /-- history: the allocation of the `wait_status` failed -/
  statusFailed : Bool
  deriving DecidableEq

def initial : State where
  parent := .copyName
  child := .absent
  loadSema := 0
  createSema := 0
  success := false
  parentWaitStatus := false
  allocated := []
  freed := []
  outcome := none
  statusFailed := false

/-! ## Steps -/

/-- An allocation by the parent. -/
def allocate (state : State) (object : Object) (succeeds : Bool) (then_ : ParentPc)
    (otherwise : List Object) : State :=
  if succeeds then
    { state with parent := then_, allocated := object :: state.allocated }
  else
    { state with parent := .release otherwise .aborted }

/-- The next step of the parent; the flag is the outcome of what it calls. -/
def parentNext (state : State) (succeeds : Bool) : Option State :=
  match state.parent with
  | .copyName => some (allocate state .fnCopy succeeds .copyProgram [])
  | .copyProgram => some (allocate state .progNamePg succeeds .createSema [.fnCopy])
  | .createSema =>
    some (allocate state .wsCreateSema succeeds .threadCreate [.fnCopy, .progNamePg])
  | .threadCreate =>
    if succeeds then
      some { state with parent := .awaitLoad, child := .readName }
    else
      some { state with parent := .release [.wsCreateSema, .fnCopy, .progNamePg] .aborted }
  | .awaitLoad =>
    if 0 < state.loadSema then
      some { state with parent := .readSuccess, loadSema := state.loadSema - 1 }
    else
      none
  | .readSuccess =>
    if state.success then
      some { state with parent := .createStatus }
    else
      some { state with parent := .release [.progNamePg] .loadFailed }
  | .createStatus =>
    if succeeds then
      some { state with parent := .setStatus }
    else
      some { state with parent := .upWithout, statusFailed := true }
  | .setStatus => some { state with parent := .upCreate, parentWaitStatus := true }
  | .upWithout =>
    some { state with
      parent := .release [.progNamePg] .noStatus
      createSema := state.createSema + 1 }
  | .upCreate =>
    some { state with
      parent := .release [.progNamePg] .created
      createSema := state.createSema + 1 }
  | .release (object :: rest) exit =>
    some { state with parent := .release rest exit, freed := object :: state.freed }
  | .release [] exit => some { state with parent := .returned exit }
  | .returned _ => none

/-- The next step of the child; the flag is the outcome of `load`. -/
def childNext (state : State) (succeeds : Bool) : Option State :=
  match state.child with
  | .absent => none
  | .readName => some { state with child := .load }
  | .load => some { state with child := .writeSuccess succeeds, outcome := some succeeds }
  | .writeSuccess success => some { state with child := .writeChild success, success := success }
  | .writeChild success => some { state with child := .readCreate success }
  | .readCreate success => some { state with child := .upLoad success }
  | .upLoad success =>
    some { state with
      child := if success then .copyArguments else .release [.wsCreateSema, .fnCopy] .threadExit
      loadSema := state.loadSema + 1 }
  | .copyArguments => some { state with child := .awaitStatus }
  | .awaitStatus =>
    if 0 < state.createSema then
      some { state with
        child := .release [.wsCreateSema, .fnCopy] .userMode
        createSema := state.createSema - 1 }
    else
      none
  | .release (object :: rest) ending =>
    some { state with child := .release rest ending, freed := object :: state.freed }
  | .release [] ending => some { state with child := .ended ending }
  | .ended _ => none

inductive Action where
  | parent (succeeds : Bool)
  | child (succeeds : Bool)
  deriving DecidableEq

def next (state : State) : Action -> Option State
  | .parent succeeds => parentNext state succeeds
  | .child succeeds => childNext state succeeds

def Step (state : State) (action : Action) (after : State) : Prop :=
  next state action = some after

variable {state after : State} {succeeds : Bool} {labels : List Action}

/-- What a step of the parent allocates, where it goes on and what it frees on failure. -/
inductive Allocates : ParentPc -> Object -> ParentPc -> List Object -> Prop where
  | fnCopy : Allocates .copyName .fnCopy .copyProgram []
  | progNamePg : Allocates .copyProgram .progNamePg .createSema [.fnCopy]
  | wsCreateSema : Allocates .createSema .wsCreateSema .threadCreate [.fnCopy, .progNamePg]

/-- The steps of the parent. -/
inductive ParentMove (state : State) : State -> Prop where
  | allocate {pc then_ : ParentPc} {object : Object} {otherwise : List Object}
      (here : state.parent = pc) (which : Allocates pc object then_ otherwise) (succeeds : Bool) :
      ParentMove state (Handshake.allocate state object succeeds then_ otherwise)
  | begin (here : state.parent = .threadCreate) :
      ParentMove state { state with parent := .awaitLoad, child := .readName }
  | abort (here : state.parent = .threadCreate) :
      ParentMove state
        { state with parent := .release [.wsCreateSema, .fnCopy, .progNamePg] .aborted }
  | takeLoad (here : state.parent = .awaitLoad) (up : 0 < state.loadSema) :
      ParentMove state { state with parent := .readSuccess, loadSema := state.loadSema - 1 }
  | success (here : state.parent = .readSuccess) (read : state.success = true) :
      ParentMove state { state with parent := .createStatus }
  | failure (here : state.parent = .readSuccess) (read : state.success = false) :
      ParentMove state { state with parent := .release [.progNamePg] .loadFailed }
  | makeStatus (here : state.parent = .createStatus) :
      ParentMove state { state with parent := .setStatus }
  | missStatus (here : state.parent = .createStatus) :
      ParentMove state { state with parent := .upWithout, statusFailed := true }
  | setStatus (here : state.parent = .setStatus) :
      ParentMove state { state with parent := .upCreate, parentWaitStatus := true }
  | upWithout (here : state.parent = .upWithout) :
      ParentMove state { state with
        parent := .release [.progNamePg] .noStatus
        createSema := state.createSema + 1 }
  | upCreate (here : state.parent = .upCreate) :
      ParentMove state { state with
        parent := .release [.progNamePg] .created
        createSema := state.createSema + 1 }
  | free {object : Object} {rest : List Object} {exit : Exit}
      (here : state.parent = .release (object :: rest) exit) :
      ParentMove state { state with parent := .release rest exit, freed := object :: state.freed }
  | leave {exit : Exit} (here : state.parent = .release [] exit) :
      ParentMove state { state with parent := .returned exit }

theorem parentMove_of_next (step : parentNext state succeeds = some after) :
    ParentMove state after := by
  cases here : state.parent with
  | release objects exit =>
    cases objects <;> simp only [parentNext, here] at step <;> cases step
    · exact .leave here
    · exact .free here
  | awaitLoad =>
    simp only [parentNext, here] at step
    split at step <;> cases step
    exact .takeLoad here ‹_›
  | threadCreate =>
    simp only [parentNext, here] at step
    split at step <;> cases step
    · exact .begin here
    · exact .abort here
  | readSuccess =>
    simp only [parentNext, here] at step
    split at step <;> cases step
    · exact .success here ‹_›
    · exact .failure here (eq_false_of_ne_true ‹_›)
  | createStatus =>
    simp only [parentNext, here] at step
    split at step <;> cases step
    · exact .makeStatus here
    · exact .missStatus here
  | returned exit => simp [parentNext, here] at step
  | _ =>
    simp only [parentNext, here] at step
    cases step
    first
    | exact .allocate here .fnCopy succeeds
    | exact .allocate here .progNamePg succeeds
    | exact .allocate here .wsCreateSema succeeds
    | exact .setStatus here
    | exact .upWithout here
    | exact .upCreate here

/-- The steps of the child. -/
inductive ChildMove (state : State) : State -> Prop where
  | readName (here : state.child = .readName) : ChildMove state { state with child := .load }
  | load (here : state.child = .load) (success : Bool) :
      ChildMove state { state with child := .writeSuccess success, outcome := some success }
  | writeSuccess {success : Bool} (here : state.child = .writeSuccess success) :
      ChildMove state { state with child := .writeChild success, success := success }
  | writeChild {success : Bool} (here : state.child = .writeChild success) :
      ChildMove state { state with child := .readCreate success }
  | readCreate {success : Bool} (here : state.child = .readCreate success) :
      ChildMove state { state with child := .upLoad success }
  | upLoad {success : Bool} (here : state.child = .upLoad success) :
      ChildMove state { state with
        child := if success then .copyArguments else .release [.wsCreateSema, .fnCopy] .threadExit
        loadSema := state.loadSema + 1 }
  | copyArguments (here : state.child = .copyArguments) :
      ChildMove state { state with child := .awaitStatus }
  | takeCreate (here : state.child = .awaitStatus) (up : 0 < state.createSema) :
      ChildMove state { state with
        child := .release [.wsCreateSema, .fnCopy] .userMode
        createSema := state.createSema - 1 }
  | free {object : Object} {rest : List Object} {ending : Ending}
      (here : state.child = .release (object :: rest) ending) :
      ChildMove state { state with child := .release rest ending, freed := object :: state.freed }
  | leave {ending : Ending} (here : state.child = .release [] ending) :
      ChildMove state { state with child := .ended ending }

theorem childMove_of_next (step : childNext state succeeds = some after) :
    ChildMove state after := by
  cases here : state.child with
  | release objects ending =>
    cases objects <;> simp only [childNext, here] at step <;> cases step
    · exact .leave here
    · exact .free here
  | awaitStatus =>
    simp only [childNext, here] at step
    split at step <;> cases step
    exact .takeCreate here ‹_›
  | absent | ended => simp [childNext, here] at step
  | _ =>
    simp only [childNext, here] at step
    cases step
    constructor
    assumption

/-! ## Who has to free what -/

def parentOwes : ParentPc -> List Object
  | .copyName => []
  | .copyProgram => [.fnCopy]
  | .createSema => [.progNamePg, .fnCopy]
  | .threadCreate => [.wsCreateSema, .progNamePg, .fnCopy]
  | .release objects _ => objects
  | .returned _ => []
  | _ => [.progNamePg]

def childOwes : ChildPc -> List Object
  | .absent => []
  | .release objects _ => objects
  | .ended _ => []
  | _ => [.wsCreateSema, .fnCopy]

/-! ## How far each side is -/

/-- The parent has created the thread. -/
def hasThread : ParentPc -> Bool
  | .copyName => false
  | .copyProgram => false
  | .createSema => false
  | .threadCreate => false
  | .release _ exit => decide (exit ≠ .aborted)
  | .returned exit => decide (exit ≠ .aborted)
  | _ => true

/-- The parent has not begun to free anything. -/
def preparing : ParentPc -> Bool
  | .copyName => true
  | .copyProgram => true
  | .createSema => true
  | .threadCreate => true
  | _ => false

/-- How often the parent has passed `sema_down (&ls.load_sema)`. -/
def tookLoad : ParentPc -> Nat
  | .readSuccess => 1
  | .createStatus => 1
  | .setStatus => 1
  | .upWithout => 1
  | .upCreate => 1
  | .release _ exit => if exit = .aborted then 0 else 1
  | .returned exit => if exit = .aborted then 0 else 1
  | _ => 0

def gaveLoad : ChildPc -> Nat
  | .copyArguments => 1
  | .awaitStatus => 1
  | .release _ _ => 1
  | .ended _ => 1
  | _ => 0

/-- How often the parent has upped `wait_status_create`. -/
def gaveCreate : ParentPc -> Nat
  | .release _ exit => if exit = .noStatus ∨ exit = .created then 1 else 0
  | .returned exit => if exit = .noStatus ∨ exit = .created then 1 else 0
  | _ => 0

def tookCreate : ChildPc -> Nat
  | .release _ ending => if ending = .userMode then 1 else 0
  | .ended ending => if ending = .userMode then 1 else 0
  | _ => 0

/-- What the child knows of the outcome of `load`. -/
def loaded : ChildPc -> Option Bool
  | .writeSuccess success => some success
  | .writeChild success => some success
  | .readCreate success => some success
  | .upLoad success => some success
  | .copyArguments => some true
  | .awaitStatus => some true
  | .release _ ending => some (decide (ending = .userMode))
  | .ended ending => some (decide (ending = .userMode))
  | _ => none

/-- What the child has written to `ls.success`. -/
def written : ChildPc -> Option Bool
  | .writeSuccess _ => none
  | pc => loaded pc

/-- What a return says about the outcome of `load`. -/
def verdictAt : Exit -> Option Bool
  | .aborted => none
  | .loadFailed => some false
  | .noStatus => some true
  | .created => some true

/-- What the parent has read from `ls.success`. -/
def verdict : ParentPc -> Option Bool
  | .createStatus => some true
  | .setStatus => some true
  | .upWithout => some true
  | .upCreate => some true
  | .release _ exit => verdictAt exit
  | .returned exit => verdictAt exit
  | _ => none

/-- The return for which the parent has upped or is about to up `wait_status_create`. -/
def answered : ParentPc -> Option Exit
  | .upWithout => some .noStatus
  | .upCreate => some .created
  | .release _ exit => some exit
  | .returned exit => some exit
  | _ => none

/-! ## The objects -/

/-- Every object that has been allocated is freed, or exactly one side owes it. -/
structure Ledger (state : State) : Prop where
  balance : ∀ object, state.allocated.count object = state.freed.count object +
    (parentOwes state.parent).count object + (childOwes state.child).count object
  once : ∀ object, state.allocated.count object <= 1
  fresh : preparing state.parent = true -> state.freed = [] ∧ state.child = .absent

theorem initial_ledger : Ledger initial :=
  ⟨fun _ => rfl, fun _ => Nat.zero_le _, fun _ => ⟨rfl, rfl⟩⟩

/-- Nothing is allocated, freed or handed over. -/
theorem Ledger.keeps (ledger : Ledger state) (allocated : after.allocated = state.allocated)
    (freed : after.freed = state.freed)
    (parentSame : parentOwes after.parent = parentOwes state.parent)
    (childSame : childOwes after.child = childOwes state.child)
    (late : preparing after.parent = false) : Ledger after where
  balance object := by
    rw [allocated, freed, parentSame, childSame]
    exact ledger.balance object
  once object := by
    rw [allocated]
    exact ledger.once object
  fresh early := absurd (late.symm.trans early) Bool.false_ne_true

variable {exit : Exit} {object : Object} {rest : List Object}

theorem Ledger.parent_frees (ledger : Ledger state)
    (here : state.parent = .release (object :: rest) exit) :
    Ledger { state with parent := .release rest exit, freed := object :: state.freed } where
  balance other := by
    have balance := ledger.balance other
    rw [here, parentOwes, count_cons] at balance
    rw [parentOwes, count_cons, balance]
    dsimp only
    omega
  once := ledger.once
  fresh impossible := by cases impossible

theorem Ledger.child_frees (ledger : Ledger state) {ending : Ending}
    (here : state.child = .release (object :: rest) ending) :
    Ledger { state with child := .release rest ending, freed := object :: state.freed } where
  balance other := by
    have balance := ledger.balance other
    rw [here, childOwes, count_cons] at balance
    rw [childOwes, count_cons, balance]
    dsimp only
    omega
  once := ledger.once
  fresh early := by
    have absent := (ledger.fresh early).2
    rw [here] at absent
    cases absent

/-- An allocation: the parent owes the new object, or what it owed before. -/
theorem Ledger.allocate (ledger : Ledger state) {then_ : ParentPc} {otherwise : List Object}
    (early : preparing state.parent = true) (fresh : object ∉ parentOwes state.parent)
    (owes : parentOwes then_ = object :: parentOwes state.parent)
    (same : otherwise.Perm (parentOwes state.parent)) :
    Ledger (Handshake.allocate state object succeeds then_ otherwise) := by
  rcases ledger.fresh early with ⟨nothing, absent⟩
  have balance (other : Object) : state.allocated.count other =
      (parentOwes state.parent).count other := by
    have whole := ledger.balance other
    rw [nothing, absent] at whole
    simpa [childOwes] using whole
  unfold Handshake.allocate
  split
  · refine ⟨fun other => ?_, fun other => ?_, fun _ => ⟨nothing, absent⟩⟩
    · rw [owes, nothing, absent, childOwes, count_cons, count_cons, balance]
      simp
    · rw [count_cons]
      split
      next new =>
        have none : state.allocated.count other = 0 := by
          rw [balance, <- eq_of_beq new]
          exact count_eq_zero.mpr fresh
        omega
      next => exact ledger.once other
  · refine ⟨fun other => ?_, ledger.once, fun impossible => by cases impossible⟩
    rw [parentOwes, same.count_eq]
    exact ledger.balance other

/-- The new thread owes two of the objects. -/
theorem Ledger.hand_over (ledger : Ledger state) (here : state.parent = .threadCreate) :
    Ledger { state with parent := .awaitLoad, child := .readName } where
  balance object := by
    have absent := (ledger.fresh (by rw [here]; rfl)).2
    have balance := ledger.balance object
    rw [here, absent] at balance
    rw [balance]
    cases object <;> simp [parentOwes, childOwes]
  once := ledger.once
  fresh impossible := by cases impossible

theorem Ledger.parent_step (ledger : Ledger state)
    (step : parentNext state succeeds = some after) : Ledger after := by
  cases parentMove_of_next step with
  | allocate here which succeeds =>
    cases which <;> refine ledger.allocate ?_ ?_ ?_ ?_ <;> rw [here] <;> decide
  | begin here => exact ledger.hand_over here
  | abort here =>
    refine ⟨fun other => ?_, ledger.once, fun impossible => by cases impossible⟩
    have balance := ledger.balance other
    rw [here] at balance
    rw [balance]
    cases other <;> rfl
  | free here => exact ledger.parent_frees here
  | takeLoad here _ | success here _ | failure here _ | makeStatus here | missStatus here
  | setStatus here | upWithout here | upCreate here | leave here =>
    exact ledger.keeps rfl rfl (by rw [here]; rfl) rfl rfl

theorem Ledger.child_step (ledger : Ledger state)
    (step : childNext state succeeds = some after) : Ledger after := by
  have late (present : state.child ≠ .absent) : preparing state.parent = false := by
    by_contra early
    exact present (ledger.fresh (by simpa using early)).2
  cases childMove_of_next step with
  | free here => exact ledger.child_frees here
  | @upLoad success here =>
    refine ledger.keeps rfl rfl rfl ?_ (late (by rw [here]; simp))
    rw [here]
    cases success <;> rfl
  | readName here | load here _ | writeSuccess here | writeChild here | readCreate here
  | copyArguments here | takeCreate here _ | leave here =>
    exact ledger.keeps rfl rfl rfl (by rw [here]; rfl) (late (by rw [here]; simp))

/-! ## The order of the two threads -/

/-- The semaphores count what one side has done and the other has not yet used, so
each side knows what the other has done. -/
structure Ordered (state : State) : Prop where
  thread : hasThread state.parent = decide (state.child ≠ .absent)
  loadSema : state.loadSema + tookLoad state.parent = gaveLoad state.child
  createSema : state.createSema + tookCreate state.child = gaveCreate state.parent
  outcome : state.outcome = loaded state.child
  success : ∀ success, written state.child = some success -> state.success = success
  judged : ∀ success, verdict state.parent = some success -> state.outcome = some success

theorem initial_ordered : Ordered initial :=
  ⟨rfl, rfl, rfl, rfl, fun _ impossible => (by cases impossible),
    fun _ impossible => (by cases impossible)⟩

/-- What each thread knows of the other, and the semaphores between them. -/
def shared (state : State) :=
  ((state.loadSema, state.createSema, state.success, state.outcome),
    (hasThread state.parent, tookLoad state.parent, gaveCreate state.parent, verdict state.parent),
    decide (state.child ≠ .absent), gaveLoad state.child, tookCreate state.child,
    loaded state.child, written state.child)

section

variable (ordered : Ordered state)

include ordered

/-- A thread moves without touching what it shares with the other. -/
theorem Ordered.moves (same : shared after = shared state) : Ordered after := by
  simp only [shared, Prod.mk.injEq] at same
  rcases same with ⟨⟨loads, creates, success, outcome⟩, ⟨thread, tookLoad, gaveCreate, judged⟩,
    present, gaveLoad, tookCreate, knows, wrote⟩
  constructor
  · rw [thread, present]; exact ordered.thread
  · rw [loads, tookLoad, gaveLoad]; exact ordered.loadSema
  · rw [creates, tookCreate, gaveCreate]; exact ordered.createSema
  · rw [outcome, knows]; exact ordered.outcome
  · rw [wrote, success]; exact ordered.success
  · rw [judged, outcome]; exact ordered.judged

/-- A parent that has been let through knows that the child has written its outcome. -/
theorem Ordered.written_of_took (took : tookLoad state.parent = 1) :
    ∃ success, written state.child = some success ∧ loaded state.child = some success := by
  have gave : gaveLoad state.child ≠ 0 := by
    rw [<- ordered.loadSema, took]
    omega
  cases here : state.child with
  | copyArguments | awaitStatus => exact ⟨true, rfl, rfl⟩
  | release objects ending | ended ending => exact ⟨_, rfl, rfl⟩
  | _ => exact absurd (by rw [here]; rfl) gave

theorem Ordered.absent_of_not (none : hasThread state.parent = false) : state.child = .absent := by
  have thread := ordered.thread
  rw [none] at thread
  simpa using thread.symm

/-- The thread is created. -/
theorem Ordered.begin (here : state.parent = .threadCreate) :
    Ordered { state with parent := .awaitLoad, child := .readName } := by
  have absent := ordered.absent_of_not (by rw [here]; rfl)
  rcases ordered with ⟨_, loads, creates, outcome, _, _⟩
  rw [here, absent] at loads creates
  rw [absent] at outcome
  exact ⟨by simp [hasThread], loads, creates, outcome, fun _ impossible => (by cases impossible),
    fun _ impossible => (by cases impossible)⟩

/-- `sema_down (&ls.load_sema)`. -/
theorem Ordered.takeLoad (here : state.parent = .awaitLoad) (up : 0 < state.loadSema) :
    Ordered { state with parent := .readSuccess, loadSema := state.loadSema - 1 } := by
  rcases ordered with ⟨thread, loads, creates, outcome, success, _⟩
  rw [here] at thread loads creates
  refine ⟨thread, ?_, creates, outcome, success, fun _ impossible => (by cases impossible)⟩
  rw [<- loads]
  change state.loadSema - 1 + 1 = state.loadSema + 0
  omega

/-- The test of `ls.success`. -/
theorem Ordered.judge (here : state.parent = .readSuccess) {pc : ParentPc}
    (thread : hasThread pc = true) (took : tookLoad pc = 1) (gave : gaveCreate pc = 0)
    (judged : verdict pc = some state.success) : Ordered { state with parent := pc } := by
  rcases ordered.written_of_took (by rw [here]; rfl) with ⟨success, wrote, knows⟩
  have read := ordered.success success wrote
  have known := ordered.outcome
  rcases ordered with ⟨threadBefore, loads, creates, outcome, success', _⟩
  rw [here] at threadBefore loads creates
  refine ⟨thread.trans threadBefore, ?_, creates.trans gave.symm, outcome, success', ?_⟩
  · rw [took]
    exact loads
  · intro other same
    rw [known, knows, <- read, <- judged]
    exact same

/-- `sema_up (ls.wait_status_create)`. -/
theorem Ordered.giveCreate {pc : ParentPc} (thread : hasThread pc = hasThread state.parent)
    (took : tookLoad pc = tookLoad state.parent)
    (gave : gaveCreate pc = gaveCreate state.parent + 1)
    (judged : verdict pc = verdict state.parent) :
    Ordered { state with parent := pc, createSema := state.createSema + 1 } where
  thread := thread.trans ordered.thread
  loadSema := by
    rw [took]
    exact ordered.loadSema
  createSema := by
    rw [gave, <- ordered.createSema]
    change state.createSema + 1 + tookCreate state.child = _
    omega
  outcome := ordered.outcome
  success := ordered.success
  judged := by
    rw [judged]
    exact ordered.judged

theorem Ordered.parent_step (step : parentNext state succeeds = some after) : Ordered after := by
  cases parentMove_of_next step with
  | allocate here which succeeds =>
    cases which <;> cases succeeds <;>
      exact ordered.moves (by rw [shared, shared, here]; rfl)
  | begin here => exact ordered.begin here
  | takeLoad here up => exact ordered.takeLoad here up
  | success here read | failure here read =>
    exact ordered.judge here rfl rfl rfl (congrArg some read.symm)
  | upWithout here | upCreate here =>
    refine ordered.giveCreate ?_ ?_ ?_ ?_ <;> rw [here] <;> rfl
  | abort here | makeStatus here | missStatus here | setStatus here | free here | leave here =>
    exact ordered.moves (by rw [shared, shared, here]; rfl)

/-- Before the child has upped `load_sema` the parent has read nothing. -/
theorem Ordered.verdict_of_loading (before : gaveLoad state.child = 0) :
    verdict state.parent = none := by
  have took : tookLoad state.parent = 0 := by
    have loads := ordered.loadSema
    omega
  cases here : state.parent with
  | release objects exit | returned exit =>
    rw [here] at took
    cases exit with
    | aborted => rfl
    | _ => cases took
  | createStatus | setStatus | upWithout | upCreate => rw [here] at took; cases took
  | _ => rfl

/-- `sema_up (&ls->load_sema)`. -/
theorem Ordered.giveLoad {pc : ChildPc}
    (present : decide (pc ≠ .absent) = decide (state.child ≠ .absent))
    (gave : gaveLoad pc = gaveLoad state.child + 1) (took : tookCreate pc = tookCreate state.child)
    (knows : loaded pc = loaded state.child) (wrote : written pc = written state.child) :
    Ordered { state with child := pc, loadSema := state.loadSema + 1 } where
  thread := ordered.thread.trans present.symm
  loadSema := by
    rw [gave, <- ordered.loadSema]
    change state.loadSema + 1 + tookLoad state.parent = _
    omega
  createSema := by
    rw [took]
    exact ordered.createSema
  outcome := ordered.outcome.trans knows.symm
  success := by
    rw [wrote]
    exact ordered.success
  judged := ordered.judged

/-- `sema_down (wait_status_create)`. -/
theorem Ordered.takeCreate (here : state.child = .awaitStatus) (up : 0 < state.createSema)
    {objects : List Object} :
    Ordered { state with
      child := .release objects .userMode, createSema := state.createSema - 1 } := by
  rcases ordered with ⟨thread, loads, creates, outcome, success, judged⟩
  rw [here] at thread loads creates outcome success
  refine ⟨thread, loads, ?_, outcome, success, judged⟩
  rw [<- creates]
  change state.createSema - 1 + 1 = state.createSema + 0
  omega

theorem Ordered.child_step (step : childNext state succeeds = some after) : Ordered after := by
  cases childMove_of_next step with
  | load here success =>
    have nothing := ordered.verdict_of_loading (by rw [here]; rfl)
    rcases ordered with ⟨thread, loads, creates, _, _, _⟩
    rw [here] at thread loads creates
    refine ⟨?_, loads, creates, rfl, fun _ impossible => (by cases impossible), ?_⟩
    · rw [thread]
      simp
    · rw [nothing]
      exact fun _ impossible => (by cases impossible)
  | writeSuccess here =>
    rcases ordered with ⟨thread, loads, creates, outcome, _, judged⟩
    rw [here] at thread loads creates outcome
    refine ⟨?_, loads, creates, outcome, fun _ same => Option.some.inj same, judged⟩
    rw [thread]
    simp
  | @upLoad success here =>
    cases success <;> refine ordered.giveLoad ?_ ?_ ?_ ?_ ?_ <;> rw [here] <;> rfl
  | takeCreate here up => exact ordered.takeCreate here up
  | readName here | writeChild here | readCreate here | copyArguments here | free here
  | leave here =>
    exact ordered.moves (by rw [shared, shared, here]; rfl)

end

/-- The parent lets the child go on once the `wait_status` is in place or known to be missing. -/
structure Answered (state : State) : Prop where
  created : answered state.parent = some .created -> state.parentWaitStatus = true
  noStatus : answered state.parent = some .noStatus -> state.statusFailed = true

theorem initial_answered : Answered initial :=
  ⟨fun impossible => (by cases impossible), fun impossible => (by cases impossible)⟩

theorem Answered.moves (answers : Answered state)
    (same : answered after.parent = answered state.parent)
    (status : after.parentWaitStatus = state.parentWaitStatus)
    (failed : after.statusFailed = state.statusFailed) : Answered after where
  created := by rw [same, status]; exact answers.created
  noStatus := by rw [same, failed]; exact answers.noStatus

theorem Answered.open (other : ∀ exit, answered state.parent = some exit ->
    exit = .aborted ∨ exit = .loadFailed) : Answered state where
  created is := by rcases other _ is with wrong | wrong <;> cases wrong
  noStatus is := by rcases other _ is with wrong | wrong <;> cases wrong

theorem Answered.parent_step (answers : Answered state)
    (step : parentNext state succeeds = some after) : Answered after := by
  cases parentMove_of_next step with
  | allocate here which succeeds =>
    cases succeeds
    · exact .open (fun _ is => .inl (Option.some.inj is).symm)
    · cases which <;> exact .open (fun _ impossible => (by cases impossible))
  | abort here => exact .open (fun _ is => .inl (Option.some.inj is).symm)
  | failure here _ => exact .open (fun _ is => .inr (Option.some.inj is).symm)
  | missStatus here => exact ⟨fun impossible => (by cases impossible), fun _ => rfl⟩
  | setStatus here => exact ⟨fun _ => rfl, fun impossible => (by cases impossible)⟩
  | upWithout here | upCreate here | free here | leave here =>
    exact answers.moves (by rw [here]; rfl) rfl rfl
  | begin here | takeLoad here _ | success here _ | makeStatus here =>
    exact .open (fun _ impossible => (by cases impossible))

theorem childNext_frame (step : childNext state succeeds = some after) :
    after.parent = state.parent ∧ after.parentWaitStatus = state.parentWaitStatus ∧
      after.statusFailed = state.statusFailed := by
  cases childMove_of_next step <;> exact ⟨rfl, rfl, rfl⟩

/-! ## Runs -/

structure Sound (state : State) : Prop where
  ledger : Ledger state
  ordered : Ordered state
  answers : Answered state

theorem initial_sound : Sound initial :=
  ⟨initial_ledger, initial_ordered, initial_answered⟩

variable {action : Action}

theorem Sound.step (sound : Sound state) (step : Step state action after) : Sound after := by
  cases action with
  | parent succeeds =>
    exact ⟨sound.ledger.parent_step step, sound.ordered.parent_step step,
      sound.answers.parent_step step⟩
  | child succeeds =>
    rcases childNext_frame step with ⟨parent, status, failed⟩
    exact ⟨sound.ledger.child_step step, sound.ordered.child_step step,
      sound.answers.moves (congrArg answered parent) status failed⟩

theorem Sound.run (sound : Sound state) (run : Run Step state labels after) : Sound after := by
  induction run with
  | nil => exact sound
  | snoc _ last ih => exact ih.step last

/-! ## What the handshake guarantees -/

/-- The next step of the child reads or writes `ls`, which is on the stack of the parent. -/
def ChildPc.accessesLoadStatus : ChildPc -> Bool
  | .readName => true
  | .writeSuccess _ => true
  | .writeChild _ => true
  | .readCreate _ => true
  | .upLoad _ => true
  | _ => false

/-- Both threads are through; a child that was never created counts as one. -/
def finished (state : State) : Prop :=
  (∃ exit, state.parent = .returned exit) ∧
    (state.child = .absent ∨ ∃ ending, state.child = .ended ending)

section

variable (sound : Sound state)

include sound

theorem Sound.outcome_known (returned : state.parent = .returned exit) :
    (exit = .aborted ∧ state.child = .absent) ∨ ∃ success, state.outcome = some success := by
  by_cases aborted : exit = .aborted
  · refine .inl ⟨aborted, sound.ordered.absent_of_not ?_⟩
    rw [returned, aborted]
    rfl
  · have took : tookLoad state.parent = 1 := by
      rw [returned]
      exact if_neg aborted
    rcases sound.ordered.written_of_took took with ⟨success, _, knows⟩
    exact .inr ⟨success, sound.ordered.outcome.trans knows⟩

theorem Sound.failure_reported (returned : state.parent = .returned exit)
    (failed : state.outcome = some false) : exit.isError = true := by
  cases exit with
  | created =>
    have loaded := sound.ordered.judged true (by rw [returned]; rfl)
    rw [failed] at loaded
    cases loaded
  | _ => rfl

/-- A parent that has upped `wait_status_create` has set the status or failed to allocate it. -/
theorem Sound.status_decided (gave : gaveCreate state.parent ≠ 0) :
    state.parentWaitStatus = true ∨ state.statusFailed = true := by
  have decided (exit : Exit) (is : answered state.parent = some exit)
      (which : exit = .noStatus ∨ exit = .created) :
      state.parentWaitStatus = true ∨ state.statusFailed = true := by
    rcases which with which | which
    · exact .inr (sound.answers.noStatus (which ▸ is))
    · exact .inl (sound.answers.created (which ▸ is))
  cases here : state.parent with
  | release objects exit | returned exit =>
    rw [here] at gave
    exact decided exit (by rw [here]; rfl) (by_contra fun other => gave (if_neg other))
  | _ =>
    rw [here] at gave
    exact absurd rfl gave

theorem Sound.user_mode (user : state.child = .ended .userMode) :
    state.outcome = some true ∧ (state.parentWaitStatus = true ∨ state.statusFailed = true) := by
  refine ⟨sound.ordered.outcome.trans (by rw [user]; rfl), sound.status_decided ?_⟩
  rw [<- sound.ordered.createSema, user]
  exact Nat.succ_ne_zero _

theorem Sound.freed_at_most_once (object : Object) : state.freed.count object <= 1 := by
  have balance := sound.ledger.balance object
  have once := sound.ledger.once object
  omega

theorem Sound.freed_once (through : finished state) (object : Object) :
    state.freed.count object = if object ∈ state.allocated then 1 else 0 := by
  have balance := sound.ledger.balance object
  have once := sound.ledger.once object
  rcases through with ⟨⟨exit, parent⟩, child⟩
  have nothing : childOwes state.child = [] := by
    rcases child with child | ⟨ending, child⟩ <;> rw [child] <;> rfl
  rw [nothing, parent, show parentOwes (.returned exit) = [] from rfl] at balance
  have same : state.allocated.count object = state.freed.count object := balance
  rw [<- same]
  split
  next made =>
    have some_ := count_pos_iff.mpr made
    omega
  next never => exact count_eq_zero.mpr never

/-- While the child uses `ls`, the parent waits in the function that holds it. -/
theorem Sound.frame_alive (uses : state.child.accessesLoadStatus = true) :
    state.parent = .awaitLoad ∧ state.loadSema = 0 := by
  have gave : gaveLoad state.child = 0 := by
    cases here : state.child with
    | copyArguments | awaitStatus | release objects ending | ended ending =>
      rw [here] at uses; cases uses
    | _ => rfl
  have present : hasThread state.parent = true := by
    rw [sound.ordered.thread]
    refine decide_eq_true fun absent => ?_
    rw [absent] at uses
    cases uses
  have loads := sound.ordered.loadSema
  rw [gave] at loads
  refine ⟨?_, by omega⟩
  have took : tookLoad state.parent = 0 := by omega
  cases here : state.parent with
  | awaitLoad => rfl
  | release objects exit | returned exit =>
    rw [here] at took present
    cases exit with
    | aborted => cases present
    | _ => cases took
  | copyName | copyProgram | createSema | threadCreate => rw [here] at present; cases present
  | _ => rw [here] at took; cases took

end

/-- The parent moves the child only by creating it. -/
theorem parentNext_child (step : parentNext state succeeds = some after) :
    after.child = state.child ∨ state.parent = .threadCreate := by
  cases parentMove_of_next step with
  | begin here => exact .inr here
  | allocate _ _ succeeds => cases succeeds <;> exact .inl rfl
  | _ => exact .inl rfl

/-- The child does not go back behind `sema_up (&ls->load_sema)`. -/
theorem Sound.past_step (sound : Sound state) (step : Step state action after)
    (past : gaveLoad state.child = 1) : gaveLoad after.child = 1 := by
  cases action with
  | parent succeeds =>
    rcases parentNext_child step with same | here
    · rw [same]
      exact past
    · rw [sound.ordered.absent_of_not (by rw [here]; rfl)] at past
      cases past
  | child succeeds =>
    cases childMove_of_next step with
    | copyArguments | takeCreate | free | leave => rfl
    | upLoad here | readName here | load here | writeSuccess here | writeChild here
    | readCreate here =>
      rw [here] at past
      cases past

theorem Sound.past_run (sound : Sound state) (run : Run Step state labels after)
    (past : gaveLoad state.child = 1) : gaveLoad after.child = 1 := by
  induction run with
  | nil => exact past
  | snoc earlier last ih => exact (sound.run earlier).past_step last ih

theorem not_accesses_of_past {pc : ChildPc} (past : gaveLoad pc = 1) :
    pc.accessesLoadStatus = false := by
  cases pc with
  | copyArguments | awaitStatus | release objects ending | ended ending => rfl
  | _ => cases past

theorem Sound.never_again (sound : Sound state) {success taken : Bool} {after later : State}
    (here : state.child = .upLoad success) (up : Step state (.child taken) after)
    (run : Run Step after labels later) : later.child.accessesLoadStatus = false := by
  refine not_accesses_of_past ((sound.step up).past_run run ?_)
  simp only [Step, next, childNext, here] at up
  cases up
  cases success <;> rfl

theorem parent_stuck (stuck : parentNext state succeeds = none) :
    (state.parent = .awaitLoad ∧ state.loadSema = 0) ∨
      ∃ exit, state.parent = .returned exit := by
  cases here : state.parent with
  | awaitLoad =>
    simp only [parentNext, here] at stuck
    split at stuck
    next => cases stuck
    next down => exact .inl ⟨rfl, Nat.eq_zero_of_not_pos down⟩
  | threadCreate | readSuccess | createStatus =>
    simp only [parentNext, here] at stuck
    split at stuck <;> cases stuck
  | release objects exit =>
    cases objects <;> simp only [parentNext, here] at stuck <;> cases stuck
  | returned exit => exact .inr ⟨exit, rfl⟩
  | _ =>
    simp only [parentNext, here] at stuck
    cases stuck

theorem child_stuck (stuck : childNext state succeeds = none) :
    (state.child = .awaitStatus ∧ state.createSema = 0) ∨
      (state.child = .absent ∨ ∃ ending, state.child = .ended ending) := by
  cases here : state.child with
  | absent => exact .inr (.inl rfl)
  | awaitStatus =>
    simp only [childNext, here] at stuck
    split at stuck
    next => cases stuck
    next down => exact .inl ⟨rfl, Nat.eq_zero_of_not_pos down⟩
  | release objects ending =>
    cases objects <;> simp only [childNext, here] at stuck <;> cases stuck
  | ended ending => exact .inr (.inr ⟨ending, rfl⟩)
  | _ =>
    simp only [childNext, here] at stuck
    cases stuck

/-- A parent that waits for `load_sema` has a child on its way to the `sema_up`. -/
theorem Ordered.child_ahead (ordered : Ordered state) (waits : state.parent = .awaitLoad)
    (down : state.loadSema = 0) : gaveLoad state.child = 0 ∧ state.child ≠ .absent := by
  have loads := ordered.loadSema
  have thread := ordered.thread
  rw [waits] at loads thread
  refine ⟨by rw [<- loads, down]; rfl, ?_⟩
  exact of_decide_eq_true thread.symm

/-- A parent that has returned has upped `wait_status_create` for a child that waits for it. -/
theorem Ordered.not_awaiting (ordered : Ordered state) (returned : state.parent = .returned exit)
    (waits : state.child = .awaitStatus) (down : state.createSema = 0) : False := by
  have thread := ordered.thread
  have creates := ordered.createSema
  have outcome := ordered.outcome
  have judged := ordered.judged
  rw [returned] at thread creates judged
  rw [waits] at thread creates outcome
  rw [down] at creates
  cases exit with
  | aborted => cases thread
  | loadFailed =>
    have failed := judged false rfl
    rw [outcome] at failed
    cases failed
  | noStatus | created => cases creates

/-- Neither thread waits for ever. -/
theorem Sound.finished_of_stuck (sound : Sound state)
    (stuck : ∀ action, next state action = none) : finished state := by
  rcases parent_stuck (stuck (.parent true)) with ⟨waits, down⟩ | returned
  · -- the child is before its `sema_up`, where it can always go on
    rcases sound.ordered.child_ahead waits down with ⟨before, present⟩
    rcases child_stuck (stuck (.child true)) with ⟨late, _⟩ | absent | ⟨ending, late⟩
    · rw [late] at before
      cases before
    · exact absurd absent present
    · rw [late] at before
      cases before
  · refine ⟨returned, ?_⟩
    rcases returned with ⟨exit, returned⟩
    rcases child_stuck (stuck (.child true)) with ⟨waits, down⟩ | through
    · exact (sound.ordered.not_awaiting returned waits down).elim
    · exact through

/-! ## Termination -/

def parentRemaining : ParentPc -> Nat
  | .copyName => 22
  | .copyProgram => 21
  | .createSema => 20
  -- the steps of the child come on top once it is created
  | .threadCreate => 19
  | .awaitLoad => 7
  | .readSuccess => 6
  | .createStatus => 5
  | .setStatus => 4
  | .upWithout => 3
  | .upCreate => 3
  | .release objects _ => objects.length + 1
  | .returned _ => 0

def childRemaining : ChildPc -> Nat
  | .absent => 0
  | .readName => 11
  | .load => 10
  | .writeSuccess _ => 9
  | .writeChild _ => 8
  | .readCreate _ => 7
  | .upLoad _ => 6
  | .copyArguments => 5
  | .awaitStatus => 4
  | .release objects _ => objects.length + 1
  | .ended _ => 0

/-- A bound on the steps that are still to come. -/
def remaining (state : State) : Nat :=
  parentRemaining state.parent + childRemaining state.child

theorem childNext_remaining (step : childNext state succeeds = some after) :
    childRemaining after.child < childRemaining state.child := by
  cases childMove_of_next step with
  | @upLoad success here =>
    rw [here]
    cases success <;> simp [childRemaining]
  | readName here | load here _ | writeSuccess here | writeChild here | readCreate here
  | copyArguments here | takeCreate here _ | free here | leave here =>
    rw [here]
    simp [childRemaining]

theorem parentNext_remaining (ordered : Ordered state)
    (step : parentNext state succeeds = some after) : remaining after < remaining state := by
  cases parentMove_of_next step with
  | begin here =>
    have absent := ordered.absent_of_not (by rw [here]; rfl)
    simp [remaining, parentRemaining, childRemaining, here, absent]
  | allocate here which succeeds =>
    cases which <;> cases succeeds <;> simp [remaining, allocate, parentRemaining, here]
  | abort here | takeLoad here _ | success here _ | failure here _ | makeStatus here
  | missStatus here | setStatus here | upWithout here | upCreate here | free here | leave here =>
    simp [remaining, parentRemaining, here]

theorem Sound.remaining_step (sound : Sound state) (step : Step state action after) :
    remaining after < remaining state := by
  cases action with
  | parent succeeds => exact parentNext_remaining sound.ordered step
  | child succeeds =>
    have less := childNext_remaining step
    unfold remaining
    rw [(childNext_frame step).1]
    omega

/-- No run is longer than the bound of its first state. -/
theorem Sound.remaining_run (sound : Sound state) (run : Run Step state labels after) :
    labels.length + remaining after <= remaining state := by
  induction run with
  | nil => simp
  | snoc earlier last ih =>
    have less := (sound.run earlier).remaining_step last
    rw [length_append]
    simp only [length_singleton]
    omega

/-- The handshake is safe in every interleaving: the parent returns only when the outcome of
`load` is known and reports its failure; the child enters user mode only after a successful
`load` and when its status is set or could not be made; nothing is freed twice and everything
is freed once both are through; the child uses `ls` only while the parent waits in the function
that holds it, and never after its `sema_up`; and the two never block each other. -/
theorem exec_handshake_safe {labels : List Action} {state : State}
    (run : Run Step initial labels state) :
    (∀ exit, state.parent = .returned exit ->
      ((exit = .aborted ∧ state.child = .absent) ∨ ∃ success, state.outcome = some success) ∧
        (state.outcome = some false -> exit.isError = true)) ∧
    (state.child = .ended .userMode ->
      state.outcome = some true ∧
        (state.parentWaitStatus = true ∨ state.statusFailed = true)) ∧
    (∀ object, state.freed.count object <= 1 ∧
      (finished state ->
        state.freed.count object = if object ∈ state.allocated then 1 else 0)) ∧
    (state.child.accessesLoadStatus = true ->
      state.parent = .awaitLoad ∧ state.loadSema = 0) ∧
    (∀ success taken after further later, state.child = .upLoad success ->
      Step state (.child taken) after -> Run Step after further later ->
        later.child.accessesLoadStatus = false) ∧
    ((∀ action, next state action = none) -> finished state) ∧
    labels.length <= 22 := by
  have sound := initial_sound.run run
  refine ⟨fun exit returned => ⟨sound.outcome_known returned, sound.failure_reported returned⟩,
    sound.user_mode, fun object => ⟨sound.freed_at_most_once object,
      fun through => sound.freed_once through object⟩, sound.frame_alive,
    fun _ _ _ _ _ here up later => sound.never_again here up later, sound.finished_of_stuck, ?_⟩
  exact Nat.le_of_add_right_le (initial_sound.remaining_run run)

/-- Everything succeeds, and the parent is through before the child has copied its arguments. -/
def execSucceeds : List Action :=
  replicate 4 (.parent true) ++ replicate 6 (.child true) ++
    replicate 7 (.parent true) ++ replicate 5 (.child true)

theorem exec_handshake_safe_execSucceeds :
    ∃ state, Run Step initial execSucceeds state ∧ state.parent = .returned .created ∧
      state.child = .ended .userMode ∧
      (state.parentWaitStatus = true ∨ state.statusFailed = true) ∧
      state.freed.count .fnCopy = if Object.fnCopy ∈ state.allocated then 1 else 0 := by
  have observed : (execSucceeds.foldlM next initial).map
      (fun state => (state.parent, state.child)) =
        some (.returned .created, .ended .userMode) := by
    decide +kernel
  rcases Option.map_eq_some_iff.mp observed with ⟨state, done, same⟩
  simp only [Prod.mk.injEq] at same
  have run : Run Step initial execSucceeds state := run_of_foldlM id done
  rcases exec_handshake_safe run with ⟨_, user, freed, _⟩
  exact ⟨state, run, same.1, same.2, (user same.2).2,
    (freed .fnCopy).2 ⟨⟨_, same.1⟩, .inr ⟨_, same.2⟩⟩⟩

end Handshake
end Pintos
end Codebank
