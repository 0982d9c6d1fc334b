import Codebank.Foundation.Machine

namespace Codebank
namespace Pintos

open Foundation List

/-!
# One `wait_status` between two processes

What a parent and one child do to the record they share, without the lists, the
other children and the addresses.  The count says how many of the two have still to
take leave; whoever takes it to zero owes the one call of `free`.  The exit code
doubles as the mark of a wait that has been answered.
-/

inductive Side where
  | parent
  | child
  deriving DecidableEq

/-- Where the parent is with respect to the record. -/
inductive ParentPhase where
  /-- neither waiting for the child nor taking leave -/
  | idle
  | down
  | read
  | clear (exitCode : Int)
  /-- the lock is held, the count is not yet decremented -/
  | holding
  /-- the lock is held and the count decremented; the flag says whether `free` is owed -/
  | counted (owes : Bool)
  | left (owes : Bool)
  deriving DecidableEq

inductive ChildPhase where
  | alive
  /-- the exit code is written -/
  | ended
  | holding
  | counted (owes : Bool)
  | freeing
  | upping
  | dead
  deriving DecidableEq

structure Shared where
  parent : ParentPhase
  child : ChildPhase
  holder : Option Side
  count : Int
  exitCode : Int
  exitSem : Nat
  /-- history: how often the record has been freed -/
  frees : Nat
  /-- history: the status with which the child ended -/
  ended : Option Int
  /-- history: the results of the waits for the child -/
  results : List Int

namespace Shared

def initial : Shared where
  parent := .idle
  child := .alive
  holder := none
  count := 2
  exitCode := -2
  exitSem := 0
  frees := 0
  ended := none
  results := []

/-- The accesses of both sides. -/
inductive Move where
  | wait
  | refuse
  | down
  | read
  | clear
  | parentLock
  | parentCount
  | parentUnlock
  | parentFree
  | finish
  | childLock
  | childCount
  | childUnlock
  | childFree
  | childUp
  deriving DecidableEq

inductive Step : Shared -> Move -> Shared -> Prop where
  | wait {shared : Shared} : shared.parent = .idle -> shared.exitCode ≠ -1 ->
      Step shared .wait { shared with parent := .down }
  | refuse {shared : Shared} : shared.parent = .idle -> shared.exitCode = -1 ->
      Step shared .refuse { shared with results := shared.results ++ [-1] }
  | down {shared : Shared} : shared.parent = .down -> 0 < shared.exitSem ->
      Step shared .down { shared with parent := .read, exitSem := shared.exitSem - 1 }
  | read {shared : Shared} : shared.parent = .read ->
      Step shared .read { shared with parent := .clear shared.exitCode }
  | clear {shared : Shared} {exitCode : Int} : shared.parent = .clear exitCode ->
      Step shared .clear { shared with
        parent := .idle
        exitCode := -1
        results := shared.results ++ [exitCode] }
  | parentLock {shared : Shared} : shared.parent = .idle -> shared.holder = none ->
      Step shared .parentLock { shared with parent := .holding, holder := some .parent }
  | parentCount {shared : Shared} : shared.parent = .holding ->
      Step shared .parentCount { shared with
        parent := .counted (decide (shared.count - 1 = 0))
        count := shared.count - 1 }
  | parentUnlock {shared : Shared} {owes : Bool} : shared.parent = .counted owes ->
      Step shared .parentUnlock { shared with parent := .left owes, holder := none }
  | parentFree {shared : Shared} : shared.parent = .left true ->
      Step shared .parentFree { shared with parent := .left false, frees := shared.frees + 1 }
  | finish {shared : Shared} (status : Int) : shared.child = .alive ->
      Step shared .finish { shared with
        child := .ended
        exitCode := status
        ended := some status }
  | childLock {shared : Shared} : shared.child = .ended -> shared.holder = none ->
      Step shared .childLock { shared with child := .holding, holder := some .child }
  | childCount {shared : Shared} : shared.child = .holding ->
      Step shared .childCount { shared with
        child := .counted (decide (shared.count - 1 = 0))
        count := shared.count - 1 }
  | childUnlock {shared : Shared} {owes : Bool} : shared.child = .counted owes ->
      Step shared .childUnlock { shared with
        child := if owes then .freeing else .upping
        holder := none }
  | childFree {shared : Shared} : shared.child = .freeing ->
      Step shared .childFree { shared with child := .dead, frees := shared.frees + 1 }
  | childUp {shared : Shared} : shared.child = .upping ->
      Step shared .childUp { shared with child := .dead, exitSem := shared.exitSem + 1 }

/-! ## The count and the call of `free` -/

def parentShare : ParentPhase -> Int
  | .counted _ => 0
  | .left _ => 0
  | _ => 1

def childShare : ChildPhase -> Int
  | .alive => 1
  | .ended => 1
  | .holding => 1
  | _ => 0

def parentOwes : ParentPhase -> Nat
  | .counted true => 1
  | .left true => 1
  | _ => 0

def childOwes : ChildPhase -> Nat
  | .counted true => 1
  | .freeing => 1
  | _ => 0

def parentHolds : ParentPhase -> Bool
  | .holding => true
  | .counted _ => true
  | _ => false

def childHolds : ChildPhase -> Bool
  | .holding => true
  | .counted _ => true
  | _ => false

/-- The lock and the count. -/
structure Counted (shared : Shared) : Prop where
  parentHolder : parentHolds shared.parent = true -> shared.holder = some .parent
  childHolder : childHolds shared.child = true -> shared.holder = some .child
  count : shared.count = parentShare shared.parent + childShare shared.child
  ledger : parentOwes shared.parent + childOwes shared.child + shared.frees =
    if shared.count = 0 then 1 else 0
  /-- the parent owes `free`, and the record is freed, only when the child is behind
  its lock -/
  owing : 0 < parentOwes shared.parent + shared.frees ->
    shared.child = .upping ∨ shared.child = .dead

theorem counted_initial : Counted initial :=
  ⟨by decide, by decide, rfl, rfl, by decide⟩

variable {shared after : Shared} {move : Move}

/-- The part of both in the count, the lock and the debts. -/
def part (shared : Shared) :=
  ((shared.holder, shared.count, shared.frees),
    (parentHolds shared.parent, parentShare shared.parent, parentOwes shared.parent),
    childHolds shared.child, childShare shared.child, childOwes shared.child,
    decide (shared.child = .upping ∨ shared.child = .dead))

theorem Counted.alike (counted : Counted shared) (same : part after = part shared) :
    Counted after := by
  simp only [part, Prod.mk.injEq, decide_eq_decide] at same
  rcases same with ⟨⟨holder, count, frees⟩, ⟨parentHolder, parentCount, parentDebt⟩, childHolder,
    childCount, childDebt, behind⟩
  constructor
  · rw [parentHolder, holder]; exact counted.parentHolder
  · rw [childHolder, holder]; exact counted.childHolder
  · rw [count, parentCount, childCount]; exact counted.count
  · rw [count, frees, parentDebt, childDebt]; exact counted.ledger
  · rw [parentDebt, frees, behind]; exact counted.owing

/-- A child that has left and does not owe `free` is behind its lock, unless it
holds it. -/
theorem child_behind {phase : ChildPhase} (share : childShare phase = 0)
    (owes : childOwes phase = 0) (holds : childHolds phase = false) :
    phase = .upping ∨ phase = .dead := by
  cases phase with
  | upping => exact .inl rfl
  | dead => exact .inr rfl
  | freeing => cases owes
  | counted _ => cases holds
  | alive | ended | holding => cases share

theorem parentShare_nonneg (phase : ParentPhase) : 0 <= parentShare phase := by
  cases phase <;> simp [parentShare]

theorem childShare_nonneg (phase : ChildPhase) : 0 <= childShare phase := by
  cases phase <;> simp [childShare]

theorem parentOwes_counted (owes : Bool) :
    parentOwes (.counted owes) = parentOwes (.left owes) ∧
      parentOwes (.left owes) = if owes then 1 else 0 := by
  cases owes <;> decide

theorem childOwes_counted (owes : Bool) :
    childOwes (.counted owes) = childOwes (if owes then .freeing else .upping) ∧
      childOwes (.counted owes) = if owes then 1 else 0 := by
  cases owes <;> decide

section

variable (counted : Counted shared)

include counted

/-- The lock is not held by both. -/
theorem Counted.exclusive (parent : parentHolds shared.parent = true) :
    childHolds shared.child = false := by
  by_contra holds
  have both := counted.childHolder (by simpa using holds)
  rw [counted.parentHolder parent] at both
  cases both

/-- The parent takes its share out of the count, under the lock. -/
theorem Counted.parentCount (holding : shared.parent = .holding) :
    Counted { shared with
      parent := .counted (decide (shared.count - 1 = 0)), count := shared.count - 1 } := by
  have outside := counted.exclusive (by rw [holding]; rfl)
  rcases counted with ⟨parentHolder, childHolder, count, ledger, owing⟩
  rw [holding] at parentHolder count ledger owing
  have nonneg := childShare_nonneg shared.child
  change shared.count = 1 + childShare shared.child at count
  change 0 + childOwes shared.child + shared.frees = _ at ledger
  rw [if_neg (by omega)] at ledger
  refine ⟨fun _ => parentHolder rfl, childHolder, ?_, ?_, ?_⟩
  · change shared.count - 1 = 0 + childShare shared.child
    omega
  · rw [(parentOwes_counted _).1, (parentOwes_counted _).2]
    simp only [decide_eq_true_eq]
    omega
  · rw [(parentOwes_counted _).1, (parentOwes_counted _).2]
    simp only [decide_eq_true_eq]
    intro debt
    exact child_behind (by split at debt <;> omega) (by omega) outside

/-- The child takes its share out of the count, under the lock. -/
theorem Counted.childCount (holding : shared.child = .holding) :
    Counted { shared with
      child := .counted (decide (shared.count - 1 = 0)), count := shared.count - 1 } := by
  rcases counted with ⟨parentHolder, childHolder, count, ledger, owing⟩
  rw [holding] at childHolder count ledger owing
  have nonneg := parentShare_nonneg shared.parent
  change shared.count = parentShare shared.parent + 1 at count
  change parentOwes shared.parent + 0 + shared.frees = _ at ledger
  rw [if_neg (by omega)] at ledger
  refine ⟨parentHolder, fun _ => childHolder rfl, ?_, ?_, fun debt => ?_⟩
  · change shared.count - 1 = parentShare shared.parent + 0
    omega
  · rw [(childOwes_counted _).2]
    simp only [decide_eq_true_eq]
    omega
  · exact absurd debt (by change ¬ 0 < parentOwes shared.parent + shared.frees; omega)

theorem Counted.step (step : Step shared move after) : Counted after := by
  cases step with
  | wait here _ | down here _ | read here | clear here | finish _ here | childUp here =>
    exact counted.alike (by rw [part, part, here]; rfl)
  | refuse idle _ => exact counted.alike rfl
  | parentLock idle free =>
    rcases counted with ⟨parentHolder, childHolder, count, ledger, owing⟩
    rw [idle] at count ledger owing
    rw [free] at childHolder
    exact ⟨fun _ => rfl, fun holds => (by cases childHolder holds), count, ledger, owing⟩
  | childLock ended free =>
    rcases counted with ⟨parentHolder, childHolder, count, ledger, owing⟩
    rw [ended] at count ledger owing
    rw [free] at parentHolder
    exact ⟨fun holds => (by cases parentHolder holds), fun _ => rfl, count, ledger,
      fun debt => by simpa using owing debt⟩
  | parentCount holding => exact counted.parentCount holding
  | parentUnlock counting =>
    have outside := counted.exclusive (by rw [counting]; rfl)
    rcases counted with ⟨_, _, count, ledger, owing⟩
    rw [counting] at count ledger owing
    rw [(parentOwes_counted _).1] at ledger owing
    exact ⟨fun holds => (by cases holds), fun holds => (by cases outside.symm.trans holds),
      count, ledger, owing⟩
  | parentFree leaving =>
    rcases counted with ⟨parentHolder, childHolder, count, ledger, owing⟩
    rw [leaving] at parentHolder count ledger owing
    refine ⟨fun holds => (by cases holds), childHolder, count, ?_, fun _ => owing ?_⟩
    · simp only [parentOwes] at ledger ⊢
      omega
    · simp only [parentOwes]
      omega
  | childCount holding => exact counted.childCount holding
  | childUnlock counting =>
    have exclusive := counted.exclusive
    rcases counted with ⟨_, _, count, ledger, owing⟩
    rw [counting] at exclusive count ledger owing
    rw [(childOwes_counted _).1] at ledger
    refine ⟨fun holds => ?_, fun holds => ?_, ?_, ledger, fun debt => by simpa using owing debt⟩
    · cases exclusive holds
    · split at holds <;> cases holds
    · rw [count]
      split <;> rfl
  | childFree freeing =>
    rcases counted with ⟨parentHolder, childHolder, count, ledger, owing⟩
    rw [freeing] at childHolder count ledger owing
    refine ⟨parentHolder, fun holds => (by cases holds), count, ?_, fun _ => .inr rfl⟩
    simp only [childOwes] at ledger ⊢
    omega

end

variable {moves : List Move}

theorem counted_run (run : Run Step initial moves shared) : Counted shared := by
  induction run with
  | nil => exact counted_initial
  | snoc _ last counted => exact counted.step last

/-! ## The exit code and the semaphore -/

/-- What the results of the waits so far say about the exit code. -/
structure Waits (shared : Shared) : Prop where
  living : shared.child = .alive <-> shared.ended = none
  unasked : shared.results = [] -> shared.exitCode = shared.ended.getD (-2)
  asked : shared.results ≠ [] -> shared.ended = shared.results.head? ∧ shared.exitCode = -1
  again : ∀ result, result ∈ shared.results.tail -> result = -1
  waiting : shared.parent = .down -> shared.results = []
  reading : shared.parent = .read -> shared.results = [] ∧ shared.child = .dead
  clearing : ∀ exitCode, shared.parent = .clear exitCode ->
    shared.results = [] ∧ shared.child = .dead ∧ shared.ended = some exitCode
  upped : 0 < shared.exitSem -> shared.child = .dead

theorem waits_initial : Waits initial := by
  constructor <;> simp [initial]

/-- A wait adds its result and leaves the mark in the exit code. -/
theorem Waits.answer (waits : Waits shared) (result : Int)
    (first : shared.results = [] -> shared.ended = some result)
    (later : shared.results ≠ [] -> result = -1) :
    Waits { shared with
      parent := .idle, exitCode := -1, results := shared.results ++ [result] } where
  living := waits.living
  unasked none := by simp at none
  asked _ := by
    refine ⟨?_, rfl⟩
    cases before : shared.results with
    | nil => exact first before
    | cons head rest =>
      have known := (waits.asked (by rw [before]; simp)).1
      rw [before] at known
      exact known
  again other member := by
    cases before : shared.results with
    | nil => simp [before] at member
    | cons head rest =>
      simp only [before, cons_append, tail_cons, mem_append,
        mem_singleton] at member
      rcases member with member | same
      · exact waits.again other (by rw [before]; exact member)
      · exact same.trans (later (by rw [before]; simp))
  waiting impossible := by cases impossible
  reading impossible := by cases impossible
  clearing _ impossible := by cases impossible
  upped := waits.upped

theorem Waits.step (waits : Waits shared) (step : Step shared move after) : Waits after := by
  cases step with
  | refuse idle marked =>
    have ended (none : shared.results = []) : shared.ended = some (-1) := by
      have code := waits.unasked none
      rw [marked] at code
      cases ended : shared.ended with
      | none => rw [ended] at code; cases code
      | some status => rw [ended] at code; exact congrArg some code.symm
    rcases shared with ⟨parent, child, holder, count, exitCode, exitSem, frees, ending, results⟩
    cases idle
    cases marked
    exact waits.answer (-1) ended (fun _ => rfl)
  | clear clearing =>
    rcases waits.clearing _ clearing with ⟨none, _, ended⟩
    exact waits.answer _ (fun _ => ended) (fun some => absurd none some)
  | read reading =>
    rcases waits.reading reading with ⟨none, dead⟩
    refine ⟨waits.living, waits.unasked, waits.asked, waits.again, ?_, ?_, ?_, waits.upped⟩
    · intro impossible; cases impossible
    · intro impossible; cases impossible
    · intro exitCode same
      cases same
      refine ⟨none, dead, ?_⟩
      cases ended : shared.ended with
      | none =>
        have alive := waits.living.mpr ended
        rw [dead] at alive
        cases alive
      | some status =>
        have code := waits.unasked none
        rw [ended] at code
        exact congrArg some code.symm
  | finish status alive =>
    have fresh : shared.results = [] := by
      by_contra some
      have known := (waits.asked some).1
      rw [waits.living.mp alive] at known
      exact some (List.head?_eq_none_iff.mp known.symm)
    rcases waits with ⟨living, unasked, asked, again, waiting, reading, clearing, upped⟩
    constructor <;> grind
  | _ =>
    rcases waits with ⟨living, unasked, asked, again, waiting, reading, clearing, upped⟩
    constructor <;> grind

theorem waits_run (run : Run Step initial moves shared) : Waits shared := by
  induction run with
  | nil => exact waits_initial
  | snoc _ last waits => exact waits.step last

/-- A dead child has upped its semaphore, as long as nobody was answered and the parent has
not come to leave. -/
def Upped (shared : Shared) : Prop :=
  shared.child = .dead -> shared.results = [] -> shared.parent = .idle ∨ shared.parent = .down ->
    0 < shared.exitSem

theorem Upped.step (upped : Upped shared) (counted : Counted shared)
    (step : Step shared move after) : Upped after := by
  intro dead unanswered staying
  cases step with
  | wait idle _ => exact upped dead unanswered (.inl idle)
  | refuse _ _ | clear _ => simp at unanswered
  | down _ _ | read _ | parentLock _ _ | parentCount _ | parentUnlock _ | parentFree _ =>
    rcases staying with impossible | impossible <;> cases impossible
  | finish _ _ | childLock _ _ | childCount _ => cases dead
  | childUnlock _ =>
    simp only at dead
    split at dead <;> cases dead
  | childFree freeing =>
    -- the child frees only what the parent has left
    have count := counted.count
    have ledger := counted.ledger
    rw [freeing] at count ledger
    have share : parentShare shared.parent = 1 := by
      rcases staying with same | same <;> rw [show shared.parent = _ from same] <;> rfl
    rw [share] at count
    simp only [childShare, childOwes] at count ledger
    rw [if_neg (by omega)] at ledger
    omega
  | childUp _ => exact Nat.succ_pos _

theorem upped_run (run : Run Step initial moves shared) : Upped shared := by
  induction run with
  | nil => exact fun impossible => (by cases impossible)
  | snoc earlier last upped => exact upped.step (counted_run earlier) last

/-! ## What depends on the order of the steps -/

theorem dead_stays (step : Step shared move after) (dead : shared.child = .dead) :
    after.child = .dead := by
  cases step with
  | finish _ phase | childLock phase | childCount phase | childUnlock phase =>
    rw [dead] at phase; cases phase
  | childFree | childUp => rfl
  | _ => exact dead

theorem Step.marked (step : Step shared .refuse after) : shared.exitCode = -1 := by
  cases step with
  | refuse _ marked => exact marked

theorem frees_cases (step : Step shared move after) :
    after.frees = shared.frees ∨ move = .parentFree ∨ move = .childFree := by
  cases step with
  | parentFree => exact .inr (.inl rfl)
  | childFree => exact .inr (.inr rfl)
  | _ => exact .inl rfl

/-- A freed record is not used by the child any more, if the parent never frees it
between the child's last two steps. -/
theorem dead_of_freed (counted : Counted shared) (step : Step shared move after)
    (orderly : move = .parentFree -> shared.child ≠ .upping)
    (before : 0 < shared.frees -> shared.child = .dead) (freed : 0 < after.frees) :
    after.child = .dead := by
  by_cases earlier : 0 < shared.frees
  · exact dead_stays step (before earlier)
  · cases step with
    | parentFree leaving =>
      have behind := counted.owing (by rw [leaving]; simp only [parentOwes]; omega)
      exact behind.resolve_left (orderly rfl)
    | childFree => rfl
    | _ => exact absurd freed earlier

/-- The first result comes after the child's last step, if no first wait is refused
before it. -/
theorem dead_of_answered (waits : Waits shared) (step : Step shared move after)
    (patient : move = .refuse -> shared.results ≠ [] ∨ 0 < shared.exitSem)
    (before : shared.results ≠ [] -> shared.child = .dead) (answered : after.results ≠ []) :
    after.child = .dead := by
  by_cases earlier : shared.results ≠ []
  · exact dead_stays step (before earlier)
  · cases step with
    | refuse => exact waits.upped ((patient rfl).resolve_left earlier)
    | clear clearing => exact (waits.clearing _ clearing).2.1
    | _ => exact absurd answered earlier

end Shared

end Pintos
end Codebank
