import Codebank.Pintos.Children
import Codebank.Pintos.SharedStatus

namespace Codebank
namespace Pintos

open Foundation Function

/-!
# A parent and a child

Every step of the kernel is, for each parent and child, a step of the two-sided
protocol on their `wait_status` or no step at all.
-/

namespace Kernel

/-! ## What the kernel's state says about one pair -/

/-- Where the parent is with respect to one child. -/
def parentPhase (child : Tid) : Pc -> ParentPhase
  | .waitDown _ wstatus => if child = wstatus then .down else .idle
  | .waitRead _ wstatus => if child = wstatus then .read else .idle
  | .waitClear _ wstatus exitCode => if child = wstatus then .clear exitCode else .idle
  | .eachChild c deleteChildren =>
    if passed c child then .left (decide (child ∈ deleteChildren)) else .idle
  | .lockChild wstatus deleteChildren =>
    if child < wstatus then .left (decide (child ∈ deleteChildren)) else .idle
  | .countChild wstatus deleteChildren =>
    if child < wstatus then .left (decide (child ∈ deleteChildren))
    else if child = wstatus then .holding else .idle
  | .unlockChild wstatus deleteChildren =>
    if child < wstatus then .left (decide (child ∈ deleteChildren))
    else if child = wstatus then .counted (decide (child ∈ deleteChildren)) else .idle
  | .nextChild wstatus deleteChildren =>
    if child <= wstatus then .left (decide (child ∈ deleteChildren)) else .idle
  | .removeChild deleteChildren => .left (decide (child ∈ deleteChildren))
  | .freeChild wstatus deleteChildren => .left (decide (child ∈ wstatus :: deleteChildren))
  | .lockParent => .left false
  | .countParent => .left false
  | .unlockParent _ => .left false
  | .freeParent => .left false
  | .upParent => .left false
  | .dead => .left false
  | _ => .idle

def childPhase : Pc -> ChildPhase
  | .absent => .alive
  | .user => .alive
  | .waitTest _ _ => .alive
  | .waitDown _ _ => .alive
  | .waitRead _ _ => .alive
  | .waitClear _ _ _ => .alive
  | .countParent => .holding
  | .unlockParent deallocateParent => .counted deallocateParent
  | .freeParent => .freeing
  | .upParent => .upping
  | .dead => .dead
  | _ => .ended

/-- The results of the waits of a thread for a child of its own. -/
def resultsFor (child : Tid) (waited : List Waited) : List Int :=
  (waited.filter (fun call => call.own && decide (call.child = child))).map Waited.result

def sideOf (child : Tid) (holder : Tid) : Side :=
  if holder = child then .child else .parent

def pairOf (kernel : Kernel) (parent child : Tid) : Shared where
  parent := parentPhase child (kernel.pc parent)
  child := childPhase (kernel.pc child)
  holder := (kernel.statuses child).holder.map (sideOf child)
  count := (kernel.statuses child).count
  exitCode := (kernel.statuses child).childExitCode
  exitSem := (kernel.statuses child).childExitSem
  frees := kernel.freed.count child
  ended := (kernel.threads child).ended
  results := resultsFor child (kernel.threads parent).waited

/-- The steps at which the order of things matters, with the place in the code
where they are taken. -/
def TakenAt (kernel : Kernel) (tid parent child : Tid) : Shared.Move -> Prop
  | .refuse => tid = parent ∧ kernel.pc parent = .waitTest child (.entry child)
  | .parentFree => tid = parent ∧ ∃ rest, kernel.pc parent = .freeChild child rest
  | .childFree => tid = child ∧ kernel.pc child = .freeParent
  | _ => True

/-- What a step of a thread is for one pair. -/
def PairStep (kernel : Kernel) (tid : Tid) (after : Kernel) (parent child : Tid) : Prop :=
  after.pairOf parent child = kernel.pairOf parent child ∨
    ∃ move, Shared.Step (kernel.pairOf parent child) move (after.pairOf parent child) ∧
      kernel.TakenAt tid parent child move

/-! ## Reading the phase of a parent -/

section

variable {child wstatus : Tid} {deleteChildren : List Tid} {waited : Tid}

theorem parentPhase_waitDown : parentPhase child (.waitDown waited wstatus) =
    if child = wstatus then .down else .idle := rfl

theorem parentPhase_waitRead : parentPhase child (.waitRead waited wstatus) =
    if child = wstatus then .read else .idle := rfl

theorem parentPhase_waitClear {exitCode : Int} :
    parentPhase child (.waitClear waited wstatus exitCode) =
      if child = wstatus then .clear exitCode else .idle := rfl

theorem parentPhase_eachChild {c : Elem} : parentPhase child (.eachChild c deleteChildren) =
    if passed c child then .left (decide (child ∈ deleteChildren)) else .idle := rfl

theorem parentPhase_lockChild : parentPhase child (.lockChild wstatus deleteChildren) =
    if child < wstatus then .left (decide (child ∈ deleteChildren)) else .idle := rfl

theorem parentPhase_countChild : parentPhase child (.countChild wstatus deleteChildren) =
    if child < wstatus then .left (decide (child ∈ deleteChildren))
    else if child = wstatus then .holding else .idle := rfl

theorem parentPhase_unlockChild : parentPhase child (.unlockChild wstatus deleteChildren) =
    if child < wstatus then .left (decide (child ∈ deleteChildren))
    else if child = wstatus then .counted (decide (child ∈ deleteChildren)) else .idle := rfl

theorem parentPhase_nextChild : parentPhase child (.nextChild wstatus deleteChildren) =
    if child <= wstatus then .left (decide (child ∈ deleteChildren)) else .idle := rfl

theorem parentPhase_removeChild : parentPhase child (.removeChild deleteChildren) =
    .left (decide (child ∈ deleteChildren)) := rfl

theorem parentPhase_freeChild : parentPhase child (.freeChild wstatus deleteChildren) =
    .left (decide (child ∈ wstatus :: deleteChildren)) := rfl

end

/-! ## Reading the changed state -/

variable {kernel after : Kernel} {tid parent child wstatus : Tid}

@[simp] theorem setThread_self (kernel : Kernel) (tid : Tid) (thread : Thread) :
    (kernel.setThread tid thread).threads tid = thread :=
  update_self _ _ _

@[simp] theorem setStatus_self (kernel : Kernel) (wstatus : Tid) (status : WaitStatus) :
    (kernel.setStatus wstatus status).statuses wstatus = status :=
  update_self _ _ _

theorem setThread_of_ne {other : Tid} (different : other ≠ tid) (thread : Thread) :
    (kernel.setThread tid thread).threads other = kernel.threads other :=
  update_of_ne different _ _

theorem setStatus_of_ne {other : Tid} (different : other ≠ wstatus) (status : WaitStatus) :
    (kernel.setStatus wstatus status).statuses other = kernel.statuses other :=
  update_of_ne different _ _

@[simp] theorem goto_self (kernel : Kernel) (tid : Tid) (pc : Pc) :
    (kernel.goto tid pc).threads tid = { kernel.threads tid with pc := pc } :=
  update_self _ _ _

@[simp] theorem goto_pc_self (kernel : Kernel) (tid : Tid) (pc : Pc) :
    (kernel.goto tid pc).pc tid = pc := by
  rw [Kernel.pc, goto_self]

theorem resultsFor_append (child : Tid) (waited : List Waited) (call : Waited) :
    resultsFor child (waited ++ [call]) = resultsFor child waited ++
      (if call.own && decide (call.child = child) then [call.result] else []) := by
  rw [resultsFor, resultsFor, List.filter_append, List.map_append, List.filter_singleton]
  cases call.own && decide (call.child = child) <;> rfl

/-- A pair to which the step means nothing. -/
theorem Moves.pairOf_congr (moves : Moves kernel tid after)
    (status : after.statuses child = kernel.statuses child)
    (freed : after.freed.count child = kernel.freed.count child) (asParent : tid = parent ->
      parentPhase child (after.pc tid) = parentPhase child (kernel.pc tid) ∧
        resultsFor child (after.threads tid).waited = resultsFor child (kernel.threads tid).waited)
    (asChild : tid = child -> childPhase (after.pc tid) = childPhase (kernel.pc tid) ∧
      (after.threads tid).ended = (kernel.threads tid).ended) :
    after.pairOf parent child = kernel.pairOf parent child := by
  have parentSame : parentPhase child (after.pc parent) = parentPhase child (kernel.pc parent) ∧
      resultsFor child (after.threads parent).waited =
        resultsFor child (kernel.threads parent).waited := by
    by_cases same : tid = parent
    · exact same ▸ asParent same
    · rw [pc, moves.others parent (Ne.symm same)]
      exact ⟨rfl, rfl⟩
  have childSame : childPhase (after.pc child) = childPhase (kernel.pc child) ∧
      (after.threads child).ended = (kernel.threads child).ended := by
    by_cases same : tid = child
    · exact same ▸ asChild same
    · rw [pc, moves.others child (Ne.symm same)]
      exact ⟨rfl, rfl⟩
  rw [pairOf, pairOf, parentSame.1, parentSame.2, childSame.1, childSame.2, status, freed]

/-- The pair after a step of the parent. -/
theorem Moves.pairOf_parent (moves : Moves kernel parent after) (different : child ≠ parent) :
    after.pairOf parent child = { kernel.pairOf parent child with
      parent := parentPhase child (after.pc parent)
      holder := (after.statuses child).holder.map (sideOf child)
      count := (after.statuses child).count
      exitCode := (after.statuses child).childExitCode
      exitSem := (after.statuses child).childExitSem
      frees := after.freed.count child
      results := resultsFor child (after.threads parent).waited } := by
  rw [pairOf, pc, pc, moves.others child different]
  rfl

/-- The pair after a step of the child. -/
theorem Moves.pairOf_child (moves : Moves kernel child after) (different : parent ≠ child) :
    after.pairOf parent child = { kernel.pairOf parent child with
      child := childPhase (after.pc child)
      holder := (after.statuses child).holder.map (sideOf child)
      count := (after.statuses child).count
      exitCode := (after.statuses child).childExitCode
      exitSem := (after.statuses child).childExitSem
      frees := after.freed.count child
      ended := (after.threads child).ended } := by
  rw [pairOf, pc, moves.others parent different]
  rfl

end Kernel

end Pintos
end Codebank
