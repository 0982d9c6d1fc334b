import Codebank.Pintos.Pairs

namespace Codebank
namespace Pintos

open Foundation List Function Option

/-!
# The steps of a thread

One lemma for each function of the kernel: the state stays well formed, and each
pair takes a step of the two-sided protocol or none.
-/

namespace Kernel

variable {kernel after : Kernel} {tid child wstatus : Tid}

/-- At most one call of `process_wait` returns, and with -1 if the thread has no such
child. -/
def Logs (kernel : Kernel) (tid : Tid) (after : Kernel) : Prop :=
  (after.threads tid).waited = (kernel.threads tid).waited ∨
    ∃ child result, (after.threads tid).waited = (kernel.threads tid).waited ++
      [⟨child, kernel.isChild tid child, result⟩] ∧
      (kernel.isChild tid child = false -> result = -1)

/-- What a step of a thread does. -/
structure Effect (kernel : Kernel) (tid : Tid) (after : Kernel) : Prop where
  wellFormed : WellFormed after
  moves : Moves kernel tid after
  logs : Logs kernel tid after
  spares : ∀ late, kernel.nextTid <= late -> after.freed.count late = kernel.freed.count late
  frame : ∀ owner elem, owner ≠ tid -> kernel.Owned owner elem ->
    after.links.next elem = kernel.links.next elem ∧ after.links.prev elem = kernel.links.prev elem
  early : whole (after.pc tid) = true -> whole (kernel.pc tid) = true
  pairs : ∀ parent child, kernel.isChild parent child = true ->
    PairStep kernel tid after parent child

/-- The part of a step that concerns the thread alone. -/
structure Arrives (kernel : Kernel) (tid : Tid) (after : Kernel) : Prop where
  moves : Moves kernel tid after
  links : after.links = kernel.links
  present : kernel.pc tid ≠ .absent
  placed : kernel.Placed tid (after.pc tid)
  early : whole (after.pc tid) = true -> whole (kernel.pc tid) = true
  gone : released (after.pc tid) = true -> (after.threads tid).resources = false
  logs : Logs kernel tid after
  spares : ∀ late, kernel.nextTid <= late -> after.freed.count late = kernel.freed.count late

theorem Arrives.effect (arrives : Arrives kernel tid after) (wellFormed : WellFormed kernel)
    (pairs : ∀ parent child, kernel.isChild parent child = true ->
      PairStep kernel tid after parent child) : Effect kernel tid after where
  wellFormed := wellFormed.moves arrives.moves arrives.links arrives.present arrives.placed
    arrives.early arrives.gone
  moves := arrives.moves
  logs := arrives.logs
  spares := arrives.spares
  frame _ _ _ _ := by rw [arrives.links]; exact ⟨rfl, rfl⟩
  early := arrives.early
  pairs := pairs

/-- A step that changes one `wait_status`, and means nothing to the other pairs. -/
theorem Effect.of_pair (wstatus : Tid) (wellFormed : WellFormed kernel)
    (arrives : Arrives kernel tid after)
    (statuses : ∀ child, child ≠ wstatus -> after.statuses child = kernel.statuses child)
    (freed : ∀ child, child ≠ wstatus -> after.freed.count child = kernel.freed.count child)
    (asParent : ∀ child, kernel.isChild tid child = true -> child ≠ wstatus ->
      parentPhase child (after.pc tid) = parentPhase child (kernel.pc tid) ∧
        resultsFor child (after.threads tid).waited = resultsFor child (kernel.threads tid).waited)
    (asChild : tid ≠ wstatus -> (kernel.threads tid).parentWaitStatus ≠ none ->
      childPhase (after.pc tid) = childPhase (kernel.pc tid) ∧
        (after.threads tid).ended = (kernel.threads tid).ended)
    (pair : ∀ parent, kernel.isChild parent wstatus = true ->
      PairStep kernel tid after parent wstatus) : Effect kernel tid after := by
  refine arrives.effect wellFormed (fun parent child isChild => ?_)
  by_cases same : child = wstatus
  · subst same
    exact pair parent isChild
  · refine .inl (arrives.moves.pairOf_congr (statuses child same) (freed child same) ?_ ?_)
    · rintro rfl
      exact asParent child isChild same
    · rintro rfl
      exact asChild same (isChild_iff.mp isChild).2

/-- A step that means nothing to any pair. -/
theorem Effect.of_silent (wellFormed : WellFormed kernel) (arrives : Arrives kernel tid after)
    (statuses : after.statuses = kernel.statuses) (freed : after.freed = kernel.freed)
    (asParent : ∀ child, kernel.isChild tid child = true ->
      parentPhase child (after.pc tid) = parentPhase child (kernel.pc tid) ∧
        resultsFor child (after.threads tid).waited = resultsFor child (kernel.threads tid).waited)
    (asChild : (kernel.threads tid).parentWaitStatus ≠ none ->
      childPhase (after.pc tid) = childPhase (kernel.pc tid) ∧
        (after.threads tid).ended = (kernel.threads tid).ended) : Effect kernel tid after := by
  refine arrives.effect wellFormed (fun parent child isChild => .inl
    (arrives.moves.pairOf_congr (by rw [statuses]) (by rw [freed]) ?_ ?_))
  · rintro rfl
    exact asParent child isChild
  · rintro rfl
    exact asChild (isChild_iff.mp isChild).2

/-- A thread goes on from `old` to `pc`, and nothing else of it changes. -/
structure Goes (kernel : Kernel) (tid : Tid) (old pc : Pc) (after : Kernel) : Prop where
  here : kernel.pc tid = old
  placed : kernel.Placed tid pc
  present : old ≠ .absent
  early : whole pc = true -> whole old = true
  gone : released pc = true -> released old = true
  moves : Moves kernel tid after
  links : after.links = kernel.links
  self : after.threads tid = { kernel.threads tid with pc := pc }
  spares : ∀ late, kernel.nextTid <= late -> after.freed.count late = kernel.freed.count late

section

variable {old pc : Pc} {status : WaitStatus}

theorem Goes.arrives (goes : Goes kernel tid old pc after) (wellFormed : WellFormed kernel) :
    Arrives kernel tid after := by
  have here := goes.here
  refine ⟨goes.moves, goes.links, here ▸ goes.present, ?_, ?_, ?_, .inl (by rw [goes.self]),
    goes.spares⟩
  · rw [Kernel.pc, goes.self]
    exact goes.placed
  · rw [Kernel.pc, goes.self, here]
    exact goes.early
  · rw [Kernel.pc, goes.self]
    exact fun late => wellFormed.released tid (here ▸ goes.gone late)

theorem Goes.effect (goes : Goes kernel tid old pc after) (wstatus : Tid)
    (wellFormed : WellFormed kernel)
    (statuses : ∀ child, child ≠ wstatus -> after.statuses child = kernel.statuses child)
    (freed : ∀ child, child ≠ wstatus -> after.freed.count child = kernel.freed.count child)
    (asParent : ∀ child, kernel.isChild tid child = true -> child ≠ wstatus ->
      parentPhase child pc = parentPhase child old)
    (asChild : tid ≠ wstatus -> childPhase pc = childPhase old)
    (pair : ∀ parent, kernel.isChild parent wstatus = true ->
      PairStep kernel tid after parent wstatus) : Effect kernel tid after := by
  refine Effect.of_pair wstatus wellFormed (goes.arrives wellFormed) statuses freed ?_ ?_ pair
  · intro child isChild different
    rw [Kernel.pc, goes.self, goes.here]
    exact ⟨asParent child isChild different, rfl⟩
  · intro different _
    rw [Kernel.pc, goes.self, goes.here]
    exact ⟨asChild different, rfl⟩

variable (here : kernel.pc tid = old) (placed : kernel.Placed tid pc) (present : old ≠ .absent)
  (early : whole pc = true -> whole old = true) (gone : released pc = true -> released old = true)

include here placed present early gone

theorem goes_goto : Goes kernel tid old pc (kernel.goto tid pc) :=
  ⟨here, placed, present, early, gone, moves_goto pc, rfl, goto_self _ _ _, fun _ _ => rfl⟩

section

variable (wellFormed : WellFormed kernel)

include wellFormed

theorem Effect.of_goto (asParent : ∀ child, kernel.isChild tid child = true ->
      parentPhase child pc = parentPhase child old)
    (asChild : (kernel.threads tid).parentWaitStatus ≠ none -> childPhase pc = childPhase old) :
    Effect kernel tid (kernel.goto tid pc) := by
  refine Effect.of_silent wellFormed
    ((goes_goto here placed present early gone).arrives wellFormed) rfl rfl ?_ ?_
  · intro child isChild
    rw [goto_pc_self, goto_self, here]
    exact ⟨asParent child isChild, rfl⟩
  · intro has
    rw [goto_pc_self, goto_self, here]
    exact ⟨asChild has, rfl⟩

theorem Effect.of_goto_pair (wstatus : Tid)
    (asParent : ∀ child, child ≠ wstatus -> parentPhase child pc = parentPhase child old)
    (asChild : childPhase pc = childPhase old)
    (pair : ∀ parent, kernel.isChild parent wstatus = true ->
      PairStep kernel tid (kernel.goto tid pc) parent wstatus) :
    Effect kernel tid (kernel.goto tid pc) :=
  (goes_goto here placed present early gone).effect wstatus wellFormed (fun _ _ => rfl)
    (fun _ _ => rfl) (fun child _ => asParent child) (fun _ => asChild) pair

/-- One `wait_status` is written and the thread goes on. -/
theorem Effect.of_update (named : status.childTid = (kernel.statuses wstatus).childTid)
    (asParent : ∀ child, kernel.isChild tid child = true -> child ≠ wstatus ->
      parentPhase child pc = parentPhase child old)
    (asChild : tid ≠ wstatus -> childPhase pc = childPhase old)
    (pair : ∀ parent, kernel.isChild parent wstatus = true ->
      PairStep kernel tid ((kernel.setStatus wstatus status).goto tid pc) parent wstatus) :
    Effect kernel tid ((kernel.setStatus wstatus status).goto tid pc) :=
  Goes.effect ⟨here, placed, present, early, gone, (moves_goto pc).of_setStatus named, rfl,
      goto_self _ _ _, fun _ _ => rfl⟩ wstatus wellFormed
    (fun _ different => setStatus_of_ne different status) (fun _ _ => rfl) asParent asChild pair

/-- One `wait_status` is freed and the thread goes on. -/
theorem Effect.of_free (known : wstatus < kernel.nextTid)
    (asParent : ∀ child, kernel.isChild tid child = true -> child ≠ wstatus ->
      parentPhase child pc = parentPhase child old)
    (asChild : tid ≠ wstatus -> childPhase pc = childPhase old)
    (pair : ∀ parent, kernel.isChild parent wstatus = true ->
      PairStep kernel tid (kernel.free tid wstatus pc) parent wstatus) :
    Effect kernel tid (kernel.free tid wstatus pc) := by
  have others : ∀ child, child ≠ wstatus ->
      (kernel.free tid wstatus pc).freed.count child = kernel.freed.count child := by
    intro child different
    change (kernel.freed ++ [wstatus]).count child = kernel.freed.count child
    rw [count_append, count_singleton, if_neg (by simpa using different.symm), Nat.add_zero]
  have moves : Moves kernel tid (kernel.free tid wstatus pc) :=
    ⟨(moves_goto pc).others, (moves_goto pc).parent, (moves_goto pc).status, fun _ => rfl, rfl⟩
  exact Goes.effect ⟨here, placed, present, early, gone, moves, rfl, goto_self _ _ _,
      fun late after => others late (Nat.ne_of_gt (Nat.lt_of_lt_of_le known after))⟩ wstatus
    wellFormed (fun _ _ => rfl) others asParent asChild pair

end

end

theorem pairOf_parentPhase {old : Pc} (here : kernel.pc tid = old) :
    (kernel.pairOf tid child).parent = parentPhase child old := by
  rw [pairOf, here]

theorem pairOf_childPhase {old : Pc} (here : kernel.pc tid = old) (parent : Tid) :
    (kernel.pairOf parent tid).child = childPhase old := by
  rw [pairOf, here]

/-- A step of a parent on the `wait_status` of a child concerns no other parent. -/
theorem pairStep_of_parent (move : Shared.Move) (isChild : kernel.isChild tid wstatus = true)
    (step : Shared.Step (kernel.pairOf tid wstatus) move (after.pairOf tid wstatus))
    (taken : kernel.TakenAt tid tid wstatus move) (parent : Tid)
    (isChild' : kernel.isChild parent wstatus = true) :
    PairStep kernel tid after parent wstatus := by
  cases (show kernel.Owned tid (.entry wstatus) from isChild).unique isChild'
  exact .inr ⟨move, step, taken⟩

section

variable {status : WaitStatus} {pc : Pc}

theorem pairOf_update_parent (different : wstatus ≠ tid) :
    ((kernel.setStatus wstatus status).goto tid pc).pairOf tid wstatus =
      { kernel.pairOf tid wstatus with
        parent := parentPhase wstatus pc
        holder := status.holder.map (sideOf wstatus)
        count := status.count
        exitCode := status.childExitCode
        exitSem := status.childExitSem } := by
  have written : ((kernel.setStatus wstatus status).goto tid pc).statuses wstatus = status :=
    setStatus_self _ _ _
  have other : ((kernel.setStatus wstatus status).goto tid pc).threads wstatus =
      kernel.threads wstatus := setThread_of_ne different _
  rw [pairOf, goto_pc_self, goto_self, written, Kernel.pc, other]
  rfl

theorem pairOf_update_child {parent : Tid} (different : parent ≠ tid) :
    ((kernel.setStatus tid status).goto tid pc).pairOf parent tid =
      { kernel.pairOf parent tid with
        child := childPhase pc
        holder := status.holder.map (sideOf tid)
        count := status.count
        exitCode := status.childExitCode
        exitSem := status.childExitSem } := by
  have written : ((kernel.setStatus tid status).goto tid pc).statuses tid = status :=
    setStatus_self _ _ _
  have other : ((kernel.setStatus tid status).goto tid pc).threads parent =
      kernel.threads parent := setThread_of_ne different _
  rw [pairOf, goto_pc_self, goto_self, written, Kernel.pc, other]
  rfl

theorem count_free (kernel : Kernel) (tid wstatus : Tid) (pc : Pc) :
    (kernel.free tid wstatus pc).freed.count wstatus = kernel.freed.count wstatus + 1 := by
  change (kernel.freed ++ [wstatus]).count wstatus = _
  rw [count_append, count_singleton_self]

theorem pairOf_free_parent (different : wstatus ≠ tid) :
    (kernel.free tid wstatus pc).pairOf tid wstatus = { kernel.pairOf tid wstatus with
      parent := parentPhase wstatus pc
      frees := kernel.freed.count wstatus + 1 } := by
  have self : (kernel.free tid wstatus pc).threads tid = { kernel.threads tid with pc := pc } :=
    goto_self _ _ _
  have other : (kernel.free tid wstatus pc).threads wstatus = kernel.threads wstatus :=
    setThread_of_ne different _
  rw [pairOf, count_free, Kernel.pc, Kernel.pc, self, other]
  rfl

theorem pairOf_free_child {parent : Tid} (different : parent ≠ tid) :
    (kernel.free tid tid pc).pairOf parent tid = { kernel.pairOf parent tid with
      child := childPhase pc
      frees := kernel.freed.count tid + 1 } := by
  have self : (kernel.free tid tid pc).threads tid = { kernel.threads tid with pc := pc } :=
    goto_self _ _ _
  have other : (kernel.free tid tid pc).threads parent = kernel.threads parent :=
    setThread_of_ne different _
  rw [pairOf, count_free, Kernel.pc, Kernel.pc, self, other]
  rfl

end

/-! ## Waiting -/

theorem moves_returnWait (result : Int) : Moves kernel tid (kernel.returnWait tid child result) :=
  moves_setThread rfl rfl

theorem returnWait_self (result : Int) :
    (kernel.returnWait tid child result).threads tid = { kernel.threads tid with
      pc := .user
      waited := (kernel.threads tid).waited ++
        [⟨child, kernel.isChild tid child, result⟩] } :=
  setThread_self _ _ _

theorem arrives_returnWait (present : kernel.pc tid ≠ .absent)
    (early : whole (kernel.pc tid) = true) {result : Int}
    (stranger : kernel.isChild tid child = false -> result = -1) :
    Arrives kernel tid (kernel.returnWait tid child result) := by
  refine ⟨moves_returnWait result, rfl, present, ?_, fun _ => early, ?_,
    .inr ⟨child, result, by rw [returnWait_self], stranger⟩, fun _ _ => rfl⟩
  · rw [pc, returnWait_self]
    trivial
  · rw [pc, returnWait_self]
    intro impossible
    cases impossible

theorem resultsFor_returnWait_of_ne {other : Tid} (different : other ≠ child) (result : Int) :
    resultsFor other ((kernel.returnWait tid child result).threads tid).waited =
      resultsFor other (kernel.threads tid).waited := by
  rw [returnWait_self, resultsFor_append, if_neg, append_nil]
  simp [different.symm]

theorem resultsFor_returnWait (isChild : kernel.isChild tid child = true) (result : Int) :
    resultsFor child ((kernel.returnWait tid child result).threads tid).waited =
      resultsFor child (kernel.threads tid).waited ++ [result] := by
  rw [returnWait_self, resultsFor_append, if_pos]
  simp [isChild]

theorem resultsFor_returnWait_of_not (notChild : kernel.isChild tid child = false) {other : Tid}
    (result : Int) :
    resultsFor other ((kernel.returnWait tid child result).threads tid).waited =
      resultsFor other (kernel.threads tid).waited := by
  rw [returnWait_self, resultsFor_append, if_neg, append_nil]
  simp [notChild]

theorem waitAt_tail : kernel.waitAt tid child (.tail tid) =
    some (kernel.returnWait tid child (-1)) :=
  if_pos rfl

theorem waitAt_entry : kernel.waitAt tid child (.entry wstatus) =
    if (kernel.statuses wstatus).childTid = child then
      if (kernel.statuses wstatus).childExitCode = -1 then
        some (kernel.returnWait tid child (-1))
      else
        some (kernel.goto tid (.waitDown child wstatus))
    else
      (kernel.links.next (.entry wstatus)).bind fun next =>
        some (kernel.goto tid (.waitTest child next)) :=
  if_neg (by simp)

section

variable (wellFormed : WellFormed kernel)

include wellFormed

/-- `process_wait` begins at the first child. -/
theorem wait_effect {first : Elem} (here : kernel.pc tid = .user)
    (link : kernel.links.next (.head tid) = some first) :
    Effect kernel tid (kernel.goto tid (.waitTest child first)) := by
  rcases wellFormed.next_head (by rw [here]; rfl) with ⟨first', link', place, ahead⟩
  cases link.symm.trans link'
  exact Effect.of_goto here ⟨place, ahead child⟩ (by simp) (fun _ => rfl) (by rintro ⟨⟩) wellFormed
    (fun _ _ => rfl) (fun _ => rfl)

/-- The end of the list: the thread has no such child. -/
theorem waitPast_effect (here : kernel.pc tid = .waitTest child (.tail tid)) :
    Effect kernel tid (kernel.returnWait tid child (-1)) := by
  have placed := wellFormed.placed tid
  rw [here] at placed
  have notChild : kernel.isChild tid child = false := by
    by_contra other
    have impossible := placed.2 (by simpa using other)
    cases impossible
  refine Effect.of_silent wellFormed
    (arrives_returnWait (by rw [here]; simp) (by rw [here]; rfl) fun _ => rfl) rfl rfl ?_ ?_
  · intro other _
    rw [resultsFor_returnWait_of_not notChild, pc, returnWait_self, here]
    exact ⟨rfl, rfl⟩
  · intro _
    rw [pc, returnWait_self, here]
    exact ⟨rfl, rfl⟩

theorem waitRefused_effect (here : kernel.pc tid = .waitTest child (.entry child))
    (isChild : kernel.isChild tid child = true)
    (marked : (kernel.statuses child).childExitCode = -1) :
    Effect kernel tid (kernel.returnWait tid child (-1)) := by
  have apart := Nat.ne_of_gt (wellFormed.owner_lt isChild)
  have idle : (kernel.pairOf tid child).parent = .idle := pairOf_parentPhase here
  refine Effect.of_pair child wellFormed
    (arrives_returnWait (by rw [here]; simp) (by rw [here]; rfl) fun _ => rfl)
    (fun _ _ => rfl) (fun _ _ => rfl) ?_ ?_ (pairStep_of_parent .refuse isChild ?_ ⟨rfl, here⟩)
  · intro other _ different
    rw [resultsFor_returnWait_of_ne different, pc, returnWait_self, here]
    exact ⟨rfl, rfl⟩
  · intro _ _
    rw [pc, returnWait_self, here]
    exact ⟨rfl, rfl⟩
  · rw [(moves_returnWait _).pairOf_parent apart, resultsFor_returnWait isChild, pc,
      returnWait_self]
    have step := Shared.Step.refuse idle marked
    rw [idle] at step
    exact step

theorem waitFound_effect {c : Elem} (here : kernel.pc tid = .waitTest child c)
    (isChild : kernel.isChild tid child = true)
    (fresh : (kernel.statuses child).childExitCode ≠ -1) :
    Effect kernel tid (kernel.goto tid (.waitDown child child)) := by
  have apart := Nat.ne_of_gt (wellFormed.owner_lt isChild)
  refine Effect.of_goto_pair here ⟨rfl, isChild⟩ (by simp) (fun _ => rfl) (by rintro ⟨⟩) wellFormed
    child (fun _ different => if_neg different) rfl (pairStep_of_parent .wait isChild ?_ trivial)
  rw [(moves_goto _).pairOf_parent apart, goto_pc_self, goto_self, parentPhase_waitDown, if_pos rfl]
  exact Shared.Step.wait (pairOf_parentPhase here) fresh

theorem waitNext_effect {next : Elem} (here : kernel.pc tid = .waitTest child (.entry wstatus))
    (other : wstatus ≠ child) (link : kernel.links.next (.entry wstatus) = some next) :
    Effect kernel tid (kernel.goto tid (.waitTest child next)) := by
  have placed := wellFormed.placed tid
  rw [here] at placed
  rcases placed with ⟨tail | ⟨_, same, isChild⟩, ahead⟩
  · cases tail
  · cases same
    rcases wellFormed.next_entry (by rw [here]; rfl) isChild with ⟨next', link', place, beyond⟩
    cases link.symm.trans link'
    refine Effect.of_goto here ⟨place, fun isChild' => ?_⟩ (by simp) (fun _ => rfl) (by rintro ⟨⟩)
      wellFormed (fun _ _ => rfl) (fun _ => rfl)
    have notPassed := of_decide_eq_false (ahead isChild')
    rw [beyond child isChild', decide_eq_false_iff_not]
    intro reached
    exact other (Nat.le_antisymm (Nat.not_lt.mp notPassed) reached)

theorem waitAt_effect {c : Elem} (here : kernel.pc tid = .waitTest child c)
    (step : kernel.waitAt tid child c = some after) : Effect kernel tid after := by
  have placed := wellFormed.placed tid
  rw [here] at placed
  rcases placed.1 with rfl | ⟨wstatus, rfl, isChild⟩
  · rw [waitAt_tail] at step
    cases step
    exact waitPast_effect wellFormed here
  · rw [waitAt_entry, wellFormed.childTid_eq isChild] at step
    by_cases found : wstatus = child
    · subst found
      rw [if_pos rfl] at step
      split at step
      next marked =>
        cases step
        exact waitRefused_effect wellFormed here isChild marked
      next fresh =>
        cases step
        exact waitFound_effect wellFormed here isChild fresh
    · rw [if_neg found] at step
      rcases bind_eq_some_iff.mp step with ⟨next, link, same⟩
      cases same
      exact waitNext_effect wellFormed here found link

theorem semaDown_effect (here : kernel.pc tid = .waitDown child wstatus)
    (step : kernel.semaDown tid child wstatus = some after) : Effect kernel tid after := by
  have placed := wellFormed.placed tid
  rw [here] at placed
  rcases placed with ⟨rfl, isChild⟩
  have apart := Nat.ne_of_gt (wellFormed.owner_lt isChild)
  simp only [semaDown] at step
  split at step
  next up =>
    cases step
    refine Effect.of_update here ⟨rfl, isChild⟩ (by simp) (fun _ => rfl) (by rintro ⟨⟩)
      wellFormed rfl
      (fun _ _ different => (if_neg different).trans (if_neg different).symm) (fun _ => rfl)
      (pairStep_of_parent .down isChild ?_ trivial)
    rw [pairOf_update_parent apart, parentPhase_waitRead, if_pos rfl]
    exact Shared.Step.down ((pairOf_parentPhase here).trans (if_pos rfl)) up
  next => cases step

theorem waitRead_effect (here : kernel.pc tid = .waitRead child wstatus) :
    Effect kernel tid (kernel.goto tid
      (.waitClear child wstatus (kernel.statuses wstatus).childExitCode)) := by
  have placed := wellFormed.placed tid
  rw [here] at placed
  rcases placed with ⟨rfl, isChild⟩
  have apart := Nat.ne_of_gt (wellFormed.owner_lt isChild)
  refine Effect.of_goto_pair here ⟨rfl, isChild⟩ (by simp) (fun _ => rfl) (by rintro ⟨⟩) wellFormed
    wstatus (fun _ different => (if_neg different).trans (if_neg different).symm) rfl
    (pairStep_of_parent .read isChild ?_ trivial)
  rw [(moves_goto _).pairOf_parent apart, goto_pc_self, goto_self,
    parentPhase_waitClear, if_pos rfl]
  exact Shared.Step.read ((pairOf_parentPhase here).trans (if_pos rfl))

theorem clearCode_effect {exitCode : Int}
    (here : kernel.pc tid = .waitClear child wstatus exitCode) :
    Effect kernel tid (kernel.clearCode tid child wstatus exitCode) := by
  have placed := wellFormed.placed tid
  rw [here] at placed
  rcases placed with ⟨rfl, isChild⟩
  have apart := Nat.ne_of_gt (wellFormed.owner_lt isChild)
  have clearing : (kernel.pairOf tid wstatus).parent = .clear exitCode :=
    (pairOf_parentPhase here).trans (if_pos rfl)
  have moves : Moves kernel tid (kernel.clearCode tid wstatus wstatus exitCode) :=
    (moves_returnWait exitCode).of_setStatus rfl
  have arrives : Arrives kernel tid (kernel.clearCode tid wstatus wstatus exitCode) := by
    refine ⟨moves, rfl, by rw [here]; simp, ?_, fun _ => by rw [here]; rfl, ?_,
      .inr ⟨wstatus, exitCode, by rw [clearCode, returnWait_self]; rfl, ?_⟩, fun _ _ => rfl⟩
    · rw [pc, clearCode, returnWait_self]
      trivial
    · rw [pc, clearCode, returnWait_self]
      intro impossible
      cases impossible
    · rw [isChild]
      intro impossible
      cases impossible
  refine Effect.of_pair wstatus wellFormed arrives ?_ (fun _ _ => rfl) ?_ ?_
    (pairStep_of_parent .clear isChild ?_ trivial)
  · exact fun other different => setStatus_of_ne different _
  · intro other _ different
    rw [clearCode, resultsFor_returnWait_of_ne different, pc, returnWait_self, here]
    exact ⟨(if_neg different).symm, rfl⟩
  · intro _ _
    rw [clearCode, pc, returnWait_self, here]
    exact ⟨rfl, rfl⟩
  · have written : (kernel.clearCode tid wstatus wstatus exitCode).statuses wstatus =
        { kernel.statuses wstatus with childExitCode := -1 } := setStatus_self _ _ _
    have answered : resultsFor wstatus
        ((kernel.clearCode tid wstatus wstatus exitCode).threads tid).waited =
          resultsFor wstatus (kernel.threads tid).waited ++ [exitCode] :=
      resultsFor_returnWait (show (kernel.setStatus wstatus
        { kernel.statuses wstatus with childExitCode := -1 }).isChild tid wstatus = true
        from isChild) exitCode
    rw [moves.pairOf_parent apart, written, answered, pc, clearCode, returnWait_self]
    exact Shared.Step.clear clearing

end

/-! ## Exiting -/

/-- The thread as `finish` leaves it. -/
theorem finish_self (status : Int) : (kernel.finish tid status).threads tid =
    { kernel.threads tid with pc := .release, ended := some status } :=
  setThread_self _ _ _

theorem finish_none (none : (kernel.threads tid).parentWaitStatus = none) (status : Int) :
    kernel.finish tid status = kernel.setThread tid
      { kernel.threads tid with pc := .release, ended := some status } := by
  simp only [finish, none]

theorem finish_some (some : (kernel.threads tid).parentWaitStatus = some tid) (status : Int) :
    kernel.finish tid status = (kernel.setStatus tid
      { kernel.statuses tid with childExitCode := status }).setThread tid
      { kernel.threads tid with pc := .release, ended := Option.some status } := by
  simp only [finish, some]

section

variable (wellFormed : WellFormed kernel)

include wellFormed

theorem finish_effect (here : kernel.pc tid = .user) (status : Int) :
    Effect kernel tid (kernel.finish tid status) := by
  have arrives (moves : Moves kernel tid (kernel.finish tid status))
      (links : (kernel.finish tid status).links = kernel.links)
      (freed : (kernel.finish tid status).freed = kernel.freed) :
      Arrives kernel tid (kernel.finish tid status) := by
    refine ⟨moves, links, by rw [here]; simp, ?_, fun _ => by rw [here]; rfl, ?_,
      .inl (by rw [finish_self]), fun _ _ => by rw [freed]⟩
    · rw [pc, finish_self]
      trivial
    · rw [pc, finish_self]
      intro impossible
      cases impossible
  have asParent (child : Tid) : parentPhase child ((kernel.finish tid status).pc tid) =
      parentPhase child (kernel.pc tid) ∧
        resultsFor child ((kernel.finish tid status).threads tid).waited =
          resultsFor child (kernel.threads tid).waited := by
    rw [pc, finish_self, here]
    exact ⟨rfl, rfl⟩
  cases has : (kernel.threads tid).parentWaitStatus with
  | none =>
    have whole := finish_none has status
    have freed : (kernel.finish tid status).freed = kernel.freed := by rw [whole]; rfl
    have moves : Moves kernel tid (kernel.finish tid status) := by
      rw [whole]
      exact moves_setThread rfl rfl
    exact Effect.of_silent wellFormed (arrives moves (by rw [whole]; rfl) freed)
      (by rw [whole]; rfl) freed (fun child _ => asParent child) (fun some => absurd has some)
  | some wstatus =>
    cases (wellFormed.own tid wstatus has).1
    have whole := finish_some has status
    have moves : Moves kernel tid (kernel.finish tid status) := by
      rw [whole]
      refine Moves.of_setStatus (moves_setThread ?_ ?_) ?_ <;> rfl
    have freed : (kernel.finish tid status).freed = kernel.freed := by rw [whole]; rfl
    refine Effect.of_pair tid wellFormed (arrives moves (by rw [whole]; rfl) freed) ?_
      (fun child _ => by rw [freed]) (fun child _ _ => asParent child)
      (fun different => absurd rfl different) ?_
    · intro child different
      rw [whole]
      exact setStatus_of_ne different _
    · intro parent isChild
      have apart := Nat.ne_of_lt (wellFormed.owner_lt isChild)
      refine .inr ⟨.finish, ?_, trivial⟩
      have written : (kernel.finish tid status).statuses tid =
          { kernel.statuses tid with childExitCode := status } := by
        rw [whole]
        exact setStatus_self _ _ _
      rw [moves.pairOf_child apart, written, freed, pc, finish_self]
      exact Shared.Step.finish status (pairOf_childPhase here parent)

theorem release_effect {first : Elem} (here : kernel.pc tid = .release)
    (link : kernel.links.next (.head tid) = some first) :
    Effect kernel tid (kernel.setThread tid
      { kernel.threads tid with pc := .sizeChildren first, resources := false }) := by
  have early : whole (kernel.pc tid) = true := by rw [here]; rfl
  rcases wellFormed.next_head early with ⟨first', link', place, _⟩
  cases link.symm.trans link'
  refine Effect.of_silent wellFormed
    ⟨moves_setThread rfl rfl, rfl, by rw [here]; simp, ?_, fun _ => early, ?_,
      .inl (by rw [setThread_self]), fun _ _ => rfl⟩ rfl rfl ?_ ?_
  · rw [pc, setThread_self]
    exact place
  · rw [setThread_self]
    exact fun _ => rfl
  · intro child _
    rw [pc, setThread_self, here]
    exact ⟨rfl, rfl⟩
  · intro _
    rw [pc, setThread_self, here]
    exact ⟨rfl, rfl⟩

theorem sizeAt_effect {c : Elem} (here : kernel.pc tid = .sizeChildren c)
    (step : kernel.sizeAt tid c = some after) : Effect kernel tid after := by
  have early : whole (kernel.pc tid) = true := by rw [here]; rfl
  have place := wellFormed.placed tid
  rw [here] at place
  rcases place with rfl | ⟨wstatus, rfl, isChild⟩
  · rcases wellFormed.next_head early with ⟨first, link, place, ahead⟩
    rw [sizeAt, if_pos rfl, link] at step
    cases step
    refine Effect.of_goto here ⟨place, nodup_nil, fun _ impossible => by cases impossible⟩
      (by simp) (fun _ => rfl) (fun _ => rfl) wellFormed (fun child isChild => ?_) (fun _ => rfl)
    rw [parentPhase_eachChild, ahead child isChild]
    rfl
  · rcases wellFormed.next_entry early isChild with ⟨next, link, place, _⟩
    rw [sizeAt, if_neg (by simp), link] at step
    cases step
    exact Effect.of_goto here place (by simp) (fun _ => rfl) (fun _ => rfl) wellFormed
      (fun _ _ => rfl) (fun _ => rfl)

variable {deleteChildren : List Tid}

theorem eachAt_effect {c : Elem} (here : kernel.pc tid = .eachChild c deleteChildren)
    (step : kernel.eachAt tid c deleteChildren = some after) : Effect kernel tid after := by
  have place := wellFormed.placed tid
  rw [here] at place
  rcases place with ⟨rfl | ⟨wstatus, rfl, isChild⟩, deleting⟩
  · unfold eachAt at step
    rw [if_pos rfl] at step
    cases step
    exact Effect.of_goto here deleting (by simp) (by rintro ⟨⟩) (fun _ => rfl) wellFormed
      (fun _ _ => rfl) (fun _ => rfl)
  · rw [eachAt, if_neg (by simp)] at step
    cases step
    refine Effect.of_goto here ⟨isChild, deleting⟩ (by simp) (fun _ => rfl)
      (fun _ => rfl) wellFormed
      (fun child _ => ?_) (fun _ => rfl)
    simp only [parentPhase_eachChild, parentPhase_lockChild, passed, decide_eq_true_eq]

theorem nextChild_effect {next : Elem} (here : kernel.pc tid = .nextChild wstatus deleteChildren)
    (link : kernel.links.next (.entry wstatus) = some next) :
    Effect kernel tid (kernel.goto tid (.eachChild next deleteChildren)) := by
  have place := wellFormed.placed tid
  rw [here] at place
  rcases place with ⟨isChild, deleting⟩
  rcases wellFormed.next_entry (by rw [here]; rfl) isChild with ⟨next', link', place, beyond⟩
  cases link.symm.trans link'
  refine Effect.of_goto here ⟨place, deleting.distinct, ?_⟩ (by simp) (fun _ => rfl) (fun _ => rfl)
    wellFormed ?_ (fun _ => rfl)
  · intro child member
    rcases deleting.children child member with ⟨isChild', done⟩
    exact ⟨isChild', (beyond child isChild').trans done⟩
  · intro child isChild'
    simp only [parentPhase_eachChild, parentPhase_nextChild, beyond child isChild',
      decide_eq_true_eq]

/-! ### The parent takes leave of a child -/

theorem lockChild_effect (here : kernel.pc tid = .lockChild wstatus deleteChildren)
    (step : kernel.acquire tid wstatus (.countChild wstatus deleteChildren) = some after) :
    Effect kernel tid after := by
  have place := wellFormed.placed tid
  rw [here] at place
  have apart := Nat.ne_of_gt (wellFormed.owner_lt place.1)
  simp only [acquire] at step
  split at step
  next free =>
    cases step
    refine Effect.of_update here place (by simp) (fun _ => rfl) (fun _ => rfl) wellFormed rfl ?_
      (fun _ => rfl) (pairStep_of_parent .parentLock place.1 ?_ trivial)
    · intro child _ different
      rw [parentPhase_countChild, parentPhase_lockChild, if_neg different]
    · have unheld : (kernel.pairOf tid wstatus).holder = none := by
        rw [pairOf, free]
        rfl
      rw [pairOf_update_parent apart, parentPhase_countChild, if_neg (Nat.lt_irrefl _), if_pos rfl,
        map_some, sideOf, if_neg apart.symm]
      exact Shared.Step.parentLock
        ((pairOf_parentPhase here).trans (if_neg (Nat.lt_irrefl _))) unheld
  next => cases step

omit wellFormed in
theorem mem_counted {zero : Bool} :
    child ∈ (if zero then deleteChildren ++ [wstatus] else deleteChildren) <->
      child ∈ deleteChildren ∨ zero = true ∧ child = wstatus := by
  cases zero <;> simp

omit wellFormed in
theorem decide_mem_counted (fresh : wstatus ∉ deleteChildren) (zero : Bool) :
    decide (wstatus ∈ (if zero then deleteChildren ++ [wstatus] else deleteChildren)) = zero := by
  cases zero <;> simp [fresh]

omit wellFormed in
theorem placed_countAt (isChild : kernel.isChild tid wstatus = true)
    (deleting : kernel.Deleting tid (fun child => decide (child < wstatus)) deleteChildren)
    (zero : Bool) : kernel.Placed tid (countAt wstatus deleteChildren zero) := by
  refine ⟨isChild, ?_, ?_⟩
  · cases zero with
    | false => exact deleting.distinct
    | true =>
      have fresh : wstatus ∉ deleteChildren := fun member =>
        Nat.lt_irrefl _ (of_decide_eq_true (deleting.children wstatus member).2)
      exact concat_eq_append ▸ deleting.distinct.concat fresh
  · intro child member
    rcases mem_counted.mp member with earlier | ⟨_, rfl⟩
    · rcases deleting.children child earlier with ⟨isChild', before⟩
      exact ⟨isChild', decide_eq_true (Nat.le_of_lt (of_decide_eq_true before))⟩
    · exact ⟨isChild, decide_eq_true (Nat.le_refl _)⟩

theorem countChild_effect (here : kernel.pc tid = .countChild wstatus deleteChildren) :
    Effect kernel tid (kernel.decrement tid wstatus (countAt wstatus deleteChildren)) := by
  have place := wellFormed.placed tid
  rw [here] at place
  rcases place with ⟨isChild, deleting⟩
  have apart := Nat.ne_of_gt (wellFormed.owner_lt isChild)
  have fresh : wstatus ∉ deleteChildren := fun member =>
    Nat.lt_irrefl _ (of_decide_eq_true (deleting.children wstatus member).2)
  refine Effect.of_update here (placed_countAt isChild deleting _) (by simp) (fun _ => rfl)
    (fun _ => rfl) wellFormed rfl ?_ (fun _ => rfl)
    (pairStep_of_parent .parentCount isChild ?_ trivial)
  · intro child _ different
    simp only [countAt, parentPhase_unlockChild, parentPhase_countChild, mem_counted, different,
      and_false, or_false, if_false]
  · rw [pairOf_update_parent apart, countAt, parentPhase_unlockChild,
      if_neg (Nat.lt_irrefl _), if_pos rfl,
      decide_mem_counted fresh]
    exact Shared.Step.parentCount
      ((pairOf_parentPhase here).trans ((if_neg (Nat.lt_irrefl _)).trans (if_pos rfl)))

theorem unlockChild_effect (here : kernel.pc tid = .unlockChild wstatus deleteChildren) :
    Effect kernel tid (kernel.unlock tid wstatus (.nextChild wstatus deleteChildren)) := by
  have place := wellFormed.placed tid
  rw [here] at place
  have apart := Nat.ne_of_gt (wellFormed.owner_lt place.1)
  refine Effect.of_update here place (by simp) (fun _ => rfl) (fun _ => rfl) wellFormed rfl ?_
    (fun _ => rfl) (pairStep_of_parent .parentUnlock place.1 ?_ trivial)
  · intro child _ different
    simp only [parentPhase_nextChild, parentPhase_unlockChild, Nat.le_iff_lt_or_eq, different,
      or_false, if_false]
  · rw [pairOf_update_parent apart, parentPhase_nextChild, if_pos (Nat.le_refl _)]
    exact Shared.Step.parentUnlock
      ((pairOf_parentPhase here).trans ((if_neg (Nat.lt_irrefl _)).trans (if_pos rfl)))

/-! ### The parent frees -/

theorem removeNil_effect (here : kernel.pc tid = .removeChild [])
    (step : kernel.removeAt tid [] = some after) : Effect kernel tid after := by
  cases has : (kernel.threads tid).parentWaitStatus with
  | none =>
    simp only [removeAt, has, some.injEq] at step
    subst step
    exact Effect.of_goto here trivial (by simp) (by rintro ⟨⟩) (fun _ => rfl) wellFormed
      (fun _ _ => rfl) (fun some => absurd has some)
  | some wstatus =>
    simp only [removeAt, has, some.injEq] at step
    subst step
    exact Effect.of_goto here ((wellFormed.own tid wstatus has).1 ▸ has) (by simp) (by rintro ⟨⟩)
      (fun _ => rfl) wellFormed (fun _ _ => rfl) (fun _ => rfl)

omit wellFormed in
theorem moves_links (tid : Tid) (links : Links Elem) :
    Moves kernel tid { kernel with links := links } :=
  ⟨fun _ _ => rfl, rfl, rfl, fun _ => rfl, rfl⟩

/-- The neighbours of a child are in the same list. -/
theorem neighbours_owned {prev next : Elem} (isChild : kernel.isChild tid wstatus = true)
    (prevLink : kernel.links.prev (.entry wstatus) = some prev)
    (nextLink : kernel.links.next (.entry wstatus) = some next) :
    kernel.Owned tid prev ∧ kernel.Owned tid next := by
  have own : kernel.Owned tid (.entry wstatus) := isChild
  rcases wellFormed.prevOwned _ _ prevLink with ⟨owner, here, prevOwned⟩
  rcases wellFormed.nextOwned _ _ nextLink with ⟨owner', here', nextOwned⟩
  exact ⟨own.unique here ▸ prevOwned, own.unique here' ▸ nextOwned⟩

omit wellFormed in
/-- Joining two elements of a list leaves the links of the other lists alone. -/
theorem join_frame {prev next elem : Elem} {owner : Tid} (prevOwned : kernel.Owned tid prev)
    (nextOwned : kernel.Owned tid next) (different : owner ≠ tid)
    (owned : kernel.Owned owner elem) :
    (kernel.links.join prev next).next elem = kernel.links.next elem ∧
      (kernel.links.join prev next).prev elem = kernel.links.prev elem := by
  constructor
  · refine update_of_ne ?_ _ _
    rintro rfl
    exact different (owned.unique prevOwned)
  · refine update_of_ne ?_ _ _
    rintro rfl
    exact different (owned.unique nextOwned)

/-- `list_remove` joins elements of the same list, and the list of no other thread
changes. -/
theorem relink {prev next : Elem} (broken : whole (kernel.pc tid) = false)
    (prevOwned : kernel.Owned tid prev) (nextOwned : kernel.Owned tid next) :
    WellFormed { kernel with links := kernel.links.join prev next } := by
  refine ⟨wellFormed.absent, wellFormed.older, wellFormed.own, ?_, ?_, ?_,
    fun other => ((moves_links tid _).placed_iff other _).mpr (wellFormed.placed other),
    wellFormed.released⟩
  · intro elem other link
    by_cases same : elem = prev
    · subst same
      cases (update_self _ _ _).symm.trans link
      exact ⟨tid, prevOwned, nextOwned⟩
    · exact wellFormed.nextOwned elem other ((update_of_ne same _ _).symm.trans link)
  · intro elem other link
    by_cases same : elem = next
    · subst same
      cases (update_self _ _ _).symm.trans link
      exact ⟨tid, nextOwned, prevOwned⟩
    · exact wellFormed.prevOwned elem other ((update_of_ne same _ _).symm.trans link)
  · intro owner early
    have different : owner ≠ tid := by
      rintro rfl
      exact Bool.false_ne_true (broken.symm.trans early)
    refine Links.chain_kept (wellFormed.linked owner early) ?_
    intro elem member
    exact join_frame prevOwned nextOwned different (wellFormed.owned_of_mem member)

variable {rest : List Tid}

omit wellFormed in
theorem removeCons_eq_some (step : kernel.removeAt tid (wstatus :: rest) = some after) :
    ∃ prev next, kernel.links.prev (.entry wstatus) = some prev ∧
      kernel.links.next (.entry wstatus) = some next ∧
      after = { kernel with links := kernel.links.join prev next }.goto tid
        (.freeChild wstatus rest) := by
  rcases bind_eq_some_iff.mp step with ⟨links, removed, same⟩
  rcases bind_eq_some_iff.mp removed with ⟨prev, prevLink, removed⟩
  rcases bind_eq_some_iff.mp removed with ⟨next, nextLink, joined⟩
  cases joined
  cases same
  exact ⟨prev, next, prevLink, nextLink, rfl⟩

theorem removeCons_effect (here : kernel.pc tid = .removeChild (wstatus :: rest))
    (step : kernel.removeAt tid (wstatus :: rest) = some after) : Effect kernel tid after := by
  have deleting := wellFormed.placed tid
  rw [here] at deleting
  have isChild := (deleting.children wstatus mem_cons_self).1
  rcases removeCons_eq_some step with ⟨prev, next, prevLink, nextLink, same⟩
  cases same
  rcases neighbours_owned wellFormed isChild prevLink nextLink with ⟨prevOwned, nextOwned⟩
  have relinked := relink wellFormed (by rw [here]; rfl) prevOwned nextOwned
  have there : Kernel.pc { kernel with links := kernel.links.join prev next } tid =
      .removeChild (wstatus :: rest) := here
  have placed : Kernel.Placed { kernel with links := kernel.links.join prev next } tid
      (.freeChild wstatus rest) := ((moves_links tid _).placed_iff tid _).mpr deleting
  have effect := Effect.of_goto there placed (by simp) (by rintro ⟨⟩) (fun _ => rfl) relinked
    (fun _ _ => rfl) (fun _ => rfl)
  refine ⟨effect.wellFormed, ⟨effect.moves.others, effect.moves.parent, effect.moves.status,
    effect.moves.childTid, effect.moves.nextTid⟩, effect.logs, effect.spares, ?_,
    effect.early, effect.pairs⟩
  exact fun owner elem different owned => join_frame prevOwned nextOwned different owned

theorem freeChild_effect (here : kernel.pc tid = .freeChild wstatus rest) :
    Effect kernel tid (kernel.free tid wstatus (.removeChild rest)) := by
  have deleting := wellFormed.placed tid
  rw [here] at deleting
  have isChild := (deleting.children wstatus mem_cons_self).1
  have apart := Nat.ne_of_gt (wellFormed.owner_lt isChild)
  have fresh := (nodup_cons.mp deleting.distinct).1
  refine Effect.of_free here ⟨(nodup_cons.mp deleting.distinct).2,
      fun child member => deleting.children child (mem_cons_of_mem _ member)⟩ (by simp)
    (by rintro ⟨⟩) (fun _ => rfl) wellFormed (wellFormed.lt_nextTid isChild) ?_ (fun _ => rfl)
    (pairStep_of_parent .parentFree isChild ?_ ⟨rfl, rest, here⟩)
  · intro child _ different
    simp only [parentPhase_removeChild, parentPhase_freeChild, mem_cons, different, false_or]
  · have leaving : (kernel.pairOf tid wstatus).parent = .left true := by
      rw [pairOf_parentPhase here]
      simp [parentPhase_freeChild]
    rw [pairOf_free_parent apart, parentPhase_removeChild, decide_eq_false fresh]
    exact Shared.Step.parentFree leaving

/-! ### The child takes leave -/

section

variable {old pc : Pc} {status : WaitStatus} (here : kernel.pc tid = old)
  (placed : kernel.Placed tid pc) (present : old ≠ .absent)
  (early : whole pc = true -> whole old = true)
  (gone : released pc = true -> released old = true)
  (asParent : ∀ child, parentPhase child pc = parentPhase child old)

include here placed present early gone asParent

/-- A thread changes its own `wait_status`. -/
theorem Effect.of_child (named : status.childTid = (kernel.statuses tid).childTid)
    (move : Shared.Move) (taken : ∀ parent, kernel.TakenAt tid parent tid move)
    (step : ∀ parent, parent ≠ tid -> Shared.Step (kernel.pairOf parent tid) move
      { kernel.pairOf parent tid with
        child := childPhase pc
        holder := status.holder.map (sideOf tid)
        count := status.count
        exitCode := status.childExitCode
        exitSem := status.childExitSem }) :
    Effect kernel tid ((kernel.setStatus tid status).goto tid pc) := by
  refine Effect.of_update here placed present early gone wellFormed named
    (fun child _ _ => asParent child) (fun different => absurd rfl different) ?_
  intro parent isChild
  have apart := Nat.ne_of_lt (wellFormed.owner_lt isChild)
  refine .inr ⟨move, ?_, taken parent⟩
  rw [pairOf_update_child apart]
  exact step parent apart

end

theorem lockParent_effect (here : kernel.pc tid = .lockParent)
    (step : kernel.acquire tid tid .countParent = some after) : Effect kernel tid after := by
  have has := wellFormed.placed tid
  rw [here] at has
  simp only [acquire] at step
  split at step
  next free =>
    cases step
    refine Effect.of_child wellFormed here has (by simp) (by rintro ⟨⟩) (fun _ => rfl)
      (fun _ => rfl)
      rfl .childLock (fun _ => trivial) (fun parent _ => ?_)
    have unheld : (kernel.pairOf parent tid).holder = none := by
      rw [pairOf, free]
      rfl
    rw [map_some, sideOf, if_pos rfl]
    exact Shared.Step.childLock (pairOf_childPhase here parent) unheld
  next => cases step

theorem countParent_effect (here : kernel.pc tid = .countParent) :
    Effect kernel tid (kernel.decrement tid tid .unlockParent) := by
  have has := wellFormed.placed tid
  rw [here] at has
  exact Effect.of_child wellFormed here has (by simp) (by rintro ⟨⟩) (fun _ => rfl)
    (fun _ => rfl) rfl
    .childCount (fun _ => trivial)
    (fun parent _ => Shared.Step.childCount (pairOf_childPhase here parent))

theorem unlockParent_effect {deallocateParent : Bool}
    (here : kernel.pc tid = .unlockParent deallocateParent) :
    Effect kernel tid
      (kernel.unlock tid tid (if deallocateParent then .freeParent else .upParent)) := by
  have has := wellFormed.placed tid
  rw [here] at has
  refine Effect.of_child wellFormed here ?_ (by simp) ?_ (fun _ => rfl) ?_ rfl .childUnlock
    (fun _ => trivial) (fun parent _ => ?_)
  · split <;> exact has
  · intro impossible
    split at impossible <;> cases impossible
  · intro child
    split <;> rfl
  · have phase : childPhase (if deallocateParent then .freeParent else .upParent) =
        if deallocateParent then .freeing else .upping := by
      cases deallocateParent <;> rfl
    rw [phase]
    exact Shared.Step.childUnlock (pairOf_childPhase here parent)

theorem freeParent_effect (here : kernel.pc tid = .freeParent) :
    Effect kernel tid (kernel.free tid tid .dead) := by
  refine Effect.of_free here trivial (by simp) (by rintro ⟨⟩) (fun _ => rfl) wellFormed
    (wellFormed.lt_nextTid_of_present (by rw [here]; simp)) (fun _ _ _ => rfl)
    (fun different => absurd rfl different) ?_
  intro parent isChild
  refine .inr ⟨.childFree, ?_, rfl, here⟩
  rw [pairOf_free_child (Nat.ne_of_lt (wellFormed.owner_lt isChild))]
  exact Shared.Step.childFree (pairOf_childPhase here parent)

theorem semaUp_effect (here : kernel.pc tid = .upParent) :
    Effect kernel tid (kernel.semaUp tid tid) :=
  Effect.of_child wellFormed here trivial (by simp) (by rintro ⟨⟩) (fun _ => rfl) (fun _ => rfl) rfl
    .childUp (fun _ => trivial) (fun parent _ =>
      Shared.Step.childUp (pairOf_childPhase here parent))

/-! ## Every step of a thread inside the kernel -/

theorem resume_effect (step : kernel.resume tid = some after) : Effect kernel tid after := by
  have placed := wellFormed.placed tid
  have known : ∀ {update : Tid -> Option Kernel},
      (kernel.threads tid).parentWaitStatus = some tid ->
      ((kernel.threads tid).parentWaitStatus.bind update = some after ->
        update tid = some after) := by
    intro update has stepped
    rwa [has] at stepped
  unfold resume at step
  cases here : kernel.pc tid <;> rw [here] at step placed
  case waitTest child c => exact waitAt_effect wellFormed here step
  case waitDown child wstatus => exact semaDown_effect wellFormed here step
  case waitRead child wstatus =>
    cases step
    exact waitRead_effect wellFormed here
  case waitClear child wstatus exitCode =>
    cases step
    exact clearCode_effect wellFormed here
  case release =>
    rcases bind_eq_some_iff.mp step with ⟨first, link, same⟩
    cases same
    exact release_effect wellFormed here link
  case sizeChildren c => exact sizeAt_effect wellFormed here step
  case eachChild c deleteChildren => exact eachAt_effect wellFormed here step
  case lockChild wstatus deleteChildren => exact lockChild_effect wellFormed here step
  case countChild wstatus deleteChildren =>
    cases step
    exact countChild_effect wellFormed here
  case unlockChild wstatus deleteChildren =>
    cases step
    exact unlockChild_effect wellFormed here
  case nextChild wstatus deleteChildren =>
    rcases bind_eq_some_iff.mp step with ⟨next, link, same⟩
    cases same
    exact nextChild_effect wellFormed here link
  case removeChild deleteChildren =>
    cases deleteChildren with
    | nil => exact removeNil_effect wellFormed here step
    | cons wstatus rest => exact removeCons_effect wellFormed here step
  case freeChild wstatus deleteChildren =>
    cases step
    exact freeChild_effect wellFormed here
  case lockParent => exact lockParent_effect wellFormed here (known placed step)
  case countParent =>
    cases known placed step
    exact countParent_effect wellFormed here
  case unlockParent deallocateParent =>
    cases known placed step
    exact unlockParent_effect wellFormed here
  case freeParent =>
    cases known placed step
    exact freeParent_effect wellFormed here
  case upParent =>
    cases known placed step
    exact semaUp_effect wellFormed here
  all_goals cases step

end

end Kernel

end Pintos
end Codebank
