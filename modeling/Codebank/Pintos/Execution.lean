import Codebank.Pintos.Steps

namespace Codebank
namespace Pintos

open Foundation Function List Option

/-!
# New processes, and all runs

`process_execute` is seen as two changes: a thread is made, and its `wait_status`
is hung into the list of its parent.  From this and the steps of single threads
follow the invariants of all runs: every state is well formed, and each pair has
run through the two-sided protocol.
-/

namespace Kernel

variable {kernel after : Kernel} {parent : Tid}

/-! ## A new thread -/

section

variable {links : Links Elem} {owner : Tid} {elem other : Elem}

theorem next_listInit (link : (listInit links owner).next elem = some other) :
    elem = .head owner ∧ other = .tail owner ∨ links.next elem = some other := by
  simp only [listInit] at link
  split at link
  next same => exact .inl ⟨same, (some.inj link).symm⟩
  next =>
    split at link
    next => cases link
    next => exact .inr link

theorem prev_listInit (link : (listInit links owner).prev elem = some other) :
    elem = .tail owner ∧ other = .head owner ∨ links.prev elem = some other := by
  simp only [listInit] at link
  split at link
  next same => exact .inl ⟨same, (some.inj link).symm⟩
  next =>
    split at link
    next => cases link
    next => exact .inr link

end

section

variable (wellFormed : WellFormed kernel)

include wellFormed

theorem isChild_nextTid (owner : Tid) : kernel.isChild owner kernel.nextTid = false := by
  by_contra other
  exact Nat.lt_irrefl _ (wellFormed.lt_nextTid (by simpa using other))

theorem childrenOf_late {owner : Tid} (late : kernel.nextTid <= owner) :
    kernel.childrenOf owner = [] := by
  refine eq_nil_iff_forall_not_mem.mpr ?_
  intro child member
  have isChild := wellFormed.mem_childrenOf.mp member
  have before := wellFormed.lt_nextTid isChild
  have behind := wellFormed.owner_lt isChild
  exact Nat.lt_irrefl _ (Nat.lt_of_le_of_lt late (Nat.lt_trans behind before))

omit wellFormed in
theorem spawn_of_ne {tid : Tid} (different : tid ≠ kernel.nextTid) (status : Option Tid) :
    (kernel.spawn parent status).threads tid = kernel.threads tid :=
  update_of_ne different _ _

omit wellFormed in
theorem spawn_self (status : Option Tid) : (kernel.spawn parent status).threads kernel.nextTid =
    ⟨.user, status, true, some parent, none, []⟩ :=
  update_self _ _ _

theorem spawn_isChild : (kernel.spawn parent none).isChild = kernel.isChild := by
  funext owner child
  by_cases same : child = kernel.nextTid
  · rw [same, isChild_nextTid wellFormed, isChild, spawn_self]
    simp
  · rw [isChild, isChild, spawn_of_ne same]

theorem spawn_childrenOf (owner : Tid) :
    (kernel.spawn parent none).childrenOf owner = kernel.childrenOf owner := by
  rw [childrenOf, childrenOf, spawn_isChild wellFormed]
  change List.filter _ (List.range (kernel.nextTid + 1)) = _
  rw [range_succ, filter_append, filter_cons_of_neg, filter_nil,
    append_nil]
  simp [isChild_nextTid wellFormed]

theorem spawn_owned {owner : Tid} {elem : Elem} :
    (kernel.spawn parent none).Owned owner elem <-> kernel.Owned owner elem := by
  cases elem with
  | head _ | tail _ => exact Iff.rfl
  | entry child => rw [Owned, Owned, spawn_isChild wellFormed]

theorem spawn_wellFormed (present : kernel.pc parent ≠ .absent) :
    WellFormed (kernel.spawn parent none) where
  absent tid late := by
    rw [spawn_of_ne (Nat.ne_of_gt late)]
    exact wellFormed.absent tid (Nat.le_of_succ_le late)
  older tid := by
    by_cases same : tid = kernel.nextTid
    · rw [same, spawn_self]
      intro owner isParent
      cases isParent
      exact wellFormed.lt_nextTid_of_present present
    · rw [spawn_of_ne same]
      exact wellFormed.older tid
  own tid := by
    by_cases same : tid = kernel.nextTid
    · rw [same, spawn_self]
      intro wstatus impossible
      cases impossible
    · rw [spawn_of_ne same]
      exact wellFormed.own tid
  nextOwned elem other link := by
    simp only [spawn_owned wellFormed]
    rcases next_listInit link with ⟨rfl, rfl⟩ | old
    · exact ⟨kernel.nextTid, rfl, rfl⟩
    · exact wellFormed.nextOwned elem other old
  prevOwned elem other link := by
    simp only [spawn_owned wellFormed]
    rcases prev_listInit link with ⟨rfl, rfl⟩ | old
    · exact ⟨kernel.nextTid, rfl, rfl⟩
    · exact wellFormed.prevOwned elem other old
  linked owner early := by
    rw [spawn_childrenOf wellFormed]
    by_cases same : owner = kernel.nextTid
    · subst same
      rw [childrenOf_late wellFormed (Nat.le_refl _)]
      exact isChain_pair.mpr ⟨if_pos rfl, if_pos rfl⟩
    · rw [pc, spawn_of_ne same] at early
      refine Links.chain_kept (wellFormed.linked owner early) ?_
      intro elem member
      have owned := wellFormed.owned_of_mem member
      have notHead : elem ≠ .head kernel.nextTid := by
        rintro rfl
        exact same owned.symm
      have notTail : elem ≠ .tail kernel.nextTid := by
        rintro rfl
        exact same owned.symm
      exact ⟨(if_neg notHead).trans (if_neg notTail), (if_neg notTail).trans (if_neg notHead)⟩
  placed tid := by
    by_cases same : tid = kernel.nextTid
    · rw [pc, same, spawn_self]
      trivial
    · rw [placed_congr (congrFun (spawn_isChild wellFormed) tid) (by rw [spawn_of_ne same]), pc,
        spawn_of_ne same]
      exact wellFormed.placed tid
  released tid := by
    by_cases same : tid = kernel.nextTid
    · rw [pc, same, spawn_self]
      intro impossible
      cases impossible
    · rw [pc, spawn_of_ne same]
      exact wellFormed.released tid

end

/-! ## The new thread becomes a child -/

/-- The `wait_status` of a thread is made and hung into the list of its parent. -/
def adopt (kernel : Kernel) (parent child : Tid) (last : Elem) : Kernel :=
  { kernel with
    threads := update kernel.threads child
      { kernel.threads child with parentWaitStatus := some child }
    statuses := update kernel.statuses child ⟨none, 2, child, -2, 0⟩
    links := kernel.links.insertBetween last (.entry child) (.tail parent) }

theorem processExecute_eq : kernel.processExecute parent =
    ((kernel.spawn parent none).links.prev (.tail parent)).bind fun last =>
      some ((kernel.spawn parent none).adopt parent kernel.nextTid last) := by
  change ((((kernel.spawn parent none).links.prev (.tail parent)).bind _).bind _) = _
  rw [bind_assoc]
  refine Option.bind_congr fun last _ => congrArg some ?_
  simp only [adopt, spawn, setStatus, update_self, update_idem]

/-- The thread is the newest one, and has not been adopted. -/
structure Newest (kernel : Kernel) (parent child : Tid) : Prop where
  last : child + 1 = kernel.nextTid
  thread : kernel.threads child = ⟨.user, none, true, some parent, none, []⟩
  unshared : kernel.freed.count child = 0
  parentUser : kernel.pc parent = .user

section

variable {child : Tid} {last : Elem}

theorem adopt_of_ne {tid : Tid} (different : tid ≠ child) :
    (kernel.adopt parent child last).threads tid = kernel.threads tid :=
  update_of_ne different _ _

theorem adopt_self : (kernel.adopt parent child last).threads child =
    { kernel.threads child with parentWaitStatus := some child } :=
  update_self _ _ _

variable (newest : Newest kernel parent child)

include newest

theorem Newest.notChild (owner : Tid) : kernel.isChild owner child = false := by
  rw [isChild, newest.thread]
  simp

variable {owner : Tid}

theorem adopt_isChild_of_ne {other : Tid} (different : owner ≠ parent ∨ other ≠ child) :
    (kernel.adopt parent child last).isChild owner other = kernel.isChild owner other := by
  by_cases same : other = child
  · subst same
    rw [newest.notChild, isChild, adopt_self, newest.thread]
    have notParent : parent ≠ owner := (different.resolve_right (fun ne => ne rfl)).symm
    simp [notParent]
  · rw [isChild, isChild, adopt_of_ne same]

theorem adopt_isChild : (kernel.adopt parent child last).isChild parent child = true := by
  rw [isChild, adopt_self, newest.thread]
  simp

theorem adopt_isChild_other (different : owner ≠ parent) :
    (kernel.adopt parent child last).isChild owner = kernel.isChild owner :=
  funext fun _ => adopt_isChild_of_ne newest (.inl different)

theorem adopt_childrenOf : (kernel.adopt parent child last).childrenOf parent =
    kernel.childrenOf parent ++ [child] := by
  have old : ∀ other, other ∈ List.range child ->
      (kernel.adopt parent child last).isChild parent other = kernel.isChild parent other := by
    intro other member
    exact adopt_isChild_of_ne newest (.inr (Nat.ne_of_lt (mem_range.mp member)))
  change List.filter _ (List.range kernel.nextTid) =
    List.filter _ (List.range kernel.nextTid) ++ [child]
  rw [<- newest.last, range_succ, filter_append, filter_append,
    filter_congr old, filter_cons_of_pos (adopt_isChild newest), filter_nil,
    filter_cons_of_neg (by rw [newest.notChild]; simp), filter_nil, append_nil]

theorem adopt_childrenOf_other (different : owner ≠ parent) :
    (kernel.adopt parent child last).childrenOf owner = kernel.childrenOf owner := by
  rw [childrenOf, childrenOf, adopt_isChild_other newest different]
  rfl

theorem adopt_owned {elem : Elem} (owned : kernel.Owned owner elem) :
    (kernel.adopt parent child last).Owned owner elem := by
  cases elem with
  | head _ | tail _ => exact owned
  | entry other =>
    refine (adopt_isChild_of_ne newest (.inr ?_)).trans owned
    rintro rfl
    exact Bool.false_ne_true ((newest.notChild owner).symm.trans owned)

variable (wellFormed : WellFormed kernel)
  (lastLink : kernel.links.prev (.tail parent) = some last)

include wellFormed lastLink

omit newest in
theorem last_owned : kernel.Owned parent last := by
  rcases wellFormed.prevOwned _ _ lastLink with ⟨owner, here, there⟩
  cases here
  exact there

/-- `list_push_back`. -/
theorem adopt_linked : (elemsOf parent (kernel.childrenOf parent ++ [child])).IsChain
    (kernel.adopt parent child last).links.Joined := by
  have chain := wellFormed.linked parent (by rw [newest.parentUser]; rfl)
  have distinct : (elemsOf parent (kernel.childrenOf parent)).Nodup :=
    elemsOf_nodup ((kernel.childrenOf_sorted parent).imp Nat.ne_of_lt)
  have fresh : Elem.entry child ∉ elemsOf parent (kernel.childrenOf parent) := by
    intro member
    have isChild := wellFormed.owned_of_mem member
    exact Bool.false_ne_true ((newest.notChild parent).symm.trans isChild)
  rcases eq_nil_or_concat (Elem.head parent :: (kernel.childrenOf parent).map .entry) with
    nil | ⟨init, final, split⟩
  · cases nil
  · have elems (children : List Tid) : elemsOf parent (kernel.childrenOf parent ++ children) =
        init ++ final :: (children.map .entry ++ [.tail parent]) := by
      rw [elemsOf, map_append, append_assoc, <- cons_append, split,
        concat_eq_append, append_assoc]
      rfl
    have now := elems []
    rw [append_nil] at now
    rw [now] at chain distinct fresh
    cases lastLink.symm.trans (Links.joined_of_chain chain).2
    rw [elems]
    exact Links.chain_insert chain distinct fresh

theorem adopt_wellFormed : WellFormed (kernel.adopt parent child last) where
  absent tid late := by
    have late : kernel.nextTid <= tid := late
    rw [adopt_of_ne]
    · exact wellFormed.absent tid late
    · rintro rfl
      exact Nat.lt_irrefl _ (Nat.lt_of_lt_of_le (newest.last ▸ Nat.lt_succ_self tid) late)
  older tid := by
    by_cases same : tid = child
    · rw [same, adopt_self]
      exact wellFormed.older child
    · rw [adopt_of_ne same]
      exact wellFormed.older tid
  own tid := by
    by_cases same : tid = child
    · rw [same, adopt_self, newest.thread]
      intro wstatus has
      cases has
      have named : (kernel.adopt parent child last).statuses child = ⟨none, 2, child, -2, 0⟩ :=
        update_self _ _ _
      exact ⟨rfl, by rw [named], by simp⟩
    · rw [adopt_of_ne same]
      intro wstatus has
      have named : (kernel.adopt parent child last).statuses tid = kernel.statuses tid :=
        update_of_ne same _ _
      rw [named]
      exact wellFormed.own tid wstatus has
  nextOwned elem other link := by
    rcases Links.next_insertBetween link with ⟨rfl, rfl⟩ | ⟨rfl, rfl⟩ | old
    · exact ⟨parent, adopt_owned newest (last_owned wellFormed lastLink), adopt_isChild newest⟩
    · exact ⟨parent, adopt_isChild newest, rfl⟩
    · rcases wellFormed.nextOwned elem other old with ⟨owner, here, there⟩
      exact ⟨owner, adopt_owned newest here, adopt_owned newest there⟩
  prevOwned elem other link := by
    rcases Links.prev_insertBetween link with ⟨rfl, rfl⟩ | ⟨rfl, rfl⟩ | old
    · exact ⟨parent, rfl, adopt_isChild newest⟩
    · exact ⟨parent, adopt_isChild newest, adopt_owned newest (last_owned wellFormed lastLink)⟩
    · rcases wellFormed.prevOwned elem other old with ⟨owner, here, there⟩
      exact ⟨owner, adopt_owned newest here, adopt_owned newest there⟩
  linked owner early := by
    by_cases same : owner = parent
    · subst same
      rw [adopt_childrenOf newest]
      exact adopt_linked newest wellFormed lastLink
    · rw [adopt_childrenOf_other newest same]
      have earlier : whole (kernel.pc owner) = true := by
        by_cases new : owner = child
        · rw [pc, new, newest.thread]
          rfl
        · rwa [pc, adopt_of_ne new] at early
      refine Links.chain_kept (wellFormed.linked owner earlier) ?_
      intro elem member
      have owned := wellFormed.owned_of_mem member
      have notLast : elem ≠ last := by
        rintro rfl
        exact same (owned.unique (last_owned wellFormed lastLink))
      have notChild : elem ≠ .entry child := by
        rintro rfl
        exact Bool.false_ne_true ((newest.notChild owner).symm.trans owned)
      have notTail : elem ≠ .tail parent := by
        rintro rfl
        exact same owned.symm
      exact ⟨(if_neg notLast).trans (if_neg notChild), (if_neg notTail).trans (if_neg notChild)⟩
  placed tid := by
    by_cases new : tid = child
    · rw [pc, new, adopt_self, newest.thread]
      trivial
    · rw [pc, adopt_of_ne new]
      by_cases same : tid = parent
      · have user : (kernel.threads parent).pc = .user := newest.parentUser
        rw [same, user]
        trivial
      · rw [placed_congr (adopt_isChild_other newest same) (by rw [adopt_of_ne new])]
        exact wellFormed.placed tid
  released tid := by
    by_cases new : tid = child
    · rw [pc, new, adopt_self, newest.thread]
      intro impossible
      cases impossible
    · rw [pc, adopt_of_ne new]
      exact wellFormed.released tid

end

/-! ## Every step -/

def Action.tid : Action -> Tid
  | .execute tid => tid
  | .executeWithoutStatus tid => tid
  | .wait tid _ => tid
  | .exit tid _ => tid
  | .forceExit tid => tid
  | .exception tid => tid
  | .resume tid => tid

theorem fromUser_eq_some {tid : Tid} {result : Option Kernel}
    (step : kernel.fromUser tid result = some after) :
    kernel.pc tid = .user ∧ result = some after := by
  unfold fromUser at step
  split at step
  next user => exact ⟨user, step⟩
  next => cases step

/-- A process is made, with a `wait_status` or without. -/
structure Born (kernel : Kernel) (parent : Tid) (after : Kernel) : Prop where
  user : kernel.pc parent = .user
  made : after = kernel.spawn parent none ∨
    ∃ last, (kernel.spawn parent none).links.prev (.tail parent) = some last ∧
      after = (kernel.spawn parent none).adopt parent kernel.nextTid last

variable {action : Action}

/-- A step is taken by one thread, or a process is made. -/
theorem step_cases (wellFormed : WellFormed kernel) (step : Step kernel action after) :
    Effect kernel action.tid after ∨ Born kernel action.tid after := by
  cases action with
  | execute tid =>
    rcases fromUser_eq_some step with ⟨user, step⟩
    rw [processExecute_eq] at step
    rcases bind_eq_some_iff.mp step with ⟨last, link, same⟩
    cases same
    exact .inr ⟨user, .inr ⟨last, link, rfl⟩⟩
  | executeWithoutStatus tid =>
    rcases fromUser_eq_some step with ⟨user, step⟩
    cases step
    exact .inr ⟨user, .inl rfl⟩
  | wait tid child =>
    rcases fromUser_eq_some step with ⟨user, step⟩
    rcases bind_eq_some_iff.mp step with ⟨first, link, same⟩
    cases same
    exact .inl (wait_effect wellFormed user link)
  | exit tid status =>
    rcases fromUser_eq_some step with ⟨user, step⟩
    cases step
    exact .inl (finish_effect wellFormed user status)
  | forceExit tid | exception tid =>
    rcases fromUser_eq_some step with ⟨user, step⟩
    cases step
    exact .inl (finish_effect wellFormed user (-1))
  | resume tid => exact .inl (resume_effect wellFormed step)

/-! ## Every run -/

/-- What holds in every state that a run reaches. -/
structure Sound (kernel : Kernel) : Prop where
  wellFormed : WellFormed kernel
  unfreed : ∀ late, kernel.nextTid <= late -> kernel.freed.count late = 0
  logged : ∀ tid call, call ∈ (kernel.threads tid).waited ->
    (call.own = true -> kernel.isChild tid call.child = true) ∧
      (call.own = false -> call.result = -1)
  paired : ∀ parent child, kernel.isChild parent child = true ->
    ∃ moves, Run Shared.Step Shared.initial moves (kernel.pairOf parent child)

/-- What a step is for a pair: nothing, a step of the protocol, or its beginning. -/
def PairNext (kernel : Kernel) (tid : Tid) (after : Kernel) (parent child : Tid) : Prop :=
  (kernel.isChild parent child = true ∧ PairStep kernel tid after parent child) ∨
    after.pairOf parent child = Shared.initial

section

variable (sound : Sound kernel) (user : kernel.pc parent = .user)

include sound user

theorem parent_lt_nextTid : parent < kernel.nextTid :=
  sound.wellFormed.lt_nextTid_of_present (by rw [user]; simp)

theorem spawn_newest : Newest (kernel.spawn parent none) parent kernel.nextTid where
  last := rfl
  thread := spawn_self none
  unshared := sound.unfreed kernel.nextTid (Nat.le_refl _)
  parentUser := by
    rw [pc, spawn_of_ne (Nat.ne_of_lt (parent_lt_nextTid sound user))]
    exact user

omit user in
theorem spawn_pairOf {owner child : Tid} (isChild : kernel.isChild owner child = true) :
    (kernel.spawn parent none).pairOf owner child = kernel.pairOf owner child := by
  have childBefore := sound.wellFormed.lt_nextTid isChild
  have ownerBefore := Nat.lt_trans (sound.wellFormed.owner_lt isChild) childBefore
  rw [pairOf, pc, pc, spawn_of_ne (Nat.ne_of_lt childBefore),
    spawn_of_ne (Nat.ne_of_lt ownerBefore)]
  rfl

omit user in
theorem adopt_pairOf {owner child : Tid} {last : Elem}
    (isChild : kernel.isChild owner child = true) :
    ((kernel.spawn parent none).adopt parent kernel.nextTid last).pairOf owner child =
      kernel.pairOf owner child := by
  have childBefore := Nat.ne_of_lt (sound.wellFormed.lt_nextTid isChild)
  have ownerBefore := Nat.ne_of_lt (Nat.lt_trans (sound.wellFormed.owner_lt isChild)
    (sound.wellFormed.lt_nextTid isChild))
  have status : ((kernel.spawn parent none).adopt parent kernel.nextTid last).statuses child =
      kernel.statuses child := update_of_ne childBefore _ _
  rw [pairOf, pc, pc, adopt_of_ne childBefore, adopt_of_ne ownerBefore, spawn_of_ne childBefore,
    spawn_of_ne ownerBefore, status]
  rfl

omit user in
/-- Nobody has waited for the new thread as its child. -/
theorem resultsFor_nextTid (tid : Tid) :
    resultsFor kernel.nextTid (kernel.threads tid).waited = [] := by
  rw [resultsFor, map_eq_nil_iff, filter_eq_nil_iff]
  intro call member counts
  rw [Bool.and_eq_true, decide_eq_true_iff] at counts
  have isChild := (sound.logged tid call member).1 counts.1
  rw [counts.2, isChild_nextTid sound.wellFormed] at isChild
  cases isChild

theorem adopt_pairOf_new {last : Elem} :
    ((kernel.spawn parent none).adopt parent kernel.nextTid last).pairOf parent kernel.nextTid =
      Shared.initial := by
  have before := Nat.ne_of_lt (parent_lt_nextTid sound user)
  have status : ((kernel.spawn parent none).adopt parent kernel.nextTid last).statuses
      kernel.nextTid = ⟨none, 2, kernel.nextTid, -2, 0⟩ := update_self _ _ _
  have unshared : ((kernel.spawn parent none).adopt parent kernel.nextTid last).freed.count
      kernel.nextTid = 0 := sound.unfreed kernel.nextTid (Nat.le_refl _)
  have user : (kernel.threads parent).pc = .user := user
  rw [pairOf, status, unshared, pc, pc, adopt_self, adopt_of_ne before, spawn_self,
    spawn_of_ne before, user, resultsFor_nextTid sound]
  rfl

end

theorem Sound.pairNext (sound : Sound kernel) (step : Step kernel action after) {owner child : Tid}
    (isChild : after.isChild owner child = true) :
    PairNext kernel action.tid after owner child := by
  rcases step_cases sound.wellFormed step with effect | ⟨user, rfl | ⟨last, link, rfl⟩⟩
  · rw [effect.moves.isChild_eq] at isChild
    exact .inl ⟨isChild, effect.pairs owner child isChild⟩
  · rw [spawn_isChild sound.wellFormed] at isChild
    exact .inl ⟨isChild, .inl (spawn_pairOf sound isChild)⟩
  · by_cases new : owner = action.tid ∧ child = kernel.nextTid
    · rcases new with ⟨rfl, rfl⟩
      exact .inr (adopt_pairOf_new sound user)
    · rw [adopt_isChild_of_ne (spawn_newest sound user) (not_and_or.mp new),
        spawn_isChild sound.wellFormed] at isChild
      exact .inl ⟨isChild, .inl (adopt_pairOf sound isChild)⟩

theorem Sound.step (sound : Sound kernel) (step : Step kernel action after) : Sound after := by
  have paired : ∀ owner child, after.isChild owner child = true ->
      ∃ moves, Run Shared.Step Shared.initial moves (after.pairOf owner child) := by
    intro owner child isChild
    rcases sound.pairNext step isChild with ⟨before, same | ⟨move, next, _⟩⟩ | new
    · rw [same]
      exact sound.paired owner child before
    · rcases sound.paired owner child before with ⟨moves, run⟩
      exact ⟨moves ++ [move], run.snoc next⟩
    · rw [new]
      exact ⟨[], Run.nil⟩
  rcases step_cases sound.wellFormed step with effect | ⟨user, rfl | ⟨last, link, rfl⟩⟩
  · refine ⟨effect.wellFormed, ?_, ?_, paired⟩
    · intro late after
      rw [effect.moves.nextTid] at after
      rw [effect.spares late after]
      exact sound.unfreed late after
    · intro tid call member
      rw [effect.moves.isChild_eq]
      by_cases same : tid = action.tid
      · subst same
        rcases effect.logs with nothing | ⟨child, result, added, stranger⟩
        · rw [nothing] at member
          exact sound.logged _ call member
        · rw [added] at member
          rcases mem_append.mp member with earlier | last
          · exact sound.logged _ call earlier
          · cases mem_singleton.mp last
            exact ⟨id, stranger⟩
      · rw [effect.moves.others tid same] at member
        exact sound.logged tid call member
  · refine ⟨spawn_wellFormed sound.wellFormed (by rw [user]; simp), ?_, ?_, paired⟩
    · exact fun late after => sound.unfreed late (Nat.le_of_succ_le after)
    · intro tid call member
      rw [spawn_isChild sound.wellFormed]
      by_cases new : tid = kernel.nextTid
      · rw [new, spawn_self] at member
        cases member
      · rw [spawn_of_ne new] at member
        exact sound.logged tid call member
  · have newest := spawn_newest sound user
    refine ⟨adopt_wellFormed newest (spawn_wellFormed sound.wellFormed (by rw [user]; simp)) link,
      ?_, ?_, paired⟩
    · exact fun late after => sound.unfreed late (Nat.le_of_succ_le after)
    · intro tid call member
      by_cases new : tid = kernel.nextTid
      · rw [new, adopt_self, spawn_self] at member
        cases member
      · rw [adopt_of_ne new, spawn_of_ne new] at member
        rcases sound.logged tid call member with ⟨own, stranger⟩
        refine ⟨fun counts => ?_, stranger⟩
        have isChild := own counts
        rw [adopt_isChild_of_ne newest, spawn_isChild sound.wellFormed]
        · exact isChild
        · exact .inr (Nat.ne_of_lt (sound.wellFormed.lt_nextTid isChild))

theorem initial_of_ne {tid : Tid} (different : tid ≠ 0) : initial.threads tid = Thread.absent := by
  simp only [initial, update_of_ne different]

theorem initial_self : initial.threads 0 = ⟨.user, none, true, none, none, []⟩ := by
  simp only [initial, update_self]

theorem initial_thread (tid : Tid) : initial.threads tid = Thread.absent ∨
    tid = 0 ∧ initial.threads tid = ⟨.user, none, true, none, none, []⟩ := by
  by_cases same : tid = 0
  · subst same
    exact .inr ⟨rfl, initial_self⟩
  · exact .inl (initial_of_ne same)

theorem initial_isChild (owner child : Tid) : initial.isChild owner child = false := by
  rw [isChild]
  rcases initial_thread child with absent | ⟨_, main⟩
  · rw [absent]
    simp [Thread.absent]
  · rw [main]
    simp

theorem initial_childrenOf (owner : Tid) : initial.childrenOf owner = [] := by
  refine filter_eq_nil_iff.mpr ?_
  intro child _
  rw [initial_isChild]
  exact Bool.false_ne_true

theorem initial_wellFormed : WellFormed initial where
  absent tid late := initial_of_ne (Nat.ne_of_gt late)
  older tid parent isParent := by
    rcases initial_thread tid with absent | ⟨_, main⟩
    · rw [absent] at isParent
      cases isParent
    · rw [main] at isParent
      cases isParent
  own tid wstatus has := by
    rcases initial_thread tid with absent | ⟨_, main⟩
    · rw [absent] at has
      cases has
    · rw [main] at has
      cases has
  nextOwned elem other link := by
    rcases next_listInit link with ⟨rfl, rfl⟩ | old
    · exact ⟨0, rfl, rfl⟩
    · cases old
  prevOwned elem other link := by
    rcases prev_listInit link with ⟨rfl, rfl⟩ | old
    · exact ⟨0, rfl, rfl⟩
    · cases old
  linked owner early := by
    rw [initial_childrenOf]
    rcases initial_thread owner with absent | ⟨rfl, _⟩
    · rw [pc, absent] at early
      cases early
    · exact isChain_pair.mpr ⟨rfl, rfl⟩
  placed tid := by
    rcases initial_thread tid with absent | ⟨_, main⟩
    · rw [pc, absent]
      trivial
    · rw [pc, main]
      trivial
  released tid late := by
    rcases initial_thread tid with absent | ⟨_, main⟩
    · rw [pc, absent] at late
      cases late
    · rw [pc, main] at late
      cases late

theorem initial_sound : Sound initial := by
  refine ⟨initial_wellFormed, fun _ _ => rfl, ?_, ?_⟩
  · intro tid call member
    rcases initial_thread tid with absent | ⟨_, main⟩
    · rw [absent] at member
      cases member
    · rw [main] at member
      cases member
  · intro parent child isChild
    rw [initial_isChild] at isChild
    cases isChild

end Kernel

end Pintos
end Codebank
