import Codebank.Pintos.Waiting

namespace Codebank
namespace Pintos

open Foundation List Option

/-!
# Who frees a `wait_status`, and who still uses it

The count makes sure that each `wait_status` is freed once.  It does not make sure
that nobody uses it afterwards.  A child may free its `wait_status` while the parent
is still in its loops over the children, whose links lead through it; and the parent
may free it before the child has upped the semaphore in it.  In runs in which both
frees come late enough, freed memory is not used.
-/

namespace Kernel

variable {kernel after : Kernel} {actions : List Action} {tid parent child wstatus : Tid} {pc : Pc}
  {action : Action}

/-- `process_exit` is behind its loops over the children. -/
def settled : Pc -> Bool
  | .lockParent => true
  | .countParent => true
  | .unlockParent _ => true
  | .freeParent => true
  | .upParent => true
  | .dead => true
  | _ => false

/-- `process_exit` is removing children from its list. -/
def removing : Pc -> Bool
  | .removeChild _ => true
  | .freeChild _ _ => true
  | _ => false

/-- A child frees only when its parent is behind its loops over the children, and a
parent only when the child has upped the semaphore. -/
def orderly (kernel : Kernel) : Action -> Bool
  | .resume tid =>
    match kernel.pc tid with
    | .freeParent =>
      (kernel.threads tid).parent.all (fun parent => settled (kernel.pc parent))
    | .freeChild wstatus _ => decide (kernel.pc wstatus ≠ .upParent)
    | _ => true
  | _ => true

def OrderlyStep (kernel : Kernel) (action : Action) (after : Kernel) : Prop :=
  Step kernel action after ∧ kernel.orderly action = true

theorem whole_of_settled (late : settled pc = true) : whole pc = false := by
  cases pc <;> first | rfl | cases late

theorem not_settled_of_removing (late : removing pc = true) : settled pc = false := by
  cases pc <;> first | rfl | cases late

/-! ## How often -/

theorem Sound.freed_le_one (sound : Sound kernel) (isChild : kernel.isChild parent child = true) :
    kernel.freed.count child <= 1 := by
  have ledger := (sound.counted isChild).ledger
  change _ + _ + kernel.freed.count child = _ at ledger
  split at ledger <;> omega

theorem Sound.freed_eq_one (sound : Sound kernel) (isChild : kernel.isChild parent child = true)
    (parentDead : kernel.pc parent = .dead) (childDead : kernel.pc child = .dead) :
    kernel.freed.count child = 1 := by
  have counted := sound.counted isChild
  have ledger := counted.ledger
  have count := counted.count
  simp only [pairOf, parentDead, childDead, parentPhase, childPhase, Shared.parentShare,
    Shared.childShare] at count
  simp only [pairOf, parentDead, childDead, parentPhase, childPhase, Shared.parentOwes,
    Shared.childOwes, count] at ledger
  simpa using ledger

/-! ## Which steps free -/

/-- The number of frees changes only where `free` is called. -/
theorem PairStep.freed_cases (pairStep : PairStep kernel tid after parent child) :
    after.freed.count child = kernel.freed.count child ∨
      (tid = parent ∧ ∃ rest, kernel.pc parent = .freeChild child rest) ∨
      (tid = child ∧ kernel.pc child = .freeParent) := by
  rcases pairStep with same | ⟨move, next, taken⟩
  · exact .inl (congrArg Shared.frees same)
  · rcases Shared.frees_cases next with same | rfl | rfl
    · exact .inl same
    · exact .inr (.inl taken)
    · exact .inr (.inr taken)

theorem Born.pc_eq (born : Born kernel parent after)
    (old : tid ≠ kernel.nextTid) : after.pc tid = kernel.pc tid := by
  rcases born.made with rfl | ⟨last, _, rfl⟩
  · rw [pc, spawn_of_ne old]
    rfl
  · rw [pc, adopt_of_ne old, spawn_of_ne old]
    rfl

theorem Sound.whole_before (sound : Sound kernel) (step : Step kernel action after)
    (isChild : kernel.isChild parent child = true) (early : whole (after.pc parent) = true) :
    whole (kernel.pc parent) = true := by
  rcases step_cases sound.wellFormed step with effect | born
  · by_cases same : parent = action.tid
    · subst same
      exact effect.early early
    · rwa [pc, effect.moves.others parent same] at early
  · rwa [born.pc_eq] at early
    exact Nat.ne_of_lt (Nat.lt_trans (sound.wellFormed.owner_lt isChild)
      (sound.wellFormed.lt_nextTid isChild))

/-! ## The list while children are removed -/

theorem removing_goto (kernel : Kernel) (tid : Tid) (pc : Pc) :
    removing ((kernel.goto tid pc).pc tid) = removing pc := by
  rw [goto_pc_self]

theorem removing_returnWait (kernel : Kernel) (tid child : Tid) (result : Int) :
    removing ((kernel.returnWait tid child result).pc tid) = false := by
  rw [pc, returnWait_self]
  rfl

theorem removing_waitAt {c : Elem} (step : kernel.waitAt tid child c = some after) :
    removing (after.pc tid) = false := by
  unfold waitAt at step
  split at step
  · cases step
    exact removing_returnWait _ _ _ _
  · split at step
    · split at step
      · split at step
        · cases step
          exact removing_returnWait _ _ _ _
        · cases step
          exact removing_goto _ _ _
      · rcases bind_eq_some_iff.mp step with ⟨next, _, same⟩
        cases same
        exact removing_goto _ _ _
    · cases step

theorem removing_sizeAt {c : Elem} (step : kernel.sizeAt tid c = some after) :
    removing (after.pc tid) = false := by
  unfold sizeAt at step
  split at step <;>
  · rcases bind_eq_some_iff.mp step with ⟨next, _, same⟩
    cases same
    exact removing_goto _ _ _

theorem removing_semaDown (step : kernel.semaDown tid child wstatus = some after) :
    removing (after.pc tid) = false := by
  simp only [semaDown] at step
  split at step
  · cases step
    exact removing_goto _ _ _
  · cases step

theorem removing_acquire (step : kernel.acquire tid wstatus pc = some after) :
    removing (after.pc tid) = removing pc := by
  simp only [acquire] at step
  split at step
  · cases step
    exact removing_goto _ _ _
  · cases step

/-- Threads elsewhere in the kernel do not begin to remove children. -/
theorem not_removing_after (step : kernel.resume tid = some after)
    (elsewhere : removing (kernel.pc tid) = false)
    (notEach : ∀ c deleteChildren, kernel.pc tid ≠ .eachChild c deleteChildren) :
    removing (after.pc tid) = false := by
  cases here : kernel.pc tid with
  | waitTest child c =>
    simp only [resume, here] at step
    exact removing_waitAt step
  | waitDown child wstatus =>
    simp only [resume, here] at step
    exact removing_semaDown step
  | waitClear child wstatus exitCode =>
    simp only [resume, here] at step
    cases step
    exact removing_returnWait _ _ _ _
  | release =>
    simp only [resume, here] at step
    rcases bind_eq_some_iff.mp step with ⟨first, _, same⟩
    cases same
    rw [pc, setThread_self]
    rfl
  | sizeChildren c =>
    simp only [resume, here] at step
    exact removing_sizeAt step
  | lockChild wstatus deleteChildren =>
    simp only [resume, here] at step
    exact removing_acquire step
  | waitRead child wstatus | countChild wstatus deleteChildren
  | unlockChild wstatus deleteChildren =>
    simp only [resume, here] at step
    cases step
    exact removing_goto _ _ _
  | lockParent =>
    simp only [resume, here] at step
    rcases bind_eq_some_iff.mp step with ⟨wstatus, _, step⟩
    exact removing_acquire step
  | unlockParent deallocateParent =>
    simp only [resume, here] at step
    rcases bind_eq_some_iff.mp step with ⟨wstatus, _, same⟩
    cases same
    refine (removing_goto _ _ _).trans ?_
    split <;> rfl
  | nextChild _ _ | countParent | freeParent | upParent =>
    simp only [resume, here] at step
    rcases bind_eq_some_iff.mp step with ⟨wstatus, _, same⟩
    cases same
    exact removing_goto _ _ _
  | eachChild c deleteChildren => exact absurd here (notEach c deleteChildren)
  | removeChild deleteChildren | freeChild wstatus rest => rw [here] at elsewhere; cases elsewhere
  | absent | user | dead => simp only [resume, here] at step; cases step

/-- Where a thread that is removing children comes from. -/
theorem removing_cases (step : kernel.resume tid = some after)
    (late : removing (after.pc tid) = true) :
    (∃ deleteChildren, kernel.pc tid = .eachChild (.tail tid) deleteChildren ∧
      after = kernel.goto tid (.removeChild deleteChildren)) ∨
    (∃ wstatus rest, kernel.pc tid = .removeChild (wstatus :: rest) ∧
      kernel.removeAt tid (wstatus :: rest) = some after) ∨
    (∃ wstatus rest, kernel.pc tid = .freeChild wstatus rest ∧
      after = kernel.free tid wstatus (.removeChild rest)) := by
  cases here : kernel.pc tid with
  | eachChild c deleteChildren =>
    simp only [resume, here, eachAt] at step
    split at step
    next last =>
      subst last
      cases step
      exact .inl ⟨deleteChildren, rfl, rfl⟩
    next =>
      split at step
      · cases step
        rw [removing_goto] at late
        cases late
      · cases step
  | removeChild deleteChildren =>
    simp only [resume, here] at step
    cases deleteChildren with
    | nil =>
      simp only [removeAt] at step
      split at step <;> cases step <;> rw [removing_goto] at late <;> cases late
    | cons wstatus rest => exact .inr (.inl ⟨wstatus, rest, rfl, step⟩)
  | freeChild wstatus rest =>
    simp only [resume, here] at step
    cases step
    exact .inr (.inr ⟨wstatus, rest, rfl, rfl⟩)
  | _ =>
    have not := not_removing_after step (by rw [here]; rfl) (by rw [here]; simp)
    rw [late] at not
    cases not

def removedBy : Pc -> Option Tid
  | .freeChild wstatus _ => some wstatus
  | _ => none

/-- The child is still in the list of a parent that is removing children. -/
def present (kernel : Kernel) (owner child : Tid) : Bool :=
  decide (kernel.freed.count child = 0) && decide (removedBy (kernel.pc owner) ≠ some child)

def listed (kernel : Kernel) (owner : Tid) : List Tid :=
  (kernel.childrenOf owner).filter (kernel.present owner)

/-- What holds in every state that orderly steps reach. -/
structure Tidy (kernel : Kernel) : Prop where
  early : ∀ parent child, kernel.isChild parent child = true ->
    whole (kernel.pc parent) = true -> kernel.freed.count child = 0
  dead : ∀ parent child, kernel.isChild parent child = true ->
    0 < kernel.freed.count child -> kernel.pc child = .dead
  kept : ∀ owner, removing (kernel.pc owner) = true ->
    (elemsOf owner (kernel.listed owner)).IsChain kernel.links.Joined

/-- A child whose `wait_status` is to be deleted has not been freed. -/
theorem Sound.unfreed_of_owed (sound : Sound kernel) (isChild : kernel.isChild parent child = true)
    (owed : parentPhase child (kernel.pc parent) = .left true) : kernel.freed.count child = 0 := by
  have ledger := (sound.counted isChild).ledger
  simp only [pairOf, owed, Shared.parentOwes] at ledger
  split at ledger <;> omega

theorem settled_of_orderly (step : OrderlyStep kernel action after) (actor : action.tid = child)
    (here : kernel.pc child = .freeParent) (isChild : kernel.isChild parent child = true) :
    settled (kernel.pc parent) = true := by
  subst actor
  have resumes := eq_resume_of_not_user step.1 (by rw [here]; simp)
  have orderly := step.2
  rw [resumes] at orderly
  simpa [Kernel.orderly, here, (isChild_iff.mp isChild).1] using orderly

theorem not_upping_of_orderly {rest : List Tid} (step : OrderlyStep kernel action after)
    (actor : action.tid = parent) (here : kernel.pc parent = .freeChild child rest) :
    kernel.pc child ≠ .upParent := by
  subst actor
  have resumes := eq_resume_of_not_user step.1 (by rw [here]; simp)
  have orderly := step.2
  rw [resumes] at orderly
  simpa [Kernel.orderly, here] using orderly

theorem pc_of_upping (upping : childPhase pc = .upping) : pc = .upParent := by
  cases pc <;> first | rfl | cases upping

section

variable (sound : Sound kernel) (tidy : Tidy kernel) {action : Action}
  (step : OrderlyStep kernel action after)

include sound tidy step

theorem Tidy.early_step (parent child : Tid) (isChild : after.isChild parent child = true)
    (early : whole (after.pc parent) = true) : after.freed.count child = 0 := by
  rcases sound.pairNext step.1 isChild with ⟨before, pairStep⟩ | new
  · have wholeBefore := sound.whole_before step.1 before early
    rcases pairStep.freed_cases with same | ⟨_, rest, here⟩ | ⟨actor, here⟩
    · rw [same]
      exact tidy.early parent child before wholeBefore
    · rw [here] at wholeBefore
      cases wholeBefore
    · rw [whole_of_settled (settled_of_orderly step actor here before)] at wholeBefore
      cases wholeBefore
  · exact congrArg Shared.frees new

theorem Tidy.dead_step (parent child : Tid) (isChild : after.isChild parent child = true)
    (freed : 0 < after.freed.count child) : after.pc child = .dead := by
  rcases sound.pairNext step.1 isChild with ⟨before, same | ⟨move, next, taken⟩⟩ | new
  · have frees : after.freed.count child = kernel.freed.count child := congrArg Shared.frees same
    have phase : childPhase (after.pc child) = childPhase (kernel.pc child) :=
      congrArg Shared.child same
    rw [frees] at freed
    rw [tidy.dead parent child before freed] at phase
    exact pc_of_dead phase
  · refine pc_of_dead (Shared.dead_of_freed (sound.counted before) next ?_ ?_ freed)
    · rintro rfl upping
      rcases taken with ⟨actor, rest, here⟩
      exact not_upping_of_orderly step actor here (pc_of_upping upping)
    · intro earlier
      exact congrArg childPhase (tidy.dead parent child before earlier)
  · rw [show after.freed.count child = 0 from congrArg Shared.frees new] at freed
    cases freed

end

/-! ### The list stays linked -/

variable {owner : Tid} {elem : Elem} {rest : List Tid}

theorem not_removing_of_user (sound : Sound kernel) {action : Action}
    (step : Step kernel action after) (user : kernel.pc action.tid = .user) :
    removing (after.pc action.tid) = false := by
  have old : action.tid ≠ kernel.nextTid := Nat.ne_of_lt
    (sound.wellFormed.lt_nextTid_of_present (by rw [user]; simp))
  cases action with
  | execute tid =>
    rcases fromUser_eq_some step with ⟨_, step⟩
    rw [processExecute_eq] at step
    rcases bind_eq_some_iff.mp step with ⟨last, link, same⟩
    have born : Born kernel tid after := ⟨user, .inr ⟨last, link, (some.inj same).symm⟩⟩
    exact congrArg removing ((born.pc_eq old).trans user)
  | executeWithoutStatus tid =>
    rcases fromUser_eq_some step with ⟨_, step⟩
    have born : Born kernel tid after := ⟨user, .inl (some.inj step).symm⟩
    exact congrArg removing ((born.pc_eq old).trans user)
  | wait tid child =>
    rcases fromUser_eq_some step with ⟨_, step⟩
    rcases bind_eq_some_iff.mp step with ⟨first, _, same⟩
    cases same
    exact removing_goto _ _ _
  | exit tid status | forceExit tid | exception tid =>
    rcases fromUser_eq_some step with ⟨_, step⟩
    cases step
    rw [pc, Action.tid, finish_self]
    rfl
  | resume tid =>
    have stuck : kernel.resume tid = none := by
      simp only [resume, show kernel.pc tid = .user from user]
    cases stuck.symm.trans step

theorem mem_listed (sound : Sound kernel) : child ∈ kernel.listed owner <->
    kernel.isChild owner child = true ∧ kernel.present owner child = true := by
  rw [listed, mem_filter, sound.wellFormed.mem_childrenOf]

theorem listed_congr (sound : Sound kernel)
    (children : after.childrenOf owner = kernel.childrenOf owner)
    (same : ∀ child, kernel.isChild owner child = true ->
      after.present owner child = kernel.present owner child) :
    after.listed owner = kernel.listed owner := by
  rw [listed, listed, children]
  refine filter_congr ?_
  exact fun child member => same child (sound.wellFormed.mem_childrenOf.mp member)

theorem owned_of_mem_listed (sound : Sound kernel)
    (member : elem ∈ elemsOf owner (kernel.listed owner)) : kernel.Owned owner elem := by
  refine sound.wellFormed.owned_of_mem ?_
  have sub : (kernel.listed owner).Sublist (kernel.childrenOf owner) := filter_sublist
  exact ((((sub.map Elem.entry).append_right [.tail owner]).cons_cons (.head owner))).subset member

theorem listed_nodup (kernel : Kernel) (owner : Tid) :
    (elemsOf owner (kernel.listed owner)).Nodup :=
  elemsOf_nodup (((kernel.childrenOf_sorted owner).imp Nat.ne_of_lt).filter _)

/-- A thread begins to remove children: the list is whole. -/
theorem kept_begin (sound : Sound kernel) (tidy : Tidy kernel) {deleteChildren : List Tid}
    (here : kernel.pc tid = .eachChild (.tail tid) deleteChildren) :
    (elemsOf tid ((kernel.goto tid (.removeChild deleteChildren)).listed tid)).IsChain
      kernel.links.Joined := by
  have early : whole (kernel.pc tid) = true := by rw [here]; rfl
  have all : (kernel.goto tid (.removeChild deleteChildren)).listed tid =
      kernel.childrenOf tid := by
    rw [listed, (moves_goto _).childrenOf_eq]
    refine filter_eq_self.mpr ?_
    intro child member
    have unfreed := tidy.early tid child (sound.wellFormed.mem_childrenOf.mp member) early
    rw [present, goto_pc_self, show (kernel.goto tid _).freed = kernel.freed from rfl, unfreed]
    rfl
  rw [all]
  exact sound.wellFormed.linked tid early

/-- The list without one of its children. -/
theorem listed_remove {left right : List Tid} (split : kernel.listed tid = left ++ wstatus :: right)
    (children : after.childrenOf tid = kernel.childrenOf tid)
    (present : ∀ child, after.present tid child =
      (decide (child ≠ wstatus) && kernel.present tid child)) :
    after.listed tid = left ++ right := by
  have distinct : (left ++ wstatus :: right).Nodup := by
    rw [<- split]
    exact ((kernel.childrenOf_sorted tid).imp Nat.ne_of_lt).filter _
  have outside := (nodup_cons.mp (nodup_middle.mp distinct)).1
  have fewer : after.listed tid = (kernel.listed tid).filter (fun child => child ≠ wstatus) := by
    rw [listed, listed, children, List.filter_filter]
    exact filter_congr fun child _ => present child
  have others : ∀ child, child ∈ left ++ right -> decide (child ≠ wstatus) = true := by
    intro child member
    refine decide_eq_true ?_
    rintro rfl
    exact outside member
  rw [fewer, split, filter_append, filter_cons_of_neg (by simp),
    filter_eq_self.mpr fun child member => others child (mem_append_left _ member),
    filter_eq_self.mpr fun child member => others child (mem_append_right _ member)]

/-- The elements around a place in the list. -/
theorem elemsOf_split (owner : Tid) (left right : List Tid) :
    ∃ init before behind others, ∀ middle,
      elemsOf owner (left ++ middle ++ right) =
        init ++ before :: (middle.map .entry ++ behind :: others) := by
  rcases eq_nil_or_concat (Elem.head owner :: left.map .entry) with
    nil | ⟨init, before, front⟩
  · cases nil
  cases back : right.map Elem.entry ++ [.tail owner] with
  | nil => simp at back
  | cons behind others =>
    refine ⟨init, before, behind, others, fun middle => ?_⟩
    rw [elemsOf, map_append, map_append, append_assoc, append_assoc,
      <- cons_append, front, concat_eq_append, back, append_assoc]
    rfl

variable {links : Links Elem}

theorem joined_around {init others : List Elem} {before behind : Elem}
    (chain : (init ++ before :: elem :: behind :: others).IsChain links.Joined) :
    links.prev elem = some before ∧ links.next elem = some behind := by
  refine ⟨(Links.joined_of_chain chain).2, ?_⟩
  rw [append_cons] at chain
  exact (Links.joined_of_chain chain).1

/-- `list_remove` on a linked list. -/
theorem chain_remove {left right : List Tid} {prev next : Elem}
    (chain : (elemsOf tid (left ++ wstatus :: right)).IsChain links.Joined)
    (distinct : (elemsOf tid (left ++ wstatus :: right)).Nodup)
    (prevLink : links.prev (.entry wstatus) = some prev)
    (nextLink : links.next (.entry wstatus) = some next) :
    (elemsOf tid (left ++ right)).IsChain (links.join prev next).Joined := by
  rcases elemsOf_split tid left right with ⟨init, before, behind, others, elems⟩
  have shorter := elems []
  rw [append_nil] at shorter
  rw [append_cons, elems [wstatus]] at chain distinct
  rw [shorter]
  rcases joined_around chain with ⟨prevLink', nextLink'⟩
  cases prevLink.symm.trans prevLink'
  cases nextLink.symm.trans nextLink'
  exact Links.chain_join chain distinct

section

variable (sound : Sound kernel)

include sound

/-- The child that is removed next is in the list. -/
theorem listed_next (here : kernel.pc tid = .removeChild (wstatus :: rest)) :
    wstatus ∈ kernel.listed tid := by
  have placed := sound.wellFormed.placed tid
  rw [here] at placed
  have isChild := (placed.children wstatus mem_cons_self).1
  refine (mem_listed sound).mpr ⟨isChild, ?_⟩
  rw [present, here, sound.unfreed_of_owed isChild (by rw [here]; simp [parentPhase_removeChild])]
  rfl

theorem kept_remove (tidy : Tidy kernel) (here : kernel.pc tid = .removeChild (wstatus :: rest))
    (step : kernel.removeAt tid (wstatus :: rest) = some after) :
    (elemsOf tid (after.listed tid)).IsChain after.links.Joined := by
  have chain := tidy.kept tid (by rw [here]; rfl)
  have distinct := kernel.listed_nodup tid
  rcases append_of_mem (listed_next sound here) with ⟨left, right, split⟩
  have effect := removeCons_effect sound.wellFormed here step
  rcases removeCons_eq_some step with ⟨prev, next, prevLink, nextLink, rfl⟩
  rw [listed_remove split (effect.moves.childrenOf_eq tid) ?_]
  · rw [split] at chain distinct
    exact chain_remove chain distinct prevLink nextLink
  · intro child
    have freed : ({ kernel with links := kernel.links.join prev next }.goto tid
        (.freeChild wstatus rest)).freed = kernel.freed := rfl
    rw [present, present, goto_pc_self, here, freed]
    by_cases same : child = wstatus
    · simp [removedBy, same]
    · simp [removedBy, same, Ne.symm same]

/-- `free` after `list_remove`. -/
theorem kept_free (tidy : Tidy kernel) (here : kernel.pc tid = .freeChild wstatus rest) :
    (elemsOf tid ((kernel.free tid wstatus (.removeChild rest)).listed tid)).IsChain
      kernel.links.Joined := by
  have chain := tidy.kept tid (by rw [here]; rfl)
  have effect := freeChild_effect sound.wellFormed here
  have same : (kernel.free tid wstatus (.removeChild rest)).listed tid = kernel.listed tid := by
    refine listed_congr sound (effect.moves.childrenOf_eq tid) ?_
    intro child _
    have target : (kernel.free tid wstatus (.removeChild rest)).pc tid = .removeChild rest :=
      goto_pc_self _ _ _
    have count : (kernel.free tid wstatus (.removeChild rest)).freed.count child =
        kernel.freed.count child + List.count child [wstatus] := count_append
    rw [present, present, target, here, count, count_singleton]
    by_cases same : wstatus = child
    · simp [removedBy, same]
    · simp [removedBy, same]
  rw [same]
  exact chain

/-- The elements of a list that is being taken apart do not change when a process
is made. -/
theorem Born.frame (born : Born kernel parent after) (other : owner ≠ parent)
    (old : owner ≠ kernel.nextTid) (owned : kernel.Owned owner elem) :
    after.links.next elem = kernel.links.next elem ∧
      after.links.prev elem = kernel.links.prev elem := by
  have notHead : elem ≠ .head kernel.nextTid := by
    rintro rfl
    exact old owned.symm
  have notTail : elem ≠ .tail kernel.nextTid := by
    rintro rfl
    exact old owned.symm
  have spawned : (kernel.spawn parent none).links.next elem = kernel.links.next elem ∧
      (kernel.spawn parent none).links.prev elem = kernel.links.prev elem :=
    ⟨(if_neg notHead).trans (if_neg notTail), (if_neg notTail).trans (if_neg notHead)⟩
  rcases born.made with rfl | ⟨last, link, rfl⟩
  · exact spawned
  · have wellFormed : WellFormed (kernel.spawn parent none) :=
      spawn_wellFormed sound.wellFormed (by rw [born.user]; simp)
    have notLast : elem ≠ last := by
      rintro rfl
      exact other (owned.unique ((spawn_owned sound.wellFormed).mp (last_owned wellFormed link)))
    have notEntry : elem ≠ .entry kernel.nextTid := by
      rintro rfl
      exact Bool.false_ne_true ((isChild_nextTid sound.wellFormed owner).symm.trans owned)
    have notEnd : elem ≠ .tail parent := by
      rintro rfl
      exact other owned.symm
    rw [<- spawned.1, <- spawned.2]
    exact ⟨(if_neg notLast).trans (if_neg notEntry), (if_neg notEnd).trans (if_neg notEntry)⟩

theorem Born.childrenOf_eq (born : Born kernel parent after) (other : owner ≠ parent) :
    after.childrenOf owner = kernel.childrenOf owner := by
  rcases born.made with rfl | ⟨last, link, rfl⟩
  · exact spawn_childrenOf sound.wellFormed owner
  · rw [adopt_childrenOf_other (spawn_newest sound born.user) other,
      spawn_childrenOf sound.wellFormed]

end

theorem Born.freed_eq (born : Born kernel parent after) : after.freed = kernel.freed := by
  rcases born.made with rfl | ⟨last, _, rfl⟩ <;> rfl

theorem Tidy.kept_step (sound : Sound kernel) (tidy : Tidy kernel) {action : Action}
    (step : OrderlyStep kernel action after) (owner : Tid)
    (late : removing (after.pc owner) = true) :
    (elemsOf owner (after.listed owner)).IsChain after.links.Joined := by
  by_cases actor : owner = action.tid
  · subst actor
    have inside : kernel.pc action.tid ≠ .user := by
      intro user
      rw [not_removing_of_user sound step.1 user] at late
      cases late
    have resumes : kernel.resume action.tid = some after := by
      have step := step.1
      rwa [eq_resume_of_not_user step inside] at step
    rcases removing_cases resumes late with ⟨deleteChildren, here, rfl⟩ |
      ⟨wstatus, rest, here, step⟩ |
      ⟨wstatus, rest, here, rfl⟩
    · exact kept_begin sound tidy here
    · exact kept_remove sound tidy here step
    · exact kept_free sound tidy here
  · rcases step_cases sound.wellFormed step.1 with effect | born
    · have same : after.pc owner = kernel.pc owner :=
        congrArg Thread.pc (effect.moves.others owner actor)
      rw [same] at late
      have list : after.listed owner = kernel.listed owner := by
        refine listed_congr sound (effect.moves.childrenOf_eq owner) ?_
        intro child isChild
        have count : after.freed.count child = kernel.freed.count child := by
          rcases (effect.pairs owner child isChild).freed_cases with same | ⟨tid, _⟩ | ⟨tid, here⟩
          · exact same
          · exact absurd tid.symm actor
          · have settled := settled_of_orderly step tid here isChild
            rw [not_settled_of_removing late] at settled
            cases settled
        rw [present, present, count, same]
      rw [list]
      refine Links.chain_kept (tidy.kept owner late) ?_
      exact fun elem member => effect.frame owner elem actor (owned_of_mem_listed sound member)
    · have old : owner ≠ kernel.nextTid := by
        rintro rfl
        rcases born.made with rfl | ⟨last, _, rfl⟩
        · rw [pc, spawn_self] at late
          cases late
        · rw [pc, adopt_self, spawn_self] at late
          cases late
      have same := born.pc_eq old
      rw [same] at late
      have list : after.listed owner = kernel.listed owner := by
        refine listed_congr sound (born.childrenOf_eq sound actor) ?_
        intro child _
        rw [present, present, born.freed_eq, same]
      rw [list]
      refine Links.chain_kept (tidy.kept owner late) ?_
      exact fun elem member => born.frame sound actor old (owned_of_mem_listed sound member)

theorem initial_tidy : Tidy initial where
  early parent child isChild := by
    rw [initial_isChild] at isChild
    cases isChild
  dead parent child isChild := by
    rw [initial_isChild] at isChild
    cases isChild
  kept owner late := by
    rcases initial_thread owner with absent | ⟨_, main⟩
    · rw [pc, absent] at late
      cases late
    · rw [pc, main] at late
      cases late

theorem tidy_run (run : Run OrderlyStep initial actions kernel) : Sound kernel ∧ Tidy kernel := by
  induction run with
  | nil => exact ⟨initial_sound, initial_tidy⟩
  | snoc _ last ih =>
    rcases ih with ⟨sound, tidy⟩
    exact ⟨sound.step last.1, tidy.early_step sound last, tidy.dead_step sound last,
      tidy.kept_step sound last⟩

/-! ## What a step touches -/

theorem mem_elemStatus (member : child ∈ Elem.status elem) : elem = .entry child := by
  cases elem with
  | head _ | tail _ => cases member
  | entry _ => rw [mem_singleton.mp member]

section

variable (sound : Sound kernel) (tidy : Tidy kernel)

include sound tidy

omit sound in
theorem unfreed_at_place {c : Elem} (early : whole (kernel.pc tid) = true)
    (place : kernel.AtPlace tid c) (member : wstatus ∈ Elem.status c) :
    kernel.freed.count wstatus = 0 := by
  rcases place with rfl | ⟨other, rfl, isChild⟩
  · cases member
  · cases mem_singleton.mp member
    exact tidy.early tid _ isChild early

/-- The neighbours of an element that is removed are in the list. -/
theorem unfreed_neighbour {rest : List Tid} (here : kernel.pc tid = .removeChild (wstatus :: rest))
    (member : child ∈ neighbours kernel.links (.entry wstatus)) : kernel.freed.count child = 0 := by
  have chain := tidy.kept tid (by rw [here]; rfl)
  rcases append_of_mem (listed_next sound here) with ⟨left, right, split⟩
  rcases elemsOf_split tid left right with ⟨init, before, behind, others, elems⟩
  have whole : elemsOf tid (kernel.listed tid) =
      init ++ before :: .entry wstatus :: behind :: others := by
    rw [split, append_cons]
    exact elems [wstatus]
  rw [whole] at chain
  rcases joined_around chain with ⟨prevLink, nextLink⟩
  have inList : Elem.entry child ∈ elemsOf tid (kernel.listed tid) := by
    rw [whole]
    rw [neighbours, prevLink, nextLink] at member
    rcases mem_append.mp member with prev | next
    · rw [mem_elemStatus prev]
      simp
    · rw [mem_elemStatus next]
      simp
  have listed : child ∈ kernel.listed tid := by
    simpa [elemsOf] using inList
  have present := ((mem_listed sound).mp listed).2
  rw [Kernel.present, Bool.and_eq_true, decide_eq_true_iff] at present
  exact present.1

/-- A process that is not gone has not lost the `wait_status` it shares with its
parent. -/
theorem unfreed_own (own : wstatus ∈ (kernel.threads tid).parentWaitStatus.toList)
    (alive : kernel.pc tid ≠ .dead) : kernel.freed.count wstatus = 0 := by
  rw [mem_toList] at own
  rcases sound.wellFormed.own tid wstatus own with ⟨rfl, _, hasParent⟩
  rcases ne_none_iff_exists'.mp hasParent with ⟨parent, isParent⟩
  have isChild : kernel.isChild parent wstatus = true :=
    isChild_iff.mpr ⟨isParent, by rw [mem_def.mp own]; simp⟩
  by_contra freed
  exact alive (tidy.dead parent wstatus isChild (Nat.pos_of_ne_zero freed))

theorem unfreed_of_resumeTouches (touched : wstatus ∈ kernel.resumeTouches tid) :
    kernel.freed.count wstatus = 0 := by
  have placed := sound.wellFormed.placed tid
  have early (isChild : kernel.isChild tid wstatus = true) (whole : whole (kernel.pc tid) = true) :=
    tidy.early tid wstatus isChild whole
  cases here : kernel.pc tid with
  | waitTest child c =>
    rw [here] at placed
    simp only [resumeTouches, here] at touched
    exact unfreed_at_place tidy (by rw [here]; rfl) placed.1 touched
  | waitDown child ws | waitRead child ws | waitClear child ws exitCode =>
    rw [here] at placed
    simp only [resumeTouches, here, mem_singleton] at touched
    rw [touched, placed.1]
    exact tidy.early tid child placed.2 (by rw [here]; rfl)
  | sizeChildren c =>
    rw [here] at placed
    simp only [resumeTouches, here] at touched
    exact unfreed_at_place tidy (by rw [here]; rfl) placed touched
  | lockChild ws deleteChildren | countChild ws deleteChildren | unlockChild ws deleteChildren
  | nextChild ws deleteChildren =>
    rw [here] at placed
    simp only [resumeTouches, here, mem_singleton] at touched
    exact early (touched ▸ placed.1) (by rw [here]; rfl)
  | removeChild deleteChildren =>
    rw [here] at placed
    cases deleteChildren with
    | nil =>
      simp only [resumeTouches, here] at touched
      cases touched
    | cons ws rest =>
      simp only [resumeTouches, here, mem_cons] at touched
      rcases touched with rfl | neighbour
      · exact sound.unfreed_of_owed (placed.children _ mem_cons_self).1
          (by rw [here]; simp [parentPhase_removeChild])
      · exact unfreed_neighbour sound tidy here neighbour
  | freeChild ws rest =>
    rw [here] at placed
    simp only [resumeTouches, here, mem_singleton] at touched
    rw [touched]
    exact sound.unfreed_of_owed (placed.children _ mem_cons_self).1
      (by rw [here]; simp [parentPhase_freeChild])
  | lockParent | countParent | unlockParent deallocateParent | freeParent | upParent =>
    simp only [resumeTouches, here] at touched
    exact unfreed_own sound tidy touched (by rw [here]; simp)
  | _ =>
    simp only [resumeTouches, here] at touched
    cases touched

theorem unfreed_of_touches {action : Action} (step : Step kernel action after)
    (touched : wstatus ∈ kernel.touches action) : kernel.freed.count wstatus = 0 := by
  cases action with
  | execute tid =>
    have user := (fromUser_eq_some step).1
    cases link : kernel.links.prev (.tail tid) with
    | none =>
      simp only [touches, link] at touched
      cases touched
    | some last =>
      simp only [touches, link, Option.elim] at touched
      have entry := mem_elemStatus touched
      have owned := last_owned sound.wellFormed link
      rw [entry] at owned
      exact tidy.early tid wstatus owned (by rw [user]; rfl)
  | executeWithoutStatus tid | wait tid child => cases touched
  | exit tid status | forceExit tid | exception tid =>
    exact unfreed_own sound tidy touched (by rw [(fromUser_eq_some step).1]; simp)
  | resume tid => exact unfreed_of_resumeTouches sound tidy touched

end

/-- In every run of orderly steps: each `wait_status` is freed at most once, and exactly
once when its two processes are gone; and no step reads or writes a `wait_status` that
has been freed, nor a link in it. -/
theorem wait_status_freed_once_unused (run : Run OrderlyStep initial actions kernel) :
    (∀ parent child, kernel.isChild parent child = true ->
      kernel.freed.count child <= 1 ∧
        (kernel.pc parent = .dead -> kernel.pc child = .dead -> kernel.freed.count child = 1)) ∧
    (∀ action after wstatus, Step kernel action after -> wstatus ∈ kernel.touches action ->
      wstatus ∉ kernel.freed) := by
  rcases tidy_run run with ⟨sound, tidy⟩
  constructor
  · exact fun parent child isChild =>
      ⟨sound.freed_le_one isChild, sound.freed_eq_one isChild⟩
  · intro action after wstatus step touched
    exact count_eq_zero.mp (unfreed_of_touches sound tidy step touched)

/-- A parent and its child exit one after the other. -/
def exitInTurn : List Action :=
  [.execute 0, .exit 1 0] ++ replicate 8 (.resume 1) ++ [.exit 0 0] ++
    replicate 12 (.resume 0)

theorem wait_status_freed_once_unused_exitInTurn :
    ∃ kernel, Run OrderlyStep initial exitInTurn kernel ∧
      kernel.isChild 0 1 = true ∧ kernel.pc 0 = .dead ∧ kernel.pc 1 = .dead ∧
      kernel.freed.count 1 = 1 := by
  have observed : (exitInTurn.foldlM (whenever orderly) initial).map
      (fun kernel => (kernel.isChild 0 1, kernel.pc 0, kernel.pc 1)) =
        some (true, .dead, .dead) := by
    decide +kernel
  rcases map_eq_some_iff.mp observed with ⟨kernel, done, same⟩
  simp only [Prod.mk.injEq] at same
  rcases same with ⟨isChild, parentDead, childDead⟩
  have run : Run OrderlyStep initial exitInTurn kernel := run_of_foldlM step_of_whenever done
  exact ⟨kernel, run, isChild, parentDead, childDead,
    ((wait_status_freed_once_unused run).1 0 1 isChild).2 parentDead childDead⟩

/-- The parent has counted itself out of the child's `wait_status` and is about to go on
to the next child when the child exits, and frees it. -/
def exitTogether : List Action :=
  [.execute 0, .exit 0 0] ++ replicate 7 (.resume 0) ++ [.exit 1 0] ++
    replicate 8 (.resume 1)

theorem wait_status_used_after_free :
    ∃ kernel after, Run Step initial exitTogether kernel ∧
      Step kernel (.resume 0) after ∧ kernel.pc 0 = .nextChild 1 [] ∧
      1 ∈ kernel.touches (.resume 0) ∧ 1 ∈ kernel.freed := by
  have observed : (exitTogether.foldlM next initial).map
      (fun kernel => ((kernel.next (.resume 0)).isSome, kernel.pc 0,
        kernel.touches (.resume 0), kernel.freed)) =
        some (true, .nextChild 1 [], [1], [1]) := by
    decide +kernel
  rcases map_eq_some_iff.mp observed with ⟨kernel, done, same⟩
  simp only [Prod.mk.injEq] at same
  rcases same with ⟨enabled, here, touches, freed⟩
  rcases isSome_iff_exists.mp enabled with ⟨after, step⟩
  refine ⟨kernel, after, run_of_foldlM id done, step, here, ?_, ?_⟩
  · rw [touches]
    exact mem_cons_self
  · rw [freed]
    exact mem_cons_self

end Kernel

end Pintos
end Codebank
