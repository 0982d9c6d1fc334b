import Codebank.Pintos.Process
import Mathlib.Data.List.Range

namespace Codebank
namespace Pintos

open Foundation List Function

/-!
# The lists of children

Thread identifiers grow, so the list of children of a thread is sorted by them, and
a walk along it has passed exactly the children with smaller identifiers.  The
links of a list stay among its own elements, whatever the order of the steps.
-/

namespace Kernel

/-! ## The family -/

/-- The children in the order in which they were made. -/
def childrenOf (kernel : Kernel) (owner : Tid) : List Tid :=
  (List.range kernel.nextTid).filter (kernel.isChild owner)

/-- The elements of the list of children, with its two ends. -/
def elemsOf (owner : Tid) (children : List Tid) : List Elem :=
  .head owner :: (children.map .entry ++ [.tail owner])

def Owned (kernel : Kernel) (owner : Tid) : Elem -> Prop
  | .head other => other = owner
  | .tail other => other = owner
  | .entry child => kernel.isChild owner child = true

/-- Whether a walk that is at an element has passed a child. -/
def passed : Elem -> Tid -> Bool
  | .head _, _ => false
  | .tail _, _ => true
  | .entry wstatus, child => decide (child < wstatus)

/-- A place in the loops over the children. -/
def AtPlace (kernel : Kernel) (owner : Tid) (c : Elem) : Prop :=
  c = .tail owner ∨ ∃ child, c = .entry child ∧ kernel.isChild owner child = true

/-- The children to delete are distinct and have been passed. -/
structure Deleting (kernel : Kernel) (owner : Tid) (done : Tid -> Bool)
    (deleteChildren : List Tid) : Prop where
  distinct : deleteChildren.Nodup
  children : ∀ child, child ∈ deleteChildren ->
    kernel.isChild owner child = true ∧ done child = true

/-- What the local variables of a thread refer to. -/
def Placed (kernel : Kernel) (tid : Tid) : Pc -> Prop
  | .waitTest child c =>
    kernel.AtPlace tid c ∧ (kernel.isChild tid child = true -> passed c child = false)
  | .waitDown child wstatus => wstatus = child ∧ kernel.isChild tid child = true
  | .waitRead child wstatus => wstatus = child ∧ kernel.isChild tid child = true
  | .waitClear child wstatus _ => wstatus = child ∧ kernel.isChild tid child = true
  | .sizeChildren c => kernel.AtPlace tid c
  | .eachChild c deleteChildren =>
    kernel.AtPlace tid c ∧ kernel.Deleting tid (passed c) deleteChildren
  | .lockChild wstatus deleteChildren => kernel.isChild tid wstatus = true ∧
      kernel.Deleting tid (fun child => decide (child < wstatus)) deleteChildren
  | .countChild wstatus deleteChildren => kernel.isChild tid wstatus = true ∧
      kernel.Deleting tid (fun child => decide (child < wstatus)) deleteChildren
  | .unlockChild wstatus deleteChildren => kernel.isChild tid wstatus = true ∧
      kernel.Deleting tid (fun child => decide (child <= wstatus)) deleteChildren
  | .nextChild wstatus deleteChildren => kernel.isChild tid wstatus = true ∧
      kernel.Deleting tid (fun child => decide (child <= wstatus)) deleteChildren
  | .removeChild deleteChildren => kernel.Deleting tid (fun _ => true) deleteChildren
  | .freeChild wstatus deleteChildren =>
    kernel.Deleting tid (fun _ => true) (wstatus :: deleteChildren)
  | .lockParent => (kernel.threads tid).parentWaitStatus = some tid
  | .countParent => (kernel.threads tid).parentWaitStatus = some tid
  | .unlockParent _ => (kernel.threads tid).parentWaitStatus = some tid
  | .freeParent => (kernel.threads tid).parentWaitStatus = some tid
  | .upParent => (kernel.threads tid).parentWaitStatus = some tid
  | _ => True

/-- The list of children is whole until the first of them is removed. -/
def whole : Pc -> Bool
  | .absent => false
  | .removeChild _ => false
  | .freeChild _ _ => false
  | .lockParent => false
  | .countParent => false
  | .unlockParent _ => false
  | .freeParent => false
  | .upParent => false
  | .dead => false
  | _ => true

/-- `process_exit` has released the resources of the thread itself. -/
def released : Pc -> Bool
  | .absent => false
  | .user => false
  | .waitTest _ _ => false
  | .waitDown _ _ => false
  | .waitRead _ _ => false
  | .waitClear _ _ _ => false
  | .release => false
  | _ => true

structure WellFormed (kernel : Kernel) : Prop where
  absent : ∀ tid, kernel.nextTid <= tid -> kernel.threads tid = Thread.absent
  older : ∀ tid parent, (kernel.threads tid).parent = some parent -> parent < tid
  own : ∀ tid wstatus, (kernel.threads tid).parentWaitStatus = some wstatus ->
    wstatus = tid ∧ (kernel.statuses tid).childTid = tid ∧ (kernel.threads tid).parent ≠ none
  nextOwned : ∀ elem other, kernel.links.next elem = some other ->
    ∃ owner, kernel.Owned owner elem ∧ kernel.Owned owner other
  prevOwned : ∀ elem other, kernel.links.prev elem = some other ->
    ∃ owner, kernel.Owned owner elem ∧ kernel.Owned owner other
  linked : ∀ owner, whole (kernel.pc owner) = true ->
    (elemsOf owner (kernel.childrenOf owner)).IsChain kernel.links.Joined
  placed : ∀ tid, kernel.Placed tid (kernel.pc tid)
  released : ∀ tid, released (kernel.pc tid) = true ->
    (kernel.threads tid).resources = false

variable {kernel after : Kernel} {tid owner child : Tid}

theorem isChild_iff : kernel.isChild owner child = true <->
    (kernel.threads child).parent = some owner ∧ (kernel.threads child).parentWaitStatus ≠ none :=
  decide_eq_true_iff

theorem childrenOf_sorted (kernel : Kernel) (owner : Tid) :
    (kernel.childrenOf owner).Pairwise (· < ·) :=
  pairwise_lt_range.filter _

theorem elemsOf_nodup {children : List Tid} (distinct : children.Nodup) :
    (elemsOf owner children).Nodup := by
  have entries : (children.map Elem.entry).Nodup :=
    distinct.map (fun first second same => Elem.entry.inj same)
  simp [elemsOf, nodup_append, entries]

theorem Owned.unique {elem : Elem} {other : Tid} (first : kernel.Owned owner elem)
    (second : kernel.Owned other elem) : owner = other := by
  cases elem with
  | head _ | tail _ => exact first.symm.trans second
  | entry child =>
    have one := (isChild_iff.mp first).1
    have two := (isChild_iff.mp second).1
    exact Option.some.inj (one.symm.trans two)

namespace WellFormed

variable (wellFormed : WellFormed kernel)

include wellFormed

theorem lt_nextTid (isChild : kernel.isChild owner child = true) : child < kernel.nextTid := by
  by_contra late
  have parent := (isChild_iff.mp isChild).1
  rw [wellFormed.absent child (Nat.le_of_not_lt late)] at parent
  cases parent

theorem lt_nextTid_of_present (present : kernel.pc tid ≠ .absent) : tid < kernel.nextTid := by
  by_contra late
  exact present (congrArg Thread.pc (wellFormed.absent tid (Nat.le_of_not_lt late)))

section

variable (isChild : kernel.isChild owner child = true)

include isChild

theorem owner_lt : owner < child :=
  wellFormed.older child owner (isChild_iff.mp isChild).1

theorem status_eq : (kernel.threads child).parentWaitStatus = some child := by
  rcases Option.ne_none_iff_exists'.mp (isChild_iff.mp isChild).2 with ⟨wstatus, has⟩
  rw [has, (wellFormed.own child wstatus has).1]

theorem childTid_eq : (kernel.statuses child).childTid = child :=
  (wellFormed.own child child (wellFormed.status_eq isChild)).2.1

end

theorem mem_childrenOf : child ∈ kernel.childrenOf owner <-> kernel.isChild owner child = true := by
  rw [childrenOf, mem_filter, mem_range]
  exact ⟨fun both => both.2, fun isChild => ⟨wellFormed.lt_nextTid isChild, isChild⟩⟩

theorem owned_of_mem {elem : Elem} (member : elem ∈ elemsOf owner (kernel.childrenOf owner)) :
    kernel.Owned owner elem := by
  rcases mem_cons.mp member with rfl | member
  · rfl
  · rcases mem_append.mp member with entry | last
    · rcases mem_map.mp entry with ⟨child, isChild, rfl⟩
      exact wellFormed.mem_childrenOf.mp isChild
    · cases mem_singleton.mp last
      rfl

/-- The first element of the list. -/
theorem next_head (early : whole (kernel.pc owner) = true) :
    ∃ c, kernel.links.next (.head owner) = some c ∧ kernel.AtPlace owner c ∧
      ∀ child, kernel.isChild owner child = true -> passed c child = false := by
  have chain := wellFormed.linked owner early
  have sorted := kernel.childrenOf_sorted owner
  cases children : kernel.childrenOf owner with
  | nil =>
    rw [children] at chain
    refine ⟨.tail owner, (isChain_cons_cons.mp chain).1.1, .inl rfl, ?_⟩
    intro child isChild
    have member := wellFormed.mem_childrenOf.mpr isChild
    rw [children] at member
    cases member
  | cons first rest =>
    rw [children] at chain sorted
    refine ⟨.entry first, (isChain_cons_cons.mp chain).1.1, .inr ⟨first, rfl, ?_⟩, ?_⟩
    · exact wellFormed.mem_childrenOf.mp (by rw [children]; exact mem_cons_self)
    · intro child isChild
      have member := wellFormed.mem_childrenOf.mpr isChild
      rw [children] at member
      refine decide_eq_false (Nat.not_lt.mpr ?_)
      rcases mem_cons.mp member with rfl | later
      · exact Nat.le_refl _
      · exact Nat.le_of_lt ((pairwise_cons.mp sorted).1 child later)

/-- The element behind a child: it leaves that child and the earlier ones behind. -/
theorem next_entry {wstatus : Tid} (early : whole (kernel.pc owner) = true)
    (isChild : kernel.isChild owner wstatus = true) :
    ∃ c, kernel.links.next (.entry wstatus) = some c ∧ kernel.AtPlace owner c ∧
      ∀ child, kernel.isChild owner child = true -> passed c child = decide (child <= wstatus) := by
  have chain := wellFormed.linked owner early
  have sorted := kernel.childrenOf_sorted owner
  rcases append_of_mem (wellFormed.mem_childrenOf.mpr isChild) with ⟨left, right, children⟩
  have inside : ∀ child, kernel.isChild owner child = true ->
      child ∈ left ∨ child = wstatus ∨ child ∈ right := by
    intro child isChild
    have member := wellFormed.mem_childrenOf.mpr isChild
    rw [children] at member
    simpa using member
  rw [children] at chain sorted
  rcases pairwise_append.mp sorted with ⟨_, sortedRight, before⟩
  have split : elemsOf owner (left ++ wstatus :: right) =
      (.head owner :: left.map .entry) ++
        .entry wstatus :: (right.map .entry ++ [.tail owner]) := by
    simp [elemsOf]
  rw [split] at chain
  cases right with
  | nil =>
    refine ⟨.tail owner, (Links.joined_of_chain chain).1, .inl rfl, ?_⟩
    intro child isChild
    refine (decide_eq_true ?_).symm
    rcases inside child isChild with inLeft | rfl | inRight
    · exact Nat.le_of_lt (before child inLeft wstatus mem_cons_self)
    · exact Nat.le_refl _
    · cases inRight
  | cons next rest =>
    have later := (pairwise_cons.mp sortedRight).1
    refine ⟨.entry next, (Links.joined_of_chain chain).1, .inr ⟨next, rfl, ?_⟩, ?_⟩
    · exact wellFormed.mem_childrenOf.mp (by rw [children]; simp)
    · intro child isChild
      change decide (child < next) = decide (child <= wstatus)
      rw [decide_eq_decide]
      have here : wstatus < next := later next mem_cons_self
      rcases inside child isChild with inLeft | rfl | inRight
      · have earlier := before child inLeft wstatus mem_cons_self
        exact iff_of_true (Nat.lt_trans earlier here) (Nat.le_of_lt earlier)
      · exact iff_of_true here (Nat.le_refl _)
      · refine iff_of_false (Nat.not_lt.mpr ?_) (Nat.not_le.mpr (later child inRight))
        rcases mem_cons.mp inRight with rfl | inRest
        · exact Nat.le_refl _
        · exact Nat.le_of_lt ((pairwise_cons.mp (pairwise_cons.mp sortedRight).2).1
            child inRest)

end WellFormed

/-! ## What the places of a thread depend on -/

section

variable (family : after.isChild owner = kernel.isChild owner)

include family

theorem atPlace_congr {c : Elem} : after.AtPlace owner c <-> kernel.AtPlace owner c := by
  rw [AtPlace, AtPlace, family]

theorem deleting_congr {done : Tid -> Bool} {deleteChildren : List Tid} :
    after.Deleting owner done deleteChildren <-> kernel.Deleting owner done deleteChildren := by
  constructor
  · exact fun deleting => ⟨deleting.distinct, family ▸ deleting.children⟩
  · exact fun deleting => ⟨deleting.distinct, family.symm ▸ deleting.children⟩

theorem placed_congr (status : (after.threads owner).parentWaitStatus =
    (kernel.threads owner).parentWaitStatus) (pc : Pc) :
    after.Placed owner pc <-> kernel.Placed owner pc := by
  cases pc <;>
    simp only [Placed, family, atPlace_congr family, deleting_congr family, status]

end

/-! ## Steps of one thread -/

/-- One thread takes a step that leaves the family as it is. -/
structure Moves (kernel : Kernel) (tid : Tid) (after : Kernel) : Prop where
  others : ∀ other, other ≠ tid -> after.threads other = kernel.threads other
  parent : (after.threads tid).parent = (kernel.threads tid).parent
  status : (after.threads tid).parentWaitStatus = (kernel.threads tid).parentWaitStatus
  childTid : ∀ child, (after.statuses child).childTid = (kernel.statuses child).childTid
  nextTid : after.nextTid = kernel.nextTid

theorem moves_setThread {thread : Thread} (parent : thread.parent = (kernel.threads tid).parent)
    (status : thread.parentWaitStatus = (kernel.threads tid).parentWaitStatus) :
    Moves kernel tid (kernel.setThread tid thread) where
  others _ different := update_of_ne different _ _
  parent := (congrArg Thread.parent (update_self _ _ _)).trans parent
  status := (congrArg Thread.parentWaitStatus (update_self _ _ _)).trans status
  childTid _ := rfl
  nextTid := rfl

theorem moves_goto (pc : Pc) : Moves kernel tid (kernel.goto tid pc) :=
  moves_setThread rfl rfl

theorem Moves.of_setStatus {wstatus : Tid} {status : WaitStatus}
    (moves : Moves (kernel.setStatus wstatus status) tid after)
    (named : status.childTid = (kernel.statuses wstatus).childTid) : Moves kernel tid after where
  others := moves.others
  parent := moves.parent
  status := moves.status
  childTid child := by
    refine (moves.childTid child).trans ?_
    by_cases same : child = wstatus
    · subst same
      exact (congrArg WaitStatus.childTid (update_self _ _ _)).trans named
    · exact congrArg WaitStatus.childTid (update_of_ne same _ _)
  nextTid := moves.nextTid

namespace Moves

variable (moves : Moves kernel tid after)

include moves

theorem parent_eq (other : Tid) : (after.threads other).parent = (kernel.threads other).parent := by
  by_cases same : other = tid
  · rw [same, moves.parent]
  · rw [moves.others other same]

theorem status_eq (other : Tid) :
    (after.threads other).parentWaitStatus = (kernel.threads other).parentWaitStatus := by
  by_cases same : other = tid
  · rw [same, moves.status]
  · rw [moves.others other same]

theorem isChild_eq : after.isChild = kernel.isChild := by
  funext owner child
  rw [isChild, isChild, moves.parent_eq, moves.status_eq]

theorem childrenOf_eq (owner : Tid) : after.childrenOf owner = kernel.childrenOf owner := by
  rw [childrenOf, childrenOf, moves.nextTid, moves.isChild_eq]

theorem owned_iff {elem : Elem} : after.Owned owner elem <-> kernel.Owned owner elem := by
  cases elem with
  | head _ | tail _ => exact Iff.rfl
  | entry child => rw [Owned, Owned, moves.isChild_eq]

theorem placed_iff (other : Tid) (pc : Pc) : after.Placed other pc <-> kernel.Placed other pc :=
  placed_congr (congrFun moves.isChild_eq other) (moves.status_eq other) pc

end Moves

/-- A step that does not change the links keeps everything well formed when the
thread arrives at a good place. -/
theorem WellFormed.moves (wellFormed : WellFormed kernel) (moves : Moves kernel tid after)
    (links : after.links = kernel.links) (present : kernel.pc tid ≠ .absent)
    (placed : kernel.Placed tid (after.pc tid))
    (early : whole (after.pc tid) = true -> whole (kernel.pc tid) = true)
    (gone : Kernel.released (after.pc tid) = true -> (after.threads tid).resources = false) :
    WellFormed after where
  absent other late := by
    rw [moves.nextTid] at late
    have absent := wellFormed.absent other late
    rw [moves.others other, absent]
    rintro rfl
    exact present (congrArg Thread.pc absent)
  older other parent := by
    rw [moves.parent_eq]
    exact wellFormed.older other parent
  own other wstatus := by
    rw [moves.parent_eq, moves.status_eq, moves.childTid]
    exact wellFormed.own other wstatus
  nextOwned elem other := by
    rw [links]
    simp only [moves.owned_iff]
    exact wellFormed.nextOwned elem other
  prevOwned elem other := by
    rw [links]
    simp only [moves.owned_iff]
    exact wellFormed.prevOwned elem other
  linked owner wholeAfter := by
    rw [moves.childrenOf_eq, links]
    refine wellFormed.linked owner ?_
    by_cases same : owner = tid
    · subst same
      exact early wholeAfter
    · rwa [pc, moves.others owner same] at wholeAfter
  placed other := by
    rw [moves.placed_iff]
    by_cases same : other = tid
    · subst same
      exact placed
    · rw [pc, moves.others other same]
      exact wellFormed.placed other
  released other := by
    by_cases same : other = tid
    · subst same
      exact gone
    · rw [pc, moves.others other same]
      exact wellFormed.released other

end Kernel

end Pintos
end Codebank
