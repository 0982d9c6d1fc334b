import Codebank.Foundation.Links
import Codebank.SharksAndFish.Ocean

namespace Codebank
namespace SharksAndFish

open Ocean Foundation Function Option List

/-!
# The list of runs

A circular doubly linked list of nodes with a sentinel.  Nodes are objects with
an identity, so the model keeps them in a store and passes references; a missing
link is the null reference, and following it fails.
-/

abbrev Ref := Nat

/-- A node with its run: type, length and hunger. -/
structure DListNode where
  item : List Int
  next : Option Ref
  prev : Option Ref

namespace DListNode

/-- The constructor with three parameters; without an item it fills in the sentinel's. -/
def new (item : Option (List Int)) (prev next : Option Ref) : DListNode where
  item := item.getD [NULL_TYPE, NULL_LENGTH, NULL_HUNGER]
  next := next
  prev := prev

/-- The setters write into the array of the item. -/
def setEntry (node : DListNode) (index : Nat) (value : Int) : DListNode :=
  if index + 1 <= node.item.length then
    { node with item := node.item.set index value }
  else
    node

def setType (node : DListNode) (newType : Int) : DListNode :=
  node.setEntry 0 newType

def setRunLength (node : DListNode) (newLength : Int) : DListNode :=
  node.setEntry 1 newLength

def setHunger (node : DListNode) (newHunger : Int) : DListNode :=
  node.setEntry 2 newHunger

def getRunType (node : DListNode) : Int :=
  if 1 <= node.item.length then node.item.getD 0 0 else NULL_TYPE

def getRunLength (node : DListNode) : Int :=
  if 2 <= node.item.length then node.item.getD 1 0 else NULL_LENGTH

/-- Here the length that is checked is not the one that the access needs: an item
of one or two entries makes the access fail. -/
def getRunHunger (node : DListNode) : Option Int :=
  if 1 <= node.item.length then node.item[2]? else some NULL_HUNGER

end DListNode

/-- A list, with the heap of its nodes. -/
structure DList where
  nodes : Ref -> DListNode
  /-- The next unused reference. -/
  fresh : Ref
  size : Int
  sentinel : Ref
  runTracker : Option Ref
  numRunsReturned : Int

namespace DList

variable {list : DList} {entries : List Entry}

/-- An empty list, whose sentinel is its own neighbour. -/
def new : DList where
  nodes _ := DListNode.new none (some 0) (some 0)
  fresh := 1
  size := 0
  sentinel := 0
  runTracker := some 0
  numRunsReturned := 0

/-- A node is written. -/
def change (list : DList) (ref : Ref) (update : DListNode -> DListNode) : DList :=
  { list with nodes := Function.update list.nodes ref (update (list.nodes ref)) }

def setNext (list : DList) (ref target : Ref) : DList :=
  list.change ref fun node => { node with next := some target }

def setPrev (list : DList) (ref target : Ref) : DList :=
  list.change ref fun node => { node with prev := some target }

/-- Both links of a removed node are set to null. -/
def unlink (list : DList) (ref : Ref) : DList :=
  list.change ref fun node => { node with next := none, prev := none }

def resize (list : DList) (size : Int) : DList :=
  { list with size := size }

/-- The expression `new DListNode(item)`. -/
def allocate (list : DList) (item : List Int) : DList × Ref :=
  ({ list with
      nodes := Function.update list.nodes list.fresh (DListNode.new (some item) none none)
      fresh := list.fresh + 1 }, list.fresh)

def getPrev (list : DList) (ref : Ref) : Option Ref :=
  (list.nodes ref).prev

def getNext (list : DList) (ref : Ref) : Option Ref :=
  (list.nodes ref).next

def getFirst (list : DList) : Option Ref :=
  list.getNext list.sentinel

/-- Inserts a node; a null neighbour makes it throw. -/
def addBefore (list : DList) (currNode newNode : Ref) : Option DList := do
  let prevNode <- list.getPrev currNode
  let list := list.setNext newNode currNode
  let list := list.setPrev newNode prevNode
  let list := list.setNext prevNode newNode
  let list := list.setPrev currNode newNode
  some (list.resize (list.size + 1))

def addAfter (list : DList) (currNode newNode : Ref) : Option DList := do
  let nextNode <- list.getNext currNode
  let list := list.setNext newNode nextNode
  let list := list.setPrev newNode currNode
  let list := list.setPrev nextNode newNode
  let list := list.setNext currNode newNode
  some (list.resize (list.size + 1))

def addLast (list : DList) (newLastNode : Ref) : Option DList := do
  let currLastNode <- list.getPrev list.sentinel
  let list := list.setNext newLastNode list.sentinel
  let list := list.setPrev newLastNode currLastNode
  let list := list.setNext currLastNode newLastNode
  let list := list.setPrev list.sentinel newLastNode
  some (list.resize (list.size + 1))

def removeHead (list : DList) : Option DList := do
  let remNode <- list.getNext list.sentinel
  let newHead <- list.getNext remNode
  let list := list.setNext list.sentinel newHead
  let list := list.setPrev newHead list.sentinel
  let list := list.unlink remNode
  some (list.resize (list.size - 1))

def removeTail (list : DList) : Option DList := do
  let remNode <- list.getPrev list.sentinel
  let newTail <- list.getPrev remNode
  let list := list.setPrev list.sentinel newTail
  let list := list.setNext newTail list.sentinel
  let list := list.unlink remNode
  some (list.resize (list.size - 1))

/-- Unlinks a node, as the head, the tail or inside. -/
def removeNode (list : DList) (ref : Ref) : Option DList :=
  if some ref = list.getNext list.sentinel then
    list.removeHead
  else if some ref = list.getPrev list.sentinel then
    list.removeTail
  else do
    let prevNode <- list.getPrev ref
    let nextNode <- list.getNext ref
    let list := list.setNext prevNode nextNode
    let list := list.setPrev nextNode prevNode
    let list := list.unlink ref
    some (list.resize (list.size - 1))

/-- Only the node that is tracked must exist; the next one may be null. -/
def incrementTracker (list : DList) : Option DList := do
  let tracked <- list.runTracker
  some { list with
    runTracker := list.getNext tracked
    numRunsReturned := list.numRunsReturned + 1 }

/-- The enumeration starts at the sentinel and steps over it once. -/
def trackedRun (list : DList) : Option Ref :=
  if list.runTracker = some list.sentinel then list.getNext list.sentinel else list.runTracker

/-- The tracked node; the tracker moves on. -/
def trackerValue (list : DList) : Option (Ref × DList) := do
  let tracked <- list.trackedRun
  let after <- { list with runTracker := some tracked }.incrementTracker
  some (tracked, after)

def resetTracker (list : DList) : DList :=
  { list with runTracker := some list.sentinel, numRunsReturned := 0 }

def isNextRun (list : DList) : Bool :=
  list.numRunsReturned < list.size

/-! ## The links of the list -/

def links (list : DList) : Links Ref where
  next ref := (list.nodes ref).next
  prev ref := (list.nodes ref).prev

def item (list : DList) (ref : Ref) : List Int :=
  (list.nodes ref).item

@[simp] theorem links_setNext (list : DList) (ref target : Ref) :
    (list.setNext ref target).links =
      ⟨Function.update list.links.next ref (some target), list.links.prev⟩ := by
  apply congrArg₂ Links.mk <;> funext other <;> by_cases same : other = ref <;>
    simp [setNext, change, links, same]

@[simp] theorem links_setPrev (list : DList) (ref target : Ref) :
    (list.setPrev ref target).links =
      ⟨list.links.next, Function.update list.links.prev ref (some target)⟩ := by
  apply congrArg₂ Links.mk <;> funext other <;> by_cases same : other = ref <;>
    simp [setPrev, change, links, same]

@[simp] theorem links_unlink (list : DList) (ref : Ref) :
    (list.unlink ref).links =
      ⟨Function.update list.links.next ref none, Function.update list.links.prev ref none⟩ := by
  apply congrArg₂ Links.mk <;> funext other <;> by_cases same : other = ref <;>
    simp [unlink, change, links, same]

@[simp] theorem links_resize (list : DList) (size : Int) : (list.resize size).links = list.links :=
  rfl

/-- Everything but the links and the size is as before. -/
structure Relinked (list after : DList) : Prop where
  item : after.item = list.item
  fresh : after.fresh = list.fresh
  sentinel : after.sentinel = list.sentinel

theorem relinked_change (list : DList) (ref : Ref) {update : DListNode -> DListNode}
    (kept : ∀ node, (update node).item = node.item) : Relinked list (list.change ref update) := by
  refine ⟨?_, rfl, rfl⟩
  funext other
  by_cases same : other = ref
  · cases same
    simp [item, change, kept]
  · simp [item, change, same]

theorem Relinked.trans {middle after : DList} (first : Relinked list middle)
    (second : Relinked middle after) : Relinked list after :=
  ⟨second.item.trans first.item, second.fresh.trans first.fresh,
    second.sentinel.trans first.sentinel⟩

theorem relinked_setNext (list : DList) (ref target : Ref) :
    Relinked list (list.setNext ref target) :=
  relinked_change list ref fun _ => rfl

theorem relinked_setPrev (list : DList) (ref target : Ref) :
    Relinked list (list.setPrev ref target) :=
  relinked_change list ref fun _ => rfl

theorem relinked_unlink (list : DList) (ref : Ref) : Relinked list (list.unlink ref) :=
  relinked_change list ref fun _ => rfl

theorem relinked_resize (list : DList) (size : Int) : Relinked list (list.resize size) :=
  ⟨rfl, rfl, rfl⟩

/-- The effect of the three methods that put a node between two neighbours. -/
structure Inserted (list : DList) (before new after : Ref) (result : DList) : Prop where
  links : result.links = list.links.insertBetween before new after
  size : result.size = list.size + 1
  relinked : Relinked list result

/-- The effect of the three ways to take a node out. -/
structure Removed (list : DList) (before removed after : Ref) (result : DList) : Prop where
  links : result.links = list.links.bypass before removed after
  size : result.size = list.size - 1
  relinked : Relinked list result

/-- The calls of the source link the node in between. -/
theorem addBefore_inserted {currNode prevNode : Ref} (newNode : Ref)
    (known : list.getPrev currNode = some prevNode) :
    ∃ result, list.addBefore currNode newNode = some result ∧
      Inserted list prevNode newNode currNode result := by
  refine ⟨_, by rw [addBefore, known]; rfl, ?_, rfl, ?_⟩
  · simp only [links_resize, links_setPrev, links_setNext]
    apply congrArg₂ Links.mk <;> funext other <;> simp only [update_apply]
  · exact (((relinked_setNext _ _ _).trans (relinked_setPrev _ _ _)).trans
      (relinked_setNext _ _ _)).trans ((relinked_setPrev _ _ _).trans (relinked_resize _ _))

theorem addAfter_inserted {currNode nextNode : Ref} (newNode : Ref)
    (known : list.getNext currNode = some nextNode) :
    ∃ result, list.addAfter currNode newNode = some result ∧
      Inserted list currNode newNode nextNode result := by
  refine ⟨_, by rw [addAfter, known]; rfl, ?_, rfl, ?_⟩
  · simp only [links_resize, links_setPrev, links_setNext]
    apply congrArg₂ Links.mk <;> funext other <;> simp only [update_apply]
  · exact (((relinked_setNext _ _ _).trans (relinked_setPrev _ _ _)).trans
      (relinked_setPrev _ _ _)).trans ((relinked_setNext _ _ _).trans (relinked_resize _ _))

theorem addLast_eq (list : DList) (newLastNode : Ref) :
    list.addLast newLastNode = list.addBefore list.sentinel newLastNode :=
  rfl

/-- Wherever the node is, it is linked out. -/
theorem removeNode_removed {ref prevNode nextNode : Ref} (behind : list.getPrev ref = some prevNode)
    (ahead : list.getNext ref = some nextNode)
    (first : list.getNext list.sentinel = some ref -> prevNode = list.sentinel)
    (last : list.getPrev list.sentinel = some ref -> nextNode = list.sentinel) :
    ∃ result, list.removeNode ref = some result ∧
      Removed list prevNode ref nextNode result := by
  rw [removeNode]
  split_ifs with isFirst isLast
  · cases first isFirst.symm
    refine ⟨_, by rw [removeHead, <- isFirst, bind_eq_bind, bind_some, ahead]; rfl,
      ?_, rfl, ?_⟩
    · simp only [links_resize, links_setPrev, links_setNext, links_unlink]
      apply congrArg₂ Links.mk <;> funext other <;> simp only [update_apply]
      rfl
    · exact ((relinked_setNext _ _ _).trans (relinked_setPrev _ _ _)).trans
        ((relinked_unlink _ _).trans (relinked_resize _ _))
  · cases last isLast.symm
    refine ⟨_, by rw [removeTail, <- isLast, bind_eq_bind, bind_some, behind]; rfl,
      ?_, rfl, ?_⟩
    · simp only [links_resize, links_setPrev, links_setNext, links_unlink]
      apply congrArg₂ Links.mk <;> funext other <;> simp only [update_apply]
      rfl
    · exact ((relinked_setPrev _ _ _).trans (relinked_setNext _ _ _)).trans
        ((relinked_unlink _ _).trans (relinked_resize _ _))
  · refine ⟨_, by rw [behind, ahead]; rfl, ?_, rfl, ?_⟩
    · simp only [links_resize, links_setPrev, links_setNext, links_unlink]
      apply congrArg₂ Links.mk <;> funext other <;> simp only [update_apply]
    · exact ((relinked_setNext _ _ _).trans (relinked_setPrev _ _ _)).trans
        ((relinked_unlink _ _).trans (relinked_resize _ _))

/-! ## What a list holds -/

/-- The nodes of a list in order, each with its item. -/
abbrev Entry := Ref × List Int

def nullItem : List Int := [NULL_TYPE, NULL_LENGTH, NULL_HUNGER]

/-- The list is a ring of these nodes and items. -/
structure Holds (list : DList) (entries : List Entry) : Prop where
  ring : list.links.Ring list.sentinel (entries.map Prod.fst)
  items : ∀ entry, entry ∈ entries -> list.item entry.1 = entry.2
  sentinelItem : list.item list.sentinel = nullItem
  allocated : ∀ ref, ref ∈ list.sentinel :: entries.map Prod.fst -> ref < list.fresh
  size : list.size = entries.length

/-- A node that has been created and is not in the list. -/
structure Spare (list : DList) (entries : List Entry) (entry : Entry) : Prop where
  outside : entry.1 ∉ list.sentinel :: entries.map Prod.fst
  item : list.item entry.1 = entry.2
  allocated : entry.1 < list.fresh

theorem holds_new : Holds new [] where
  ring := ⟨isChain_cons_cons.mpr ⟨⟨rfl, rfl⟩, List.IsChain.singleton 0⟩,
    nodup_singleton 0⟩
  items _ member := absurd member not_mem_nil
  sentinelItem := rfl
  allocated _ member := mem_singleton.mp member ▸ Nat.zero_lt_one
  size := rfl

theorem item_allocate {ref : Ref} (item : List Int) (old : ref < list.fresh) :
    (list.allocate item).1.item ref = list.item ref := by
  simp only [allocate, DList.item, update_of_ne (Nat.ne_of_lt old)]

theorem Holds.allocate (holds : Holds list entries) (item : List Int) :
    Holds (list.allocate item).1 entries where
  ring := by
    refine holds.ring.frame fun ref member => ?_
    have old : ref ≠ list.fresh := Nat.ne_of_lt (holds.allocated ref member)
    simp only [DList.allocate, links, update_of_ne old, and_self]
  items entry member := by
    rw [item_allocate item (holds.allocated _
      (mem_cons_of_mem _ (List.mem_map_of_mem member)))]
    exact holds.items entry member
  sentinelItem := (item_allocate item (holds.allocated _ mem_cons_self)).trans
    holds.sentinelItem
  allocated ref member := Nat.lt_succ_of_lt (holds.allocated ref member)
  size := holds.size

theorem Holds.spare_allocate (holds : Holds list entries) (item : List Int) :
    Spare (list.allocate item).1 entries (list.fresh, item) where
  outside member := Nat.lt_irrefl _ (holds.allocated _ member)
  item := by simp only [DList.allocate, DList.item, update_self]; rfl
  allocated := Nat.lt_succ_self _

theorem Spare.allocate {entry : Entry} (spare : Spare list entries entry) (item : List Int) :
    Spare (list.allocate item).1 entries entry where
  outside := spare.outside
  item := (item_allocate item spare.allocated).trans spare.item
  allocated := Nat.lt_succ_of_lt spare.allocated

/-! ## Neighbours -/

def lastRef (list : DList) (entries : List Entry) : Ref :=
  (entries.map Prod.fst).getLastD list.sentinel

def firstRef (list : DList) (entries : List Entry) : Ref :=
  (entries.map Prod.fst).headD list.sentinel

section

variable {list : DList} {left right entries : List Entry} {ref : Ref} {content : List Int}

theorem Holds.split (holds : Holds list (left ++ right)) :
    list.links.Ring list.sentinel (left.map Prod.fst ++ right.map Prod.fst) := by
  rw [<- map_append]
  exact holds.ring

theorem Holds.getPrev_eq (holds : Holds list (left ++ (ref, content) :: right)) :
    list.getPrev ref = some (list.lastRef left) :=
  holds.split.prev_eq

theorem Holds.getNext_eq (holds : Holds list (left ++ (ref, content) :: right)) :
    list.getNext ref = some (list.firstRef right) :=
  holds.split.next_eq

theorem Holds.getFirst_eq (holds : Holds list entries) :
    list.getFirst = some (list.firstRef entries) :=
  holds.ring.first_eq

theorem Holds.item_eq (holds : Holds list (left ++ (ref, content) :: right)) :
    list.item ref = content :=
  holds.items (ref, content) (mem_append_right left mem_cons_self)

theorem Holds.item_lastRef (holds : Holds list (left ++ right)) :
    list.item (list.lastRef left) = (left.map Prod.snd).getLastD nullItem := by
  rcases eq_nil_or_concat left with rfl | ⟨front, last, rfl⟩
  · exact holds.sentinelItem
  · rw [concat_eq_append] at holds ⊢
    simp only [lastRef, map_append, map_cons, map_nil, getLastD_concat]
    exact holds.items last (mem_append_left right
      (mem_append_right front mem_cons_self))

theorem Holds.item_firstRef (holds : Holds list (left ++ right)) :
    list.item (list.firstRef right) = (right.map Prod.snd).headD nullItem := by
  cases right with
  | nil => exact holds.sentinelItem
  | cons first rest => exact holds.items first (mem_append_right left mem_cons_self)

end

/-! ## The methods on what a list holds -/

section

variable {list result : DList} {left right : List Entry} {entry : Entry} {ref : Ref}
  {content : List Int}

theorem Holds.inserted (holds : Holds list (left ++ right))
    (spare : Spare list (left ++ right) entry)
    (inserted : Inserted list (list.lastRef left) entry.1 (list.firstRef right) result) :
    Holds result (left ++ entry :: right) where
  ring := by
    have outside := spare.outside
    rw [map_append] at outside
    rw [inserted.links, inserted.relinked.sentinel, map_append, map_cons]
    exact holds.split.insert outside
  items other member := by
    rw [inserted.relinked.item]
    rcases mem_append.mp member with inLeft | inRight
    · exact holds.items other (mem_append_left right inLeft)
    · rcases mem_cons.mp inRight with rfl | inRight
      · exact spare.item
      · exact holds.items other (mem_append_right left inRight)
  sentinelItem := by
    rw [inserted.relinked.item, inserted.relinked.sentinel]
    exact holds.sentinelItem
  allocated other member := by
    rw [inserted.relinked.fresh]
    rw [inserted.relinked.sentinel, map_append, map_cons, <- cons_append] at member
    rcases perm_middle.mem_iff.mp member |> mem_cons.mp with rfl | known
    · exact spare.allocated
    · exact holds.allocated other (by rwa [map_append, <- cons_append])
  size := by
    rw [inserted.size, holds.size]
    simp only [length_append, length_cons]
    omega

theorem Holds.addBefore (holds : Holds list (left ++ (ref, content) :: right))
    (spare : Spare list (left ++ (ref, content) :: right) entry) :
    ∃ result, list.addBefore ref entry.1 = some result ∧ Relinked list result ∧
      Holds result (left ++ entry :: (ref, content) :: right) := by
  rcases addBefore_inserted entry.1 holds.getPrev_eq with ⟨result, added, inserted⟩
  exact ⟨result, added, inserted.relinked, holds.inserted spare inserted⟩

theorem Holds.addAfter (holds : Holds list (left ++ (ref, content) :: right))
    (spare : Spare list (left ++ (ref, content) :: right) entry) :
    ∃ result, list.addAfter ref entry.1 = some result ∧ Relinked list result ∧
      Holds result (left ++ (ref, content) :: entry :: right) := by
  rcases addAfter_inserted entry.1 holds.getNext_eq with ⟨result, added, inserted⟩
  rw [append_cons] at holds spare
  have last : list.lastRef (left ++ [(ref, content)]) = ref := by
    rw [lastRef, map_append]
    exact getLastD_concat
  rw [<- last] at inserted
  have after := holds.inserted spare inserted
  rw [<- append_cons] at after
  exact ⟨result, added, inserted.relinked, after⟩

/-- A spare node becomes the last one. -/
theorem Holds.addLast {entries : List Entry} (holds : Holds list entries)
    (spare : Spare list entries entry) :
    ∃ result, list.addLast entry.1 = some result ∧ Relinked list result ∧
      Holds result (entries ++ [entry]) := by
  rw [addLast_eq]
  rcases addBefore_inserted entry.1 holds.ring.last_eq with ⟨result, added, inserted⟩
  rw [<- append_nil entries] at holds spare
  exact ⟨result, added, inserted.relinked, holds.inserted spare inserted⟩

theorem Holds.removed (holds : Holds list (left ++ (ref, content) :: right))
    (removed : Removed list (list.lastRef left) ref (list.firstRef right) result) :
    Holds result (left ++ right) where
  ring := by
    rw [removed.links, removed.relinked.sentinel, map_append]
    exact holds.split.remove
  items other member := by
    rw [removed.relinked.item]
    refine holds.items other ?_
    exact mem_append.mpr ((mem_append.mp member).imp_right (mem_cons_of_mem _))
  sentinelItem := by
    rw [removed.relinked.item, removed.relinked.sentinel]
    exact holds.sentinelItem
  allocated other member := by
    rw [removed.relinked.fresh]
    rw [removed.relinked.sentinel] at member
    refine holds.allocated other (List.Sublist.subset ?_ member)
    exact ((sublist_cons_self _ _).append_left left).map Prod.fst |>.cons_cons _
  size := by
    rw [removed.size, holds.size]
    simp only [length_append, length_cons]
    omega

/-- The other nodes stay as they were. -/
theorem Holds.removeNode (holds : Holds list (left ++ (ref, content) :: right)) :
    ∃ result, list.removeNode ref = some result ∧ Relinked list result ∧
      Holds result (left ++ right) := by
  have first : list.getNext list.sentinel = some ref -> list.lastRef left = list.sentinel := by
    intro here
    rw [lastRef, holds.split.left_eq_nil here]
    rfl
  have last : list.getPrev list.sentinel = some ref -> list.firstRef right = list.sentinel := by
    intro here
    rw [firstRef, holds.split.right_eq_nil here]
    rfl
  rcases removeNode_removed holds.getPrev_eq holds.getNext_eq first last with
    ⟨result, gone, removed⟩
  exact ⟨result, gone, removed.relinked, holds.removed removed⟩

theorem Holds.fst_ne (holds : Holds list (left ++ (ref, content) :: right))
    (member : entry ∈ left ++ right) : entry.1 ≠ ref := by
  have distinct := (nodup_cons.mp holds.split.distinct).2
  rw [map_cons, nodup_middle, nodup_cons, <- map_append] at distinct
  intro same
  have listed : entry.1 ∈ (left ++ right).map Prod.fst := List.mem_map_of_mem member
  rw [same] at listed
  exact distinct.1 listed

/-- The item of a node is overwritten. -/
theorem Holds.change (holds : Holds list (left ++ (ref, content) :: right))
    {update : DListNode -> DListNode} {changed : List Int}
    (next : ∀ node, (update node).next = node.next)
    (prev : ∀ node, (update node).prev = node.prev)
    (item : ∀ node, node.item = content -> (update node).item = changed) :
    Holds (list.change ref update) (left ++ (ref, changed) :: right) := by
  have sameRefs : (left ++ (ref, changed) :: right).map Prod.fst =
      (left ++ (ref, content) :: right).map Prod.fst := by
    simp only [map_append, map_cons]
  have sameLinks : (list.change ref update).links = list.links := by
    apply congrArg₂ Links.mk <;> funext other <;> by_cases same : other = ref <;>
      simp [DList.change, same, next, prev]
  have elsewhere : ∀ other, other ≠ ref ->
      (list.change ref update).item other = list.item other := by
    intro other different
    simp only [DList.change, DList.item, update_of_ne different]
  have here : (list.change ref update).item ref = changed := by
    simp only [DList.change, DList.item, update_self]
    exact item _ holds.item_eq
  have apart : (list.change ref update).sentinel ≠ ref :=
    (holds.split.ne_sentinel (mem_append_right _ mem_cons_self)).symm
  refine ⟨?_, ?_, (elsewhere _ apart).trans holds.sentinelItem, ?_, ?_⟩
  · rw [sameLinks, sameRefs]
    exact holds.ring
  · intro other member
    rcases perm_middle.mem_iff.mp member |> mem_cons.mp with rfl | known
    · exact here
    · rw [elsewhere other.1 (holds.fst_ne known)]
      exact holds.items other (perm_middle.mem_iff.mpr (mem_cons_of_mem _ known))
  · rw [sameRefs]
    exact holds.allocated
  · refine holds.size.trans ?_
    simp only [length_append, length_cons]

theorem Spare.change (spare : Spare list (left ++ (ref, content) :: right) entry)
    (update : DListNode -> DListNode) (changed : List Int) :
    Spare (list.change ref update) (left ++ (ref, changed) :: right) entry where
  outside := by
    have outside := spare.outside
    simp only [map_append, map_cons] at outside ⊢
    exact outside
  item := by
    have different : entry.1 ≠ ref := by
      intro same
      refine spare.outside (mem_cons_of_mem _ ?_)
      rw [same, map_append]
      exact mem_append_right _ mem_cons_self
    simp only [DList.change, DList.item, update_of_ne different]
    exact spare.item
  allocated := spare.allocated

theorem Spare.relinked (spare : Spare list (left ++ right) entry)
    (relinked : Relinked list result) (other : Entry) (different : entry.1 ≠ other.1) :
    Spare result (left ++ other :: right) entry where
  outside := by
    have outside := spare.outside
    rw [relinked.sentinel]
    simp only [map_append, map_cons, mem_cons, mem_append, not_or] at outside ⊢
    exact ⟨outside.1, outside.2.1, different, outside.2.2⟩
  item := by
    rw [relinked.item]
    exact spare.item
  allocated := by
    rw [relinked.fresh]
    exact spare.allocated

end

end DList

end SharksAndFish
end Codebank
