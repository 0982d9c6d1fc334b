import Codebank.Foundation.Links
import Codebank.KVStore.Ring

namespace Codebank
namespace KVStore

open Foundation List Function Option

/-!
# The list of slaves

A circular doubly linked list of nodes with a head, in ascending order of the IDs compared
without sign.  The `TPCSlaveInfo` objects are the elements of an arbitrary type.  An access
through the null reference has no result.
-/

/-- `SlaveList`, with the fields of its nodes; node 0 is the head. -/
structure SlaveList (Info : Type) where
  next : Nat -> Option Nat
  prev : Nat -> Option Nat
  info : Nat -> Option Info
  /-- the next unused reference -/
  fresh : Nat
  size : Int

namespace SlaveList

variable {Info : Type}

def new : SlaveList Info where
  next ref := if ref = 0 then some 0 else none
  prev ref := if ref = 0 then some 0 else none
  info _ := none
  fresh := 1
  size := 0

def setNext (list : SlaveList Info) (ref target : Nat) : SlaveList Info :=
  { list with next := update list.next ref (some target) }

def setPrev (list : SlaveList Info) (ref target : Nat) : SlaveList Info :=
  { list with prev := update list.prev ref (some target) }

def setInfo (list : SlaveList Info) (ref : Nat) (slave : Info) : SlaveList Info :=
  { list with info := update list.info ref (some slave) }

def getFront (list : SlaveList Info) : Option Nat :=
  if list.size = 0 then none else list.next 0

/-- `new SlaveNode(slave)` -/
def allocate (list : SlaveList Info) (slave : Info) : SlaveList Info :=
  { list.setInfo list.fresh slave with fresh := list.fresh + 1 }

def insertBefore (list : SlaveList Info) (newNode node : Nat) : Option (SlaveList Info) :=
  (list.prev node).map fun before =>
    { (((list.setNext before newNode).setPrev newNode before).setNext newNode node).setPrev
        node newNode with size := list.size + 1 }

end SlaveList

/-- `SlaveNode.compareTo` on the IDs of the two nodes. -/
def compareTo (thisId otherId : BitVec 64) : Int :=
  if isLessThanUnsigned thisId otherId then -1
  else if isLessThanEqualUnsigned thisId otherId then 0
  else 1

section

variable {Info : Type} (getSlaveID : Info -> BitVec 64)

namespace SlaveList

/-- The loop of `addSlave` from a node on, with the insertion after it; the result is the node
that holds the slave. -/
def addFrom (list : SlaveList Info) (newNode : Nat) (slave : Info) :
    Nat -> Nat -> Option (Nat × SlaveList Info)
  | 0, _ => none
  | rounds + 1, currNode =>
    if currNode = 0 then
      (list.insertBefore newNode 0).map fun after => (newNode, after)
    else
      (list.info currNode).bind fun curr =>
        if compareTo (getSlaveID curr) (getSlaveID slave) < 0 then
          (list.next currNode).bind (list.addFrom newNode slave rounds)
        else if compareTo (getSlaveID curr) (getSlaveID slave) = 0 then
          some (currNode, list)
        else
          (list.insertBefore newNode currNode).map fun after => (newNode, after)

/-- `addSlave`; the loop meets every node at most once. -/
def addSlave (list : SlaveList Info) (slave : Info) : Option (Nat × SlaveList Info) :=
  if list.size = 0 then
    ((list.allocate slave).insertBefore list.fresh 0).map fun after => (list.fresh, after)
  else
    list.getFront.bind
      ((list.allocate slave).addFrom getSlaveID list.fresh slave (list.size.toNat + 1))

/-- The loop of `findSlaveAfterLong` from a node on. -/
def searchFrom (list : SlaveList Info) (n : BitVec 64) : Nat -> Nat -> Option Info
  | 0, _ => none
  | rounds + 1, currNode =>
    if currNode = 0 then
      list.getFront.bind list.info
    else
      (list.info currNode).bind fun curr =>
        if isLessThanEqualUnsigned n (getSlaveID curr) then
          some curr
        else
          (list.next currNode).bind (list.searchFrom n rounds)

end SlaveList

/-! ## The order of the IDs -/

theorem isLessThanUnsigned_iff {n1 n2 : BitVec 64} :
    isLessThanUnsigned n1 n2 = true <-> n1.toNat < n2.toNat := by
  rw [isLessThanUnsigned, BitVec.slt_zero_eq_msb, BitVec.slt_zero_eq_msb, BitVec.slt_eq_ult,
    <- BitVec.lt_def, <- BitVec.ult_iff_lt]
  cases n1.msb <;> cases n2.msb <;> simp

theorem isLessThanEqualUnsigned_iff {n1 n2 : BitVec 64} :
    isLessThanEqualUnsigned n1 n2 = true <-> n1.toNat <= n2.toNat := by
  rw [isLessThanEqualUnsigned, Bool.or_eq_true, isLessThanUnsigned_iff, beq_iff_eq,
    <- BitVec.toNat_inj]
  omega

theorem compareTo_neg {thisId otherId : BitVec 64} :
    compareTo thisId otherId < 0 <-> thisId.toNat < otherId.toNat := by
  rw [<- isLessThanUnsigned_iff, compareTo]
  split_ifs <;> simp_all

theorem compareTo_zero {thisId otherId : BitVec 64} :
    compareTo thisId otherId = 0 <-> thisId = otherId := by
  rw [compareTo, <- BitVec.toNat_inj]
  split_ifs with less lessEqual
  · rw [isLessThanUnsigned_iff] at less
    simp
    omega
  · rw [isLessThanUnsigned_iff] at less
    rw [isLessThanEqualUnsigned_iff] at lessEqual
    simp
    omega
  · rw [isLessThanEqualUnsigned_iff] at lessEqual
    simp
    omega

/-! ## The invariant -/

/-- The links of the nodes. -/
def SlaveList.links (list : SlaveList Info) : Links Nat where
  next := list.next
  prev := list.prev

/-- The list holds these slaves at these nodes, in ascending order of their IDs. -/
structure SlaveList.Holds (list : SlaveList Info) (entries : List (Nat × Info)) : Prop where
  ring : list.links.Ring 0 (entries.map Prod.fst)
  infos : ∀ entry, entry ∈ entries -> list.info entry.1 = some entry.2
  head : list.info 0 = none
  ascending : entries.Pairwise fun first second =>
    (getSlaveID first.2).toNat < (getSlaveID second.2).toNat
  fresh : ∀ entry, entry ∈ entries -> entry.1 < list.fresh
  positive : 0 < list.fresh
  size : list.size = entries.length

/-- The node of the first of some entries, or the head. -/
def firstNode (entries : List (Nat × Info)) : Nat :=
  (entries.map Prod.fst).headD 0

theorem firstNode_nil : firstNode ([] : List (Nat × Info)) = 0 := rfl

theorem firstNode_cons (entry : Nat × Info) (rest : List (Nat × Info)) :
    firstNode (entry :: rest) = entry.1 := rfl

theorem mem_middle {entry other : Nat × Info} {left right : List (Nat × Info)} :
    other ∈ left ++ entry :: right <-> other = entry ∨ other ∈ left ++ right := by
  rw [mem_append, mem_cons, mem_append, or_left_comm]

namespace SlaveList.Holds

variable {getSlaveID} {list : SlaveList Info} {entries left right : List (Nat × Info)}
  {slave : Info} {newNode : Nat}

theorem new : (SlaveList.new : SlaveList Info).Holds getSlaveID [] where
  ring := ⟨isChain_cons_cons.mpr ⟨⟨rfl, rfl⟩, List.IsChain.singleton 0⟩,
    nodup_singleton 0⟩
  infos entry impossible := by cases impossible
  head := rfl
  ascending := List.Pairwise.nil
  fresh entry impossible := by cases impossible
  positive := Nat.one_pos
  size := rfl

theorem ids_nodup (holds : list.Holds getSlaveID entries) :
    (entries.map fun entry => getSlaveID entry.2).Nodup := by
  refine pairwise_map.mpr (holds.ascending.imp fun less same => ?_)
  rw [same] at less
  exact Nat.lt_irrefl _ less

/-- The slaves of two entries with one ID are one. -/
theorem eq_of_id (holds : list.Holds getSlaveID entries) {first second : Nat × Info}
    (inFirst : first ∈ entries) (inSecond : second ∈ entries)
    (same : getSlaveID first.2 = getSlaveID second.2) : first = second :=
  inj_on_of_nodup_map holds.ids_nodup inFirst inSecond same

variable {entry : Nat × Info}

theorem node_ne_head (holds : list.Holds getSlaveID entries) (inside : entry ∈ entries) :
    entry.1 ≠ 0 :=
  holds.ring.ne_sentinel (List.mem_map_of_mem inside)

/-- A new node gets its slave. -/
theorem allocate (holds : list.Holds getSlaveID entries) (slave : Info) :
    (list.allocate slave).Holds getSlaveID entries where
  ring := holds.ring
  infos entry inside :=
    (update_of_ne (Nat.ne_of_lt (holds.fresh entry inside)) _ _).trans
      (holds.infos entry inside)
  head := (update_of_ne (Nat.ne_of_lt holds.positive) _ _).trans holds.head
  ascending := holds.ascending
  fresh entry inside := Nat.lt_succ_of_lt (holds.fresh entry inside)
  positive := Nat.succ_pos _
  size := holds.size

/-- The four assignments of `insertBefore` put the node between two others. -/
theorem insertBefore_links {before node : Nat} (newBefore : newNode ≠ before)
    (newAfter : newNode ≠ node) :
    SlaveList.links { (((list.setNext before newNode).setPrev newNode before).setNext newNode
      node).setPrev node newNode with size := list.size + 1 } =
      list.links.insertBetween before newNode node := by
  unfold SlaveList.links Links.insertBetween
  congr 1
  · funext ref
    change update (update list.next before (some newNode)) newNode (some node)
      ref = _
    by_cases isNew : ref = newNode
    · subst isNew
      simp [newBefore]
    · by_cases isBefore : ref = before
      · subst isBefore
        simp [isNew]
      · simp [isNew, isBefore]
  · funext ref
    change update (update list.prev newNode (some before)) node (some newNode)
      ref = _
    by_cases isNode : ref = node
    · subst isNode
      simp
    · by_cases isNew : ref = newNode
      · subst isNew
        simp [isNode]
      · simp [isNew, isNode]

/-- A node is put before another. -/
theorem insertBefore (holds : list.Holds getSlaveID (left ++ right))
    (stored : list.info newNode = some slave) (made : newNode < list.fresh)
    (outside : newNode ∉ 0 :: (left ++ right).map Prod.fst)
    (above : ∀ entry, entry ∈ left -> (getSlaveID entry.2).toNat < (getSlaveID slave).toNat)
    (below : ∀ entry, entry ∈ right -> (getSlaveID slave).toNat < (getSlaveID entry.2).toNat) :
    ∃ after, list.insertBefore newNode (firstNode right) = some after ∧
      after.Holds getSlaveID (left ++ (newNode, slave) :: right) := by
  have ring := holds.ring
  rw [map_append] at ring outside
  have before : list.prev (firstNode right) = some ((left.map Prod.fst).getLastD 0) :=
    ring.joined.2
  have newBefore : newNode ≠ (left.map Prod.fst).getLastD 0 := by
    rintro rfl
    exact outside (mem_append_left _ (Links.getLastD_mem 0 (left.map Prod.fst)))
  have newAfter : newNode ≠ firstNode right := by
    rintro rfl
    rcases mem_cons.mp (Links.headD_mem 0 (right.map Prod.fst)) with head | inside
    · exact outside (mem_cons.mpr (.inl head))
    · exact outside (mem_cons_of_mem _ (mem_append_right _ inside))
  rw [SlaveList.insertBefore, before]
  refine ⟨_, rfl, ?_⟩
  refine
    { ring := ?ring, infos := ?infos, head := holds.head, ascending := ?ascending,
      fresh := ?fresh, positive := holds.positive, size := ?size }
  case ring =>
    have inserted := ring.insert outside
    rw [map_append, map_cons]
    convert inserted using 1
    exact insertBefore_links newBefore newAfter
  case infos =>
    intro entry inside
    rcases mem_append.mp inside with inLeft | inRight
    · exact holds.infos entry (mem_append_left _ inLeft)
    · rcases mem_cons.mp inRight with same | inRight
      · rw [same]
        exact stored
      · exact holds.infos entry (mem_append_right _ inRight)
  case ascending =>
    rcases pairwise_append.mp holds.ascending with ⟨inLeft, inRight, across⟩
    refine pairwise_append.mpr ⟨inLeft, pairwise_cons.mpr ⟨below, inRight⟩, ?_⟩
    intro first isLeft second isRight
    rcases mem_cons.mp isRight with same | isRight
    · rw [same]
      exact above first isLeft
    · exact across first isLeft second isRight
  case fresh =>
    intro entry inside
    rcases mem_append.mp inside with inLeft | inRight
    · exact holds.fresh entry (mem_append_left _ inLeft)
    · rcases mem_cons.mp inRight with same | inRight
      · rw [same]
        exact made
      · exact holds.fresh entry (mem_append_right _ inRight)
  case size =>
    change list.size + 1 = _
    rw [holds.size]
    simp
    omega

theorem next_eq (holds : list.Holds getSlaveID (left ++ entry :: right)) :
    list.next entry.1 = some (firstNode right) := by
  have ring := holds.ring
  rw [map_append, map_cons] at ring
  exact ring.next_eq

theorem info_eq (holds : list.Holds getSlaveID (left ++ entry :: right)) :
    list.info entry.1 = some entry.2 :=
  holds.infos entry (mem_append_right _ mem_cons_self)

/-- The loop of `addSlave` stops at the place of a slave whose ID is new. -/
theorem addFrom_spec {rounds : Nat} (holds : list.Holds getSlaveID (left ++ right))
    (stored : list.info newNode = some slave) (made : newNode < list.fresh)
    (outside : newNode ∉ 0 :: (left ++ right).map Prod.fst)
    (above : ∀ entry, entry ∈ left -> (getSlaveID entry.2).toNat < (getSlaveID slave).toNat)
    (absent : ∀ entry, entry ∈ right -> getSlaveID entry.2 ≠ getSlaveID slave)
    (enough : right.length < rounds) :
    ∃ before behind after, left ++ right = before ++ behind ∧
      list.addFrom getSlaveID newNode slave rounds (firstNode right) = some (newNode, after) ∧
      after.Holds getSlaveID (before ++ (newNode, slave) :: behind) := by
  induction right generalizing left rounds with
  | nil =>
    rcases rounds with _ | rounds
    · cases enough
    rcases holds.insertBefore stored made outside above
      (fun _ impossible => (by cases impossible)) with ⟨after, done, kept⟩
    refine ⟨left, [], after, rfl, ?_, kept⟩
    rw [firstNode_nil] at done
    rw [firstNode_nil, SlaveList.addFrom, if_pos rfl, done, map_some]
  | cons entry rest ih =>
    rcases rounds with _ | rounds
    · cases enough
    have notHead : entry.1 ≠ 0 :=
      holds.node_ne_head (mem_append_right _ mem_cons_self)
    have unfolded : list.addFrom getSlaveID newNode slave (rounds + 1)
        (firstNode (entry :: rest)) =
        if compareTo (getSlaveID entry.2) (getSlaveID slave) < 0 then
          list.addFrom getSlaveID newNode slave rounds (firstNode rest)
        else if compareTo (getSlaveID entry.2) (getSlaveID slave) = 0 then
          some (entry.1, list)
        else
          (list.insertBefore newNode entry.1).map fun after => (newNode, after) := by
      rw [firstNode_cons, SlaveList.addFrom, if_neg notHead, holds.info_eq, bind_some,
        holds.next_eq, bind_some]
    rw [unfolded]
    split
    next less =>
      rw [compareTo_neg] at less
      rw [append_cons] at holds outside ⊢
      refine ih holds outside ?_ ?_ (Nat.lt_of_succ_lt_succ enough)
      · intro other inside
        rcases mem_append.mp inside with inLeft | isEntry
        · exact above other inLeft
        · rw [mem_singleton.mp isEntry]
          exact less
      · exact fun other inside => absent other (mem_cons_of_mem _ inside)
    next notLess =>
      have different := absent entry mem_cons_self
      rw [if_neg (fun same => different (compareTo_zero.mp same))]
      have greater : (getSlaveID slave).toNat < (getSlaveID entry.2).toNat := by
        rw [compareTo_neg] at notLess
        rw [Ne, <- BitVec.toNat_inj] at different
        omega
      have below (other : Nat × Info) (inside : other ∈ entry :: rest) :
          (getSlaveID slave).toNat < (getSlaveID other.2).toNat := by
        rcases mem_cons.mp inside with same | later
        · rw [same]
          exact greater
        · have ordered := (pairwise_append.mp holds.ascending).2.1
          exact Nat.lt_trans greater ((pairwise_cons.mp ordered).1 other later)
      rcases holds.insertBefore stored made outside above below with ⟨after, done, kept⟩
      refine ⟨left, entry :: rest, after, rfl, ?_, kept⟩
      rw [firstNode_cons] at done
      rw [done, map_some]

theorem getFront_eq (holds : list.Holds getSlaveID entries) (some_ : entries ≠ []) :
    list.getFront = some (firstNode entries) := by
  have filled : list.size ≠ 0 := by
    rw [holds.size]
    exact_mod_cast (length_pos_iff.mpr some_).ne'
  rw [SlaveList.getFront, if_neg filled]
  exact holds.ring.first_eq

/-- `addSlave` puts a slave whose ID is new at its place. -/
theorem addSlave_spec (holds : list.Holds getSlaveID entries)
    (absent : ∀ entry, entry ∈ entries -> getSlaveID entry.2 ≠ getSlaveID slave) :
    ∃ before behind after, entries = before ++ behind ∧
      list.addSlave getSlaveID slave = some (list.fresh, after) ∧
      after.Holds getSlaveID (before ++ (list.fresh, slave) :: behind) := by
  have outside : list.fresh ∉ 0 :: entries.map Prod.fst := by
    intro inside
    rcases mem_cons.mp inside with head | inside
    · exact Nat.ne_of_gt holds.positive head
    · rcases List.mem_map.mp inside with ⟨entry, member, same⟩
      exact Nat.ne_of_lt (holds.fresh entry member) same
  have stored : (list.allocate slave).info list.fresh = some slave := update_self _ _ _
  have made : list.fresh < (list.allocate slave).fresh := Nat.lt_succ_self _
  have enough : entries.length < list.size.toNat + 1 := by
    rw [holds.size]
    exact Nat.lt_succ_self _
  have start : (list.allocate slave).Holds getSlaveID ([] ++ entries) := holds.allocate slave
  rcases start.addFrom_spec stored made outside (fun _ impossible => (by cases impossible)) absent
    enough with ⟨before, behind, after, split, done, kept⟩
  refine ⟨before, behind, after, split, ?_, kept⟩
  by_cases empty : entries = []
  · subst empty
    have zero : list.size = 0 := holds.size
    rw [firstNode_nil, SlaveList.addFrom, if_pos rfl] at done
    rw [SlaveList.addSlave, if_pos zero]
    exact done
  · have filled : list.size ≠ 0 := by
      rw [holds.size]
      exact_mod_cast (length_pos_iff.mpr empty).ne'
    rw [SlaveList.addSlave, if_neg filled, holds.getFront_eq empty, bind_some]
    exact done

/-- The slave of a node is replaced by one with the same ID. -/
theorem setInfo (holds : list.Holds getSlaveID (left ++ entry :: right))
    (same : getSlaveID slave = getSlaveID entry.2) :
    (list.setInfo entry.1 slave).Holds getSlaveID (left ++ (entry.1, slave) :: right) := by
  have nodes : (left ++ (entry.1, slave) :: right).map Prod.fst =
      (left ++ entry :: right).map Prod.fst := by simp
  have distinct := (nodup_cons.mp holds.ring.distinct).2
  rw [map_append, map_cons, nodup_middle, nodup_cons,
    <- map_append] at distinct
  have elsewhere (other : Nat × Info) (inside : other ∈ left ++ right) : other.1 ≠ entry.1 :=
    fun is => distinct.1 (is ▸ List.mem_map_of_mem inside)
  have old (other : Nat × Info) (inside : other ∈ left ++ right) :
      other ∈ left ++ entry :: right := mem_middle.mpr (.inr inside)
  have here : entry ∈ left ++ entry :: right := mem_middle.mpr (.inl rfl)
  refine
    { ring := ?ring, infos := ?infos, head := ?head, ascending := ?ascending, fresh := ?fresh,
      positive := holds.positive, size := ?size }
  case ring =>
    rw [nodes]
    exact holds.ring
  case infos =>
    intro other inside
    rcases mem_middle.mp inside with is | inside
    · rw [is]
      exact update_self _ _ _
    · exact (update_of_ne (elsewhere other inside) _ _).trans
        (holds.infos other (old other inside))
  case head =>
    exact (update_of_ne (holds.node_ne_head here).symm _ _).trans holds.head
  case ascending =>
    have ids : ((left ++ entry :: right).map fun other => (getSlaveID other.2).toNat).Pairwise
        (· < ·) := pairwise_map.mpr holds.ascending
    have unchanged : ((left ++ entry :: right).map fun other => (getSlaveID other.2).toNat) =
        (left ++ (entry.1, slave) :: right).map fun other => (getSlaveID other.2).toNat := by
      simp [same]
    rw [unchanged] at ids
    exact pairwise_map.mp ids
  case fresh =>
    intro other inside
    rcases mem_middle.mp inside with is | inside
    · rw [is]
      exact holds.fresh entry here
    · exact holds.fresh other (old other inside)
  case size =>
    change list.size = _
    rw [holds.size]
    simp

end SlaveList.Holds

end

end KVStore
end Codebank
