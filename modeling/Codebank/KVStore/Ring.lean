import Codebank.KVStore.Message

namespace Codebank
namespace KVStore

open List

/-!
# Which slaves hold a key

The master keeps its slaves in ascending order of their 64-bit IDs, compared
without sign.  A key belongs to the first slave whose ID is not below the key's
64-bit hash, or to the front slave when there is none; the second copy belongs
to the next slave of the ring.  Here all slaves have registered, so the ring does
not change.
-/

/-- `hashTo64bit`, in the wrapping arithmetic of a Java `long`. -/
def hashTo64bit (string : JString) : BitVec 64 :=
  string.foldl (fun hash char => 31#64 * hash + char.toBitVec.setWidth 64) 1125899906842597#64

/-- `isLessThanUnsigned`: the comparison with sign, flipped when the signs differ. -/
def isLessThanUnsigned (n1 n2 : BitVec 64) : Bool :=
  (n1.slt n2) ^^ ((n1.slt 0#64) != (n2.slt 0#64))

def isLessThanEqualUnsigned (n1 n2 : BitVec 64) : Bool :=
  isLessThanUnsigned n1 n2 || n1 == n2

/-- The IDs in `slaveList` once `numSlaves` slaves have registered. -/
structure SlaveRing where
  ids : List (BitVec 64)
  nonempty : ids ≠ []
  ascending : ids.Pairwise (fun first second => isLessThanUnsigned first second = true)

namespace SlaveRing

/-- A registered slave. -/
def Slave (ring : SlaveRing) : Type :=
  { id : BitVec 64 // id ∈ ring.ids }

instance (ring : SlaveRing) : DecidableEq ring.Slave :=
  inferInstanceAs (DecidableEq { id : BitVec 64 // id ∈ ring.ids })

def getFront (ring : SlaveRing) : ring.Slave :=
  ⟨ring.ids.head ring.nonempty, head_mem ring.nonempty⟩

/-- `findSlaveAfterLong`: walk the list up to the first ID that is not below `n`. -/
def findSlaveAfterLong (ring : SlaveRing) (n : BitVec 64) : ring.Slave :=
  match found : ring.ids.find? (isLessThanEqualUnsigned n) with
  | some id => ⟨id, mem_of_find?_eq_some found⟩
  | none => ring.getFront

def findFirstReplica (ring : SlaveRing) (key : JString) : ring.Slave :=
  ring.findSlaveAfterLong (hashTo64bit key)

/-- `findSuccessor` of a registered slave: the next node, or the front one
when the next node is the head of the circular list. -/
def findSuccessor (ring : SlaveRing) (firstReplica : ring.Slave) : ring.Slave :=
  match found : (ring.ids.dropWhile (fun id => id != firstReplica.1)).tail.head? with
  | some id =>
    ⟨id, (dropWhile_sublist _).subset (mem_of_mem_tail (mem_of_mem_head? found))⟩
  | none => ring.getFront

/-- The two slaves `handleTPCRequest` contacts, in this order.  With a single
registered slave they are the same one. -/
def slaves (ring : SlaveRing) (key : JString) : List ring.Slave :=
  [ring.findFirstReplica key, ring.findSuccessor (ring.findFirstReplica key)]

variable {ring : SlaveRing} {key : JString}

theorem first_mem_slaves : ring.findFirstReplica key ∈ ring.slaves key :=
  mem_cons_self

theorem successor_mem_slaves : ring.findSuccessor (ring.findFirstReplica key) ∈ ring.slaves key :=
  mem_cons_of_mem _ mem_cons_self

end SlaveRing

end KVStore
end Codebank
