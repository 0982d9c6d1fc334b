import Codebank.KVStore.Registry

namespace Codebank
namespace KVStore

open List Option AList

/-!
# Where the replicas of a key are

The first replica of a key is the slave with the least ID that is not below the hash of the
key, or with the least ID of all; the second one has the next larger ID, or the least one.
Both are determined by the set of IDs.  The walks of the master along its list find them, and
agree with the ring of slaves that the rest of the master is modelled with.
-/

/-- The ID is the first one from the hash on, going round. -/
def IsFirst (ids : List (BitVec 64)) (hash id : BitVec 64) : Prop :=
  id ∈ ids ∧
    ((hash.toNat <= id.toNat ∧
        ∀ other, other ∈ ids -> hash.toNat <= other.toNat -> id.toNat <= other.toNat) ∨
      ((∀ other, other ∈ ids -> other.toNat < hash.toNat) ∧
        ∀ other, other ∈ ids -> id.toNat <= other.toNat))

/-- The ID is the next one after another, going round. -/
def IsNext (ids : List (BitVec 64)) (first id : BitVec 64) : Prop :=
  id ∈ ids ∧
    ((first.toNat < id.toNat ∧
        ∀ other, other ∈ ids -> first.toNat < other.toNat -> id.toNat <= other.toNat) ∨
      ((∀ other, other ∈ ids -> other.toNat <= first.toNat) ∧
        ∀ other, other ∈ ids -> id.toNat <= other.toNat))

section

variable {ids same : List (BitVec 64)} {hash first one two : BitVec 64}

theorem IsFirst.unique (isOne : IsFirst ids hash one) (isTwo : IsFirst same hash two)
    (members : ∀ id, id ∈ ids <-> id ∈ same) : one = two := by
  rcases isOne with ⟨inOne, oneCases⟩
  rcases isTwo with ⟨inTwo, twoCases⟩
  have oneInSame := (members one).mp inOne
  have twoInIds := (members two).mpr inTwo
  refine BitVec.toNat_inj.mp ?_
  rcases oneCases with ⟨above, least⟩ | ⟨below, least⟩ <;>
    rcases twoCases with ⟨above', least'⟩ | ⟨below', least'⟩
  · exact Nat.le_antisymm (least two twoInIds above') (least' one oneInSame above)
  · exact absurd above (Nat.not_le.mpr (below' one oneInSame))
  · exact absurd above' (Nat.not_le.mpr (below two twoInIds))
  · exact Nat.le_antisymm (least two twoInIds) (least' one oneInSame)

theorem IsNext.unique (isOne : IsNext ids first one) (isTwo : IsNext same first two)
    (members : ∀ id, id ∈ ids <-> id ∈ same) : one = two := by
  rcases isOne with ⟨inOne, oneCases⟩
  rcases isTwo with ⟨inTwo, twoCases⟩
  have oneInSame := (members one).mp inOne
  have twoInIds := (members two).mpr inTwo
  refine BitVec.toNat_inj.mp ?_
  rcases oneCases with ⟨above, least⟩ | ⟨below, least⟩ <;>
    rcases twoCases with ⟨above', least'⟩ | ⟨below', least'⟩
  · exact Nat.le_antisymm (least two twoInIds above') (least' one oneInSame above)
  · exact absurd above (Nat.not_lt.mpr (below' one oneInSame))
  · exact absurd above' (Nat.not_lt.mpr (below two twoInIds))
  · exact Nat.le_antisymm (least two twoInIds) (least' one oneInSame)

/-- From an ID on, the ID itself is the first one. -/
theorem IsFirst.eq_of_mem (isFirst : IsFirst ids hash one) (inside : hash ∈ ids) : one = hash := by
  rcases isFirst with ⟨_, ⟨above, least⟩ | ⟨below, _⟩⟩
  · exact BitVec.toNat_inj.mp (Nat.le_antisymm (least hash inside (Nat.le_refl _)) above)
  · exact absurd (below hash inside) (Nat.lt_irrefl _)

theorem IsFirst.congr (isOne : IsFirst ids hash one)
    (members : ∀ id, id ∈ ids <-> id ∈ same) : IsFirst same hash one := by
  simpa only [IsFirst, members] using isOne

theorem IsNext.congr (isOne : IsNext ids first one)
    (members : ∀ id, id ∈ ids <-> id ∈ same) : IsNext same first one := by
  simpa only [IsNext, members] using isOne

theorem exists_other (distinct : ids.Nodup) (many : 2 <= ids.length) (id : BitVec 64) :
    ∃ other, other ∈ ids ∧ other ≠ id := by
  match ids, many with
  | one :: two :: rest, _ =>
    have apart : one ≠ two := fun is =>
      (nodup_cons.mp distinct).1 (is ▸ mem_cons_self)
    by_cases isOne : one = id
    · exact ⟨two, by simp, fun isTwo => apart (isOne.trans isTwo.symm)⟩
    · exact ⟨one, by simp, isOne⟩

/-- With two IDs or more the next one is another one. -/
theorem IsNext.ne (isNext : IsNext ids first two) (other : BitVec 64) (inside : other ∈ ids)
    (different : other ≠ first) : two ≠ first := by
  rintro rfl
  rcases isNext with ⟨_, ⟨above, _⟩ | ⟨most, least⟩⟩
  · exact Nat.lt_irrefl _ above
  · exact different (BitVec.toNat_inj.mp
      (Nat.le_antisymm (most other inside) (least other inside)))

end

/-! ## The ring -/

namespace SlaveRing

variable (ring : SlaveRing)

theorem ascending_toNat :
    ring.ids.Pairwise fun first second => first.toNat < second.toNat :=
  ring.ascending.imp fun less => isLessThanUnsigned_iff.mp less

variable {id : BitVec 64}

theorem head_le (inside : id ∈ ring.ids) : (ring.ids.head ring.nonempty).toNat <= id.toNat := by
  have ascending := ring.ascending_toNat
  rw [<- cons_head_tail ring.nonempty] at ascending inside
  rcases mem_cons.mp inside with is | later
  · exact Nat.le_of_eq (congrArg BitVec.toNat is.symm)
  · exact Nat.le_of_lt ((pairwise_cons.mp ascending).1 id later)

theorem findSlaveAfterLong_eq (n : BitVec 64) :
    (ring.findSlaveAfterLong n).1 =
      (ring.ids.find? (isLessThanEqualUnsigned n)).getD (ring.ids.head ring.nonempty) := by
  unfold findSlaveAfterLong
  split
  next id found =>
    change id = _
    rw [found]
    rfl
  next found =>
    rw [found]
    rfl

theorem isFirst_findSlaveAfterLong (n : BitVec 64) :
    IsFirst ring.ids n (ring.findSlaveAfterLong n).1 := by
  refine ⟨(ring.findSlaveAfterLong n).2, ?_⟩
  rw [ring.findSlaveAfterLong_eq]
  cases found : ring.ids.find? (isLessThanEqualUnsigned n) with
  | none =>
    rw [find?_eq_none] at found
    refine .inr ⟨fun other inside => ?_, fun other inside => ring.head_le inside⟩
    have above := found other inside
    rw [isLessThanEqualUnsigned_iff] at above
    exact Nat.not_le.mp above
  | some id =>
    rcases find?_eq_some_iff_append.mp found with ⟨above, before, behind, split, earlier⟩
    rw [isLessThanEqualUnsigned_iff] at above
    refine .inl ⟨above, fun other inside enough => ?_⟩
    have ascending := ring.ascending_toNat
    rw [split] at ascending inside
    rcases mem_append.mp inside with inBefore | inBehind
    · have low := earlier other inBefore
      rw [Bool.not_eq_true', <- Bool.not_eq_true, isLessThanEqualUnsigned_iff] at low
      exact absurd enough low
    · rcases mem_cons.mp inBehind with is | later
      · exact Nat.le_of_eq (congrArg BitVec.toNat is.symm)
      · have ordered := (pairwise_append.mp ascending).2.1
        exact Nat.le_of_lt ((pairwise_cons.mp ordered).1 other later)

theorem head_after {before behind : List (BitVec 64)}
    (absent : ∀ other, other ∈ before -> (other != id) = true) :
    ((before ++ id :: behind).dropWhile fun other => other != id).tail.head? = behind.head? := by
  rw [dropWhile_append_of_pos absent, dropWhile_cons_of_neg (by simp), tail_cons]

theorem findSuccessor_eq (slave : ring.Slave) {before behind : List (BitVec 64)}
    (split : ring.ids = before ++ slave.1 :: behind) :
    (ring.findSuccessor slave).1 = behind.head?.getD (ring.ids.head ring.nonempty) := by
  have absent : ∀ id, id ∈ before -> (id != slave.1) = true := by
    intro id inside
    have ascending := ring.ascending_toNat
    rw [split] at ascending
    have less := (pairwise_append.mp ascending).2.2 id inside slave.1 mem_cons_self
    rw [bne_iff_ne]
    rintro rfl
    exact Nat.lt_irrefl _ less
  have rest : (ring.ids.dropWhile fun id => id != slave.1).tail.head? = behind.head? :=
    (congrArg (fun ids => (ids.dropWhile fun id => id != slave.1).tail.head?) split).trans
      (head_after absent)
  unfold findSuccessor
  split
  next id found =>
    change id = _
    rw [<- rest, found]
    rfl
  next found =>
    rw [<- rest, found]
    rfl

theorem isNext_findSuccessor (slave : ring.Slave) :
    IsNext ring.ids slave.1 (ring.findSuccessor slave).1 := by
  refine ⟨(ring.findSuccessor slave).2, ?_⟩
  rcases append_of_mem slave.2 with ⟨before, behind, split⟩
  rw [ring.findSuccessor_eq slave split]
  have ascending := ring.ascending_toNat
  rw [split] at ascending
  rcases pairwise_append.mp ascending with ⟨_, rest, across⟩
  have later := (pairwise_cons.mp rest).1
  have earlier (other : BitVec 64) (inside : other ∈ before) : other.toNat < slave.1.toNat :=
    across other inside slave.1 mem_cons_self
  cases behind with
  | nil =>
    refine .inr ⟨fun other inside => ?_, fun other inside => ring.head_le inside⟩
    rw [split] at inside
    rcases mem_append.mp inside with inBefore | last
    · exact Nat.le_of_lt (earlier other inBefore)
    · exact Nat.le_of_eq (congrArg BitVec.toNat (mem_singleton.mp last))
  | cons next others =>
    refine .inl ⟨later next mem_cons_self, fun other inside above => ?_⟩
    rw [split] at inside
    rcases mem_append.mp inside with inBefore | inside
    · exact absurd above (Nat.lt_asymm (earlier other inBefore))
    rcases mem_cons.mp inside with is | inside
    · rw [is] at above
      exact absurd above (Nat.lt_irrefl _)
    rcases mem_cons.mp inside with is | inside
    · exact Nat.le_of_eq (congrArg BitVec.toNat is.symm)
    · exact Nat.le_of_lt
        ((pairwise_cons.mp (pairwise_cons.mp rest).2).1 other inside)

/-- The ring of some IDs. -/
def ofIds {ids : List (BitVec 64)} (distinct : ids.Nodup) (some_ : ids ≠ []) : SlaveRing where
  ids := ids.mergeSort isLessThanEqualUnsigned
  nonempty := by
    rw [Ne, <- length_eq_zero_iff, length_mergeSort, length_eq_zero_iff]
    exact some_
  ascending := by
    have sorted : (ids.mergeSort isLessThanEqualUnsigned).Pairwise
        fun first second => isLessThanEqualUnsigned first second = true := by
      refine pairwise_mergeSort (fun _ _ _ one two => ?_) (fun first second => ?_) ids
      · rw [isLessThanEqualUnsigned_iff] at one two ⊢
        exact Nat.le_trans one two
      · rw [Bool.or_eq_true, isLessThanEqualUnsigned_iff, isLessThanEqualUnsigned_iff]
        exact Nat.le_total _ _
    have apart : (ids.mergeSort isLessThanEqualUnsigned).Nodup :=
      (mergeSort_perm ids _).nodup_iff.mpr distinct
    refine (sorted.and apart).imp fun {first second} both => ?_
    rw [isLessThanEqualUnsigned_iff] at both
    rw [isLessThanUnsigned_iff]
    exact Nat.lt_of_le_of_ne both.1 fun same => both.2 (BitVec.toNat_inj.mp same)

theorem mem_ofIds {ids : List (BitVec 64)} (distinct : ids.Nodup) (some_ : ids ≠ [])
    (id : BitVec 64) : id ∈ (ofIds distinct some_).ids <-> id ∈ ids :=
  mem_mergeSort

end SlaveRing

/-! ## The walks of the master -/

section

variable {Info : Type} {getSlaveID : Info -> BitVec 64}

/-- The walk of `findSlaveAfterLong` stops at the first ID that is not below the number, or
begins again at the front. -/
theorem SlaveList.Holds.searchFrom_spec {list : SlaveList Info} {n : BitVec 64}
    {left right : List (Nat × Info)} {front : Nat × Info} {rounds : Nat}
    (holds : list.Holds getSlaveID (left ++ right)) (isFront : (left ++ right).head? = some front)
    (enough : right.length < rounds) :
    list.searchFrom getSlaveID n rounds (firstNode right) =
      some ((right.find? fun entry =>
        isLessThanEqualUnsigned n (getSlaveID entry.2)).getD front).2 := by
  induction right generalizing left rounds with
  | nil =>
    rcases rounds with _ | rounds
    · cases enough
    rcases head?_eq_some_iff.mp isFront with ⟨rest, split⟩
    have some_ : left ++ [] ≠ [] := by
      rw [split]
      simp
    rw [firstNode_nil, SlaveList.searchFrom, if_pos rfl, holds.getFront_eq some_,
      bind_some]
    rw [split] at holds ⊢
    exact holds.infos front mem_cons_self
  | cons entry rest ih =>
    rcases rounds with _ | rounds
    · cases enough
    have notHead : entry.1 ≠ 0 := holds.node_ne_head (mem_middle.mpr (.inl rfl))
    rw [firstNode_cons, SlaveList.searchFrom, if_neg notHead, holds.info_eq, bind_some,
      holds.next_eq, bind_some, find?_cons]
    cases reached : isLessThanEqualUnsigned n (getSlaveID entry.2) with
    | true => rfl
    | false =>
      rw [append_cons] at holds isFront
      exact ih holds isFront (Nat.lt_of_succ_lt_succ enough)

namespace Registry

variable {registry : Registry Info} {entries : List (Nat × Info)}

/-- A call on a full registry does not change the IDs. -/
theorem Change.ids_of_full {call : Option Info} {changed : List (Nat × Info)}
    (change : Change getSlaveID registry call entries changed)
    (full : registry.numSlaves <= entries.length) :
    (changed.map fun entry => getSlaveID entry.2) =
      entries.map fun entry => getSlaveID entry.2 := by
  cases change with
  | null => rfl
  | dropped _ _ => rfl
  | replaced same => simp [same]
  | added _ room => omega

variable {calls : List (Option Info)} {slave : Info}

theorem mem_of_latest {id : BitVec 64} (found : latest getSlaveID calls id = some slave) :
    some slave ∈ calls := by
  have member := mem_of_find?_eq_some found
  simpa using member

variable [DecidableEq Info]

/-- The IDs of a registry that is not empty form a ring. -/
def Sound.toRing (sound : Sound getSlaveID registry entries) (some_ : entries ≠ []) :
    SlaveRing where
  ids := entries.map fun entry => getSlaveID entry.2
  nonempty := by simpa using some_
  ascending := by
    have ascending : entries.Pairwise fun first second =>
        isLessThanUnsigned (getSlaveID first.2) (getSlaveID second.2) = true :=
      sound.list.ascending.imp fun less => isLessThanUnsigned_iff.mpr less
    rw [pairwise_map]
    exact ascending

section

variable (sound : Sound getSlaveID registry entries)

include sound

theorem Sound.size_ne_zero (some_ : entries ≠ []) : registry.slaveList.size ≠ 0 := by
  rw [sound.list.size]
  exact_mod_cast (length_pos_iff.mpr some_).ne'

/-- `findSlaveAfterLong` finds the slave that the ring has for the number. -/
theorem Sound.findSlaveAfterLong_spec (some_ : entries ≠ []) (n : BitVec 64) :
    ∃ entry, entry ∈ entries ∧
      registry.findSlaveAfterLong getSlaveID n = some entry.2 ∧
      getSlaveID entry.2 = ((sound.toRing some_).findSlaveAfterLong n).1 := by
  rcases exists_cons_of_ne_nil some_ with ⟨front, rest, split⟩
  have holds : registry.slaveList.Holds getSlaveID ([] ++ entries) := sound.list
  have isFront : ([] ++ entries).head? = some front := by
    rw [split]
    rfl
  have enough : entries.length < registry.slaveList.size.toNat + 1 := by
    rw [sound.list.size]
    exact Nat.lt_succ_self _
  have walked := holds.searchFrom_spec (n := n) isFront enough
  refine ⟨(entries.find? fun entry =>
    isLessThanEqualUnsigned n (getSlaveID entry.2)).getD front, ?_, ?_, ?_⟩
  · cases found : entries.find? fun entry => isLessThanEqualUnsigned n (getSlaveID entry.2) with
    | none =>
      rw [split]
      exact mem_cons_self
    | some entry => exact mem_of_find?_eq_some found
  · rw [findSlaveAfterLong, sound.list.getFront_eq some_, bind_some]
    exact walked
  · have found : (sound.toRing some_).ids.find? (isLessThanEqualUnsigned n) =
        (entries.find? fun entry => isLessThanEqualUnsigned n (getSlaveID entry.2)).map
          fun entry => getSlaveID entry.2 := find?_map ..
    have first : (sound.toRing some_).ids.head (sound.toRing some_).nonempty =
        getSlaveID front.2 := by
      simp [toRing, split]
    rw [SlaveRing.findSlaveAfterLong_eq, found, first]
    cases entries.find? fun entry => isLessThanEqualUnsigned n (getSlaveID entry.2) <;> rfl

/-- `findSuccessor` finds the slave that comes next on the ring. -/
theorem Sound.findSuccessor_spec (some_ : entries ≠ []) {entry : Nat × Info}
    (inside : entry ∈ entries) :
    ∃ next, next ∈ entries ∧
      registry.findSuccessor getSlaveID (some entry.2) = some (some next.2) ∧
      getSlaveID next.2 = ((sound.toRing some_).findSuccessor
        ⟨getSlaveID entry.2, List.mem_map_of_mem inside⟩).1 := by
  rcases exists_cons_of_ne_nil some_ with ⟨front, rest, isFront⟩
  rcases append_of_mem inside with ⟨left, right, split⟩
  have holds := sound.list
  rw [split] at holds
  have node := (sound.nodes entry.2 entry.1).mpr inside
  have first : (sound.toRing some_).ids.head (sound.toRing some_).nonempty =
      getSlaveID front.2 := by
    simp [toRing, isFront]
  have ids : (sound.toRing some_).ids =
      (left.map fun other => getSlaveID other.2) ++ getSlaveID entry.2 ::
        right.map fun other => getSlaveID other.2 := by
    simp [toRing, split]
  have onRing := (sound.toRing some_).findSuccessor_eq
    ⟨getSlaveID entry.2, List.mem_map_of_mem inside⟩ ids
  rw [onRing, first]
  cases right with
  | nil =>
    refine ⟨front, by rw [isFront]; exact mem_cons_self, ?_, rfl⟩
    have front_ : registry.slaveList.info (firstNode entries) = some front.2 := by
      rw [isFront, firstNode_cons]
      exact sound.list.infos front (by rw [isFront]; exact mem_cons_self)
    have last : (registry.slaveList.next entry.1).bind registry.slaveList.info = none := by
      rw [holds.next_eq, bind_some]
      exact holds.head
    simp only [findSuccessor, if_neg (sound.size_ne_zero some_), node, last,
      sound.list.getFront_eq some_, bind_some, front_, map_some]
  | cons next others =>
    have member : next ∈ left ++ entry :: next :: others :=
      mem_middle.mpr (.inr (mem_append_right _ mem_cons_self))
    have second : (registry.slaveList.next entry.1).bind registry.slaveList.info =
        some next.2 := by
      rw [holds.next_eq, bind_some, firstNode_cons]
      exact holds.infos next member
    refine ⟨next, by rw [split]; exact member, ?_, rfl⟩
    simp only [findSuccessor, if_neg (sound.size_ne_zero some_), node, second]

end

/-! ## Which IDs are registered -/

theorem Sound.later (sound : Sound getSlaveID registry entries)
    (full : registry.numSlaves <= entries.length) (later : List (Option Info)) :
    ∃ after changed, later.foldlM (Registry.registerSlave getSlaveID) registry = some after ∧
      Sound getSlaveID after changed ∧
      (changed.map fun entry => getSlaveID entry.2) =
        entries.map fun entry => getSlaveID entry.2 := by
  induction later generalizing registry entries with
  | nil => exact ⟨registry, entries, rfl, sound, rfl⟩
  | cons call rest ih =>
    rcases sound.registerSlave call with ⟨middle, changed, step, kept, same, change⟩
    have ids := change.ids_of_full full
    have length : changed.length = entries.length := by
      simpa using congrArg List.length ids
    rcases ih kept (by rw [same, length]; exact full) with ⟨after, final, run, result, sameIds⟩
    refine ⟨after, final, ?_, result, sameIds.trans ids⟩
    rw [foldlM_cons, step]
    exact run

/-- Calls with as many IDs as slaves are expected register all of them. -/
theorem Accounts.ids_of_exact {numSlaves : Int} {ids : List (BitVec 64)}
    (accounts : Accounts getSlaveID numSlaves calls entries)
    (sound : Sound getSlaveID registry entries) (sameBound : registry.numSlaves = numSlaves)
    (distinct : ids.Nodup) (exact_ : (ids.length : Int) = numSlaves)
    (given : ∀ id, id ∈ ids <-> ∃ slave, some slave ∈ calls ∧ getSlaveID slave = id) :
    (entries.length : Int) = numSlaves ∧
      ∀ id, id ∈ (entries.map fun entry => getSlaveID entry.2) <-> id ∈ ids := by
  have known : (entries.map fun entry => getSlaveID entry.2) ⊆ ids := by
    intro id inside
    rcases List.mem_map.mp inside with ⟨entry, member, rfl⟩
    exact (given _).mpr ⟨entry.2, mem_of_latest (accounts.latest entry member), rfl⟩
  have below := sound.bound
  have full : (entries.length : Int) = numSlaves := by
    by_contra different
    have all : ids ⊆ entries.map fun entry => getSlaveID entry.2 := by
      intro id inside
      rcases (given id).mp inside with ⟨slave, called, rfl⟩
      rcases accounts.room (by omega) slave called with ⟨entry, member, same⟩
      exact List.mem_map.mpr ⟨entry, member, same⟩
    have counted := (distinct.subperm all).length_le
    rw [length_map] at counted
    omega
  have perm := (sound.list.ids_nodup.subperm known).perm_of_length_le (by
    rw [length_map]
    omega)
  exact ⟨full, fun id => perm.mem_iff⟩

/-- Whatever the order of the first registrations and whatever calls follow, the replicas of a
key are where the set of IDs puts them. -/
theorem replica_placement (getSlaveID : Info -> BitVec 64) {numSlaves : Int}
    {ids : List (BitVec 64)} (distinct : ids.Nodup) (exact_ : (ids.length : Int) = numSlaves)
    (many : 2 <= numSlaves) (key : JString) :
    ∃ firstId secondId, IsFirst ids (hashTo64bit key) firstId ∧
      IsNext ids firstId secondId ∧ secondId ≠ firstId ∧
      ∀ first later : List (Option Info),
        (∀ id, id ∈ ids <-> ∃ slave, some slave ∈ first ∧ getSlaveID slave = id) ->
        ∃ registry one two,
          afterCalls getSlaveID numSlaves (first ++ later) = some registry ∧
          registry.findFirstReplica getSlaveID (some key) = some (some one) ∧
          getSlaveID one = firstId ∧
          registry.findSuccessor getSlaveID (some one) = some (some two) ∧
          getSlaveID two = secondId := by
  have some_ : ids ≠ [] := by
    rintro rfl
    simp at exact_
    omega
  have ring := SlaveRing.mem_ofIds distinct some_
  have firstOnRing :=
    (SlaveRing.ofIds distinct some_).isFirst_findSlaveAfterLong (hashTo64bit key)
  have nextOnRing := (SlaveRing.ofIds distinct some_).isNext_findSuccessor
    ((SlaveRing.ofIds distinct some_).findFirstReplica key)
  rcases exists_other distinct (by omega) ((SlaveRing.ofIds distinct some_).findFirstReplica key).1
    with ⟨other, inside, different⟩
  refine ⟨_, _, firstOnRing.congr ring, nextOnRing.congr ring,
    nextOnRing.ne other ((ring other).mpr inside) different, fun first later given => ?_⟩
  rcases sound_afterCalls getSlaveID numSlaves first with
    ⟨before, entries, done, sound, sameBound, accounts⟩
  rcases accounts.ids_of_exact sound sameBound distinct exact_ given with ⟨full, members⟩
  rcases sound.later (by omega) later with ⟨registry, changed, run, kept, sameIds⟩
  have filled : changed ≠ [] := by
    rintro rfl
    have length := congrArg List.length sameIds
    simp at length
    omega
  have onRegistry (id : BitVec 64) : id ∈ (kept.toRing filled).ids <->
      id ∈ (SlaveRing.ofIds distinct some_).ids := by
    rw [ring id, <- members id, <- sameIds]
    rfl
  rcases kept.findSlaveAfterLong_spec filled (hashTo64bit key) with ⟨one, inOne, found, oneId⟩
  rcases kept.findSuccessor_spec filled inOne with ⟨two, _, next, twoId⟩
  have firstSame : getSlaveID one.2 =
      ((SlaveRing.ofIds distinct some_).findFirstReplica key).1 := by
    rw [oneId]
    exact ((kept.toRing filled).isFirst_findSlaveAfterLong _).unique firstOnRing onRegistry
  refine ⟨registry, one.2, two.2, ?_, ?_, firstSame, next, ?_⟩
  · rw [afterCalls, foldlM_append]
    rw [afterCalls] at done
    rw [done]
    exact run
  · simp only [findFirstReplica, if_neg (kept.size_ne_zero filled), found, map_some]
  · rw [twoId]
    have onNext := (kept.toRing filled).isNext_findSuccessor
      ⟨getSlaveID one.2, List.mem_map_of_mem inOne⟩
    rw [show (⟨getSlaveID one.2, List.mem_map_of_mem inOne⟩ : (kept.toRing filled).Slave).1 =
      ((SlaveRing.ofIds distinct some_).findFirstReplica key).1 from firstSame] at onNext
    exact onNext.unique nextOnRing onRegistry

/-! ## Objects that were replaced -/

section

variable (sound : Sound getSlaveID registry entries)

include sound

theorem Sound.mem_ids (some_ : entries ≠ []) (id : BitVec 64) :
    id ∈ (sound.toRing some_).ids <-> id ∈ registry.slaveIdMap.keys := by
  rw [<- AList.mem_keys, <- lookup_isSome, isSome_iff_exists]
  simp only [sound.ids, toRing, List.mem_map]
  constructor
  · rintro ⟨entry, inside, itsId⟩
    exact ⟨entry.2, itsId, entry.1, inside⟩
  · rintro ⟨slave, itsId, node, inside⟩
    exact ⟨(node, slave), inside, itsId⟩

/-- The successor of the object that is registered has the next ID. -/
theorem Sound.findSuccessor_registered (many : 2 <= registry.slaveIdMap.keys.length)
    (registered : registry.getSlave (getSlaveID slave) = some slave) :
    ∃ successor, registry.findSuccessor getSlaveID (some slave) = some (some successor) ∧
      IsNext registry.slaveIdMap.keys (getSlaveID slave) (getSlaveID successor) ∧
      getSlaveID successor ≠ getSlaveID slave := by
  rcases (sound.ids _ _).mp registered with ⟨_, node, inside⟩
  have some_ : entries ≠ [] := ne_nil_of_mem inside
  rcases sound.findSuccessor_spec some_ inside with ⟨next, _, found, itsId⟩
  have isNext := ((sound.toRing some_).isNext_findSuccessor
    ⟨getSlaveID slave, List.mem_map_of_mem inside⟩).congr (sound.mem_ids some_)
  rw [<- itsId] at isNext
  rcases exists_other (keys_nodup _) many (getSlaveID slave) with ⟨other, among, different⟩
  exact ⟨next.2, found, isNext, isNext.ne other among different⟩

/-- The successor of an object that was replaced is the one that replaced it. -/
theorem Sound.findSuccessor_replaced (known : getSlaveID slave ∈ registry.slaveIdMap.keys)
    (replaced : registry.getSlave (getSlaveID slave) ≠ some slave) :
    ∃ successor, registry.findSuccessor getSlaveID (some slave) = some (some successor) ∧
      getSlaveID successor = getSlaveID slave := by
  have unlisted : registry.slaveNodeMap.lookup slave = none := by
    cases found : registry.slaveNodeMap.lookup slave with
    | none => rfl
    | some node =>
      exact absurd ((sound.ids _ _).mpr ⟨rfl, node, (sound.nodes slave node).mp found⟩) replaced
  rw [<- AList.mem_keys, <- lookup_isSome, isSome_iff_exists] at known
  rcases known with ⟨other, registered⟩
  rcases (sound.ids _ _).mp registered with ⟨itsId, node, inside⟩
  have some_ : entries ≠ [] := ne_nil_of_mem inside
  have onRing : getSlaveID slave ∈ (sound.toRing some_).ids := by
    rw [<- itsId]
    exact List.mem_map_of_mem inside
  rcases sound.findSlaveAfterLong_spec some_ (getSlaveID slave) with ⟨entry, _, found, entryId⟩
  refine ⟨entry.2, ?_, ?_⟩
  · simp only [findSuccessor, if_neg (sound.size_ne_zero some_), unlisted, found, map_some]
  · rw [entryId]
    exact ((sound.toRing some_).isFirst_findSlaveAfterLong _).eq_of_mem onRing

end

/-- Among the objects with the ID of a registered slave, `findSuccessor` names the other replica
for exactly the one that is registered. -/
theorem findSuccessor_next_iff (getSlaveID : Info -> BitVec 64) (numSlaves : Int)
    (calls : List (Option Info)) :
    ∃ registry, afterCalls getSlaveID numSlaves calls = some registry ∧
      (2 <= registry.slaveIdMap.keys.length -> ∀ slave,
        getSlaveID slave ∈ registry.slaveIdMap.keys ->
        ∃ successor,
          registry.findSuccessor getSlaveID (some slave) = some (some successor) ∧
          (registry.getSlave (getSlaveID slave) = some slave <->
            IsNext registry.slaveIdMap.keys (getSlaveID slave) (getSlaveID successor) ∧
              getSlaveID successor ≠ getSlaveID slave)) := by
  rcases sound_afterCalls getSlaveID numSlaves calls with ⟨registry, entries, done, sound, _⟩
  refine ⟨registry, done, fun many slave known => ?_⟩
  by_cases registered : registry.getSlave (getSlaveID slave) = some slave
  · rcases sound.findSuccessor_registered many registered with ⟨successor, found, isNext, other⟩
    exact ⟨successor, found, fun _ => ⟨isNext, other⟩, fun _ => registered⟩
  · rcases sound.findSuccessor_replaced known registered with ⟨successor, found, same⟩
    exact ⟨successor, found, fun is => absurd is registered, fun next => absurd same next.2⟩

end Registry

end

namespace Registry

/-- Of two slaves the first registers again, as another object.  The successor of its old object
is the new one. -/
theorem findSuccessor_same_slave :
    ((afterCalls (fun slave : Nat × BitVec 64 => slave.2) 2
        [some (0, 1), some (1, 2), some (2, 1)]).map fun registry =>
      (registry.slaveIdMap.keys.length,
        registry.findSuccessor (fun slave => slave.2) (some (0, 1)))) =
      some (2, some (some (2, 1))) := by
  decide +kernel

/-- Two slaves register in descending order, and a third one is turned away. -/
theorem replica_placement_descending :
    ∃ (registry : Registry (BitVec 64)) (one two : BitVec 64),
      afterCalls (fun id => id) 2 [some 2, none, some 1, some 5] = some registry ∧
      registry.findFirstReplica (fun id => id) (some []) = some (some one) ∧
      registry.findSuccessor (fun id => id) (some one) = some (some two) ∧ two ≠ one := by
  have distinct : ([1, 2] : List (BitVec 64)).Nodup := by decide
  rcases replica_placement (fun id : BitVec 64 => id) distinct rfl (by decide) [] with
    ⟨firstId, secondId, _, _, different, placed⟩
  rcases placed [some 2, none, some 1] [some 5] (fun id => by simp [or_comm, eq_comm]) with
    ⟨registry, one, two, done, first, oneId, second, twoId⟩
  refine ⟨registry, one, two, done, first, second, ?_⟩
  rw [show two = secondId from twoId, show one = firstId from oneId]
  exact different

end Registry

end KVStore
end Codebank
