import Codebank.Foundation.Loop
import Codebank.KVStore.SlaveList

namespace Codebank
namespace KVStore

open Foundation List Option AList

/-!
# The registry of slaves

`TPCMaster` keeps its slaves three times: as nodes of a circular list, in a map from IDs, and
in a map from `TPCSlaveInfo` objects to nodes.  The objects have no `equals` of their own, so
the second map tells them apart by identity.
-/

section

variable {Info : Type} (getSlaveID : Info -> BitVec 64)

/-- The part of `TPCMaster` that keeps the slaves. -/
structure Registry (Info : Type) where
  numSlaves : Int
  slaveList : SlaveList Info
  slaveIdMap : Dict (BitVec 64) Info
  slaveNodeMap : Dict Info Nat
  numRegistered : Int

namespace Registry

variable [DecidableEq Info]

def new (numSlaves : Int) : Registry Info where
  numSlaves := numSlaves
  slaveList := SlaveList.new
  slaveIdMap := ∅
  slaveNodeMap := ∅
  numRegistered := 0

/-- `registerSlave`; `none` is the null reference. -/
def registerSlave (registry : Registry Info) : Option Info -> Option (Registry Info)
  | none => some registry
  | some slave =>
    match registry.slaveIdMap.lookup (getSlaveID slave) with
    | some oldInfo =>
      (registry.slaveNodeMap.lookup oldInfo).map fun node =>
        { registry with
          slaveList := registry.slaveList.setInfo node slave
          slaveIdMap := registry.slaveIdMap.insert (getSlaveID slave) slave
          slaveNodeMap := (registry.slaveNodeMap.erase oldInfo).insert slave node }
    | none =>
      if registry.numSlaves <= registry.slaveList.size then
        some registry
      else
        (registry.slaveList.addSlave getSlaveID slave).map fun added =>
          { registry with
            slaveList := added.2
            slaveIdMap := registry.slaveIdMap.insert (getSlaveID slave) slave
            slaveNodeMap := registry.slaveNodeMap.insert slave added.1
            numRegistered := registry.numRegistered + 1 }

/-- `getSlave` -/
def getSlave (registry : Registry Info) (slaveId : BitVec 64) : Option Info :=
  registry.slaveIdMap.lookup slaveId

def findSlaveAfterLong (registry : Registry Info) (n : BitVec 64) : Option Info :=
  registry.slaveList.getFront.bind
    (registry.slaveList.searchFrom getSlaveID n (registry.slaveList.size.toNat + 1))

/-- `findFirstReplica`; the inner `none` is the null result. -/
def findFirstReplica (registry : Registry Info) (key : Option JString) : Option (Option Info) :=
  match key with
  | none => some none
  | some key =>
    if registry.slaveList.size = 0 then some none
    else (registry.findSlaveAfterLong getSlaveID (hashTo64bit key)).map some

/-- `findSuccessor`.  The IDs of an unregistered slave are looked for like a hash. -/
def findSuccessor (registry : Registry Info) (firstReplica : Option Info) :
    Option (Option Info) :=
  match firstReplica with
  | none => some none
  | some firstReplica =>
    if registry.slaveList.size = 0 then some none
    else
      match registry.slaveNodeMap.lookup firstReplica with
      | none => (registry.findSlaveAfterLong getSlaveID (getSlaveID firstReplica)).map some
      | some firstNode =>
        match (registry.slaveList.next firstNode).bind registry.slaveList.info with
        | some second => some (some second)
        | none => (registry.slaveList.getFront.bind registry.slaveList.info).map some

/-- The calls of `registerSlave` on a new master, in order. -/
def afterCalls (numSlaves : Int) (calls : List (Option Info)) : Option (Registry Info) :=
  calls.foldlM (registerSlave getSlaveID) (new numSlaves)

end Registry

/-! ## The maps -/

namespace Registry

/-- The last slave with the ID among the calls. -/
def latest (calls : List (Option Info)) (id : BitVec 64) : Option Info :=
  (calls.reverse.filterMap fun call => call).find? fun slave => getSlaveID slave = id

theorem latest_append_none (calls : List (Option Info)) (id : BitVec 64) :
    latest getSlaveID (calls ++ [none]) id = latest getSlaveID calls id := by
  simp [latest]

theorem latest_append_some (calls : List (Option Info)) (slave : Info) (id : BitVec 64) :
    latest getSlaveID (calls ++ [some slave]) id =
      if getSlaveID slave = id then some slave else latest getSlaveID calls id := by
  unfold latest
  rw [reverse_append, reverse_singleton, singleton_append]
  by_cases same : getSlaveID slave = id <;> simp [same]

variable {changed : List (Nat × Info)} {calls : List (Option Info)} {slave : Info}
  {list : SlaveList Info} {entry : Nat × Info} {node : Nat}

variable {getSlaveID} in
/-- The latest slave with an ID is the one just given, or the call has another ID. -/
theorem latest_step (holds : list.Holds getSlaveID changed) (here : (node, slave) ∈ changed)
    (inside : entry ∈ changed) (old : getSlaveID entry.2 ≠ getSlaveID slave ->
      latest getSlaveID calls (getSlaveID entry.2) = some entry.2) :
    latest getSlaveID (calls ++ [some slave]) (getSlaveID entry.2) = some entry.2 := by
  rw [latest_append_some]
  by_cases same : getSlaveID slave = getSlaveID entry.2
  · rw [if_pos same, holds.eq_of_id inside here same.symm]
  · rw [if_neg same]
    exact old fun is => same is.symm

variable [DecidableEq Info] {getSlaveID}

/-- The list and the two maps hold the same slaves. -/
structure Sound (getSlaveID : Info -> BitVec 64) (registry : Registry Info)
    (entries : List (Nat × Info)) : Prop where
  list : registry.slaveList.Holds getSlaveID entries
  ids : ∀ id slave, registry.slaveIdMap.lookup id = some slave <->
    getSlaveID slave = id ∧ ∃ node, (node, slave) ∈ entries
  nodes : ∀ slave node, registry.slaveNodeMap.lookup slave = some node <->
    (node, slave) ∈ entries
  count : registry.numRegistered = entries.length
  bound : entries.length <= registry.numSlaves.toNat

variable {registry after : Registry Info} {entries left right : List (Nat × Info)}

theorem sound_new (numSlaves : Int) : Sound getSlaveID (new numSlaves : Registry Info) [] where
  list := SlaveList.Holds.new
  ids id slave := by simp [new]
  nodes slave node := by simp [new]
  count := rfl
  bound := Nat.zero_le _

/-- What a call of `registerSlave` does to the entries. -/
inductive Change (getSlaveID : Info -> BitVec 64) (registry : Registry Info) :
    Option Info -> List (Nat × Info) -> List (Nat × Info) -> Prop where
  | null {entries : List (Nat × Info)} : Change getSlaveID registry none entries entries
  | dropped {slave : Info} {entries : List (Nat × Info)}
      (absent : ∀ entry, entry ∈ entries -> getSlaveID entry.2 ≠ getSlaveID slave)
      (full : registry.numSlaves <= entries.length) :
      Change getSlaveID registry (some slave) entries entries
  | replaced {slave : Info} {entry : Nat × Info} {left right : List (Nat × Info)}
      (same : getSlaveID slave = getSlaveID entry.2) :
      Change getSlaveID registry (some slave) (left ++ entry :: right)
        (left ++ (entry.1, slave) :: right)
  | added {slave : Info} {node : Nat} {left right : List (Nat × Info)}
      (absent : ∀ entry, entry ∈ left ++ right -> getSlaveID entry.2 ≠ getSlaveID slave)
      (room : ((left ++ right).length : Int) < registry.numSlaves) :
      Change getSlaveID registry (some slave) (left ++ right) (left ++ (node, slave) :: right)

/-- A slave registers again. -/
theorem Sound.replace (sound : Sound getSlaveID registry (left ++ entry :: right))
    (same : getSlaveID slave = getSlaveID entry.2) :
    Sound getSlaveID { registry with
      slaveList := registry.slaveList.setInfo entry.1 slave
      slaveIdMap := registry.slaveIdMap.insert (getSlaveID slave) slave
      slaveNodeMap := (registry.slaveNodeMap.erase entry.2).insert slave entry.1 }
      (left ++ (entry.1, slave) :: right) := by
  have holds := sound.list.setInfo same
  have here : (entry.1, slave) ∈ left ++ (entry.1, slave) :: right := mem_middle.mpr (.inl rfl)
  refine
    { list := holds, ids := ?ids, nodes := ?nodes, count := ?count, bound := ?bound }
  case ids =>
    intro id other
    rw [lookup_insert_if]
    by_cases own : id = getSlaveID slave
    · rw [if_pos own]
      constructor
      · intro is
        cases is
        exact ⟨own.symm, entry.1, here⟩
      · rintro ⟨itsId, node, inside⟩
        have is := holds.eq_of_id inside here (itsId.trans own)
        rw [(Prod.mk.inj is).2]
    · rw [if_neg own, sound.ids id other]
      refine and_congr_right fun itsId => exists_congr fun node => ?_
      have notOld : (node, other) ≠ entry := by
        rintro rfl
        exact own (itsId.symm.trans same.symm)
      have notNew : (node, other) ≠ (entry.1, slave) := by
        intro is
        rw [(Prod.mk.inj is).2] at itsId
        exact own itsId.symm
      rw [mem_middle, mem_middle, or_iff_right notOld, or_iff_right notNew]
  case nodes =>
    intro other node
    rw [lookup_insert_if, lookup_erase_if]
    by_cases own : other = slave
    · subst own
      rw [if_pos rfl]
      constructor
      · intro is
        cases is
        exact here
      · intro inside
        rw [(Prod.mk.inj (holds.eq_of_id inside here rfl)).1]
    · rw [if_neg own]
      by_cases old : other = entry.2
      · rw [if_pos old]
        refine ⟨fun impossible => (by cases impossible), fun inside => ?_⟩
        have is := holds.eq_of_id inside here (by rw [old]; exact same.symm)
        exact absurd (Prod.mk.inj is).2 own
      · have notOld : (node, other) ≠ entry := fun is => old (by rw [<- is])
        have notNew : (node, other) ≠ (entry.1, slave) := fun is => own (Prod.mk.inj is).2
        rw [if_neg old, sound.nodes, mem_middle, mem_middle, or_iff_right notOld,
          or_iff_right notNew]
  case count =>
    rw [sound.count]
    simp
  case bound =>
    have bound := sound.bound
    simpa using bound

/-- A slave registers for the first time. -/
theorem Sound.add (sound : Sound getSlaveID registry (left ++ right))
    (holds : list.Holds getSlaveID (left ++ (node, slave) :: right))
    (absent : ∀ entry, entry ∈ left ++ right -> getSlaveID entry.2 ≠ getSlaveID slave)
    (room : ((left ++ right).length : Int) < registry.numSlaves) :
    Sound getSlaveID { registry with
      slaveList := list
      slaveIdMap := registry.slaveIdMap.insert (getSlaveID slave) slave
      slaveNodeMap := registry.slaveNodeMap.insert slave node
      numRegistered := registry.numRegistered + 1 } (left ++ (node, slave) :: right) := by
  have here : (node, slave) ∈ left ++ (node, slave) :: right := mem_middle.mpr (.inl rfl)
  refine
    { list := holds, ids := ?ids, nodes := ?nodes, count := ?count, bound := ?bound }
  case ids =>
    intro id other
    rw [lookup_insert_if]
    by_cases own : id = getSlaveID slave
    · rw [if_pos own]
      constructor
      · intro is
        cases is
        exact ⟨own.symm, node, here⟩
      · rintro ⟨itsId, place, inside⟩
        have is := holds.eq_of_id inside here (itsId.trans own)
        rw [(Prod.mk.inj is).2]
    · rw [if_neg own, sound.ids id other]
      refine and_congr_right fun itsId => exists_congr fun place => ?_
      have notNew : (place, other) ≠ (node, slave) := by
        intro is
        rw [(Prod.mk.inj is).2] at itsId
        exact own itsId.symm
      rw [mem_middle, or_iff_right notNew]
  case nodes =>
    intro other place
    rw [lookup_insert_if]
    by_cases own : other = slave
    · subst own
      rw [if_pos rfl]
      constructor
      · intro is
        cases is
        exact here
      · intro inside
        rw [(Prod.mk.inj (holds.eq_of_id inside here rfl)).1]
    · have notNew : (place, other) ≠ (node, slave) := fun is => own (Prod.mk.inj is).2
      rw [if_neg own, sound.nodes, mem_middle, or_iff_right notNew]
  case count =>
    rw [sound.count]
    simp
    omega
  case bound =>
    simp only [length_append, length_cons] at room ⊢
    omega

/-- One call keeps the list and the maps together. -/
theorem Sound.registerSlave (sound : Sound getSlaveID registry entries) (call : Option Info) :
    ∃ after changed, registry.registerSlave getSlaveID call = some after ∧
      Sound getSlaveID after changed ∧ after.numSlaves = registry.numSlaves ∧
      Change getSlaveID registry call entries changed := by
  cases call with
  | none => exact ⟨registry, entries, rfl, sound, rfl, .null⟩
  | some slave =>
    cases known : registry.slaveIdMap.lookup (getSlaveID slave) with
    | some oldInfo =>
      rcases (sound.ids _ _).mp known with ⟨same, node, inside⟩
      rcases append_of_mem inside with ⟨left, right, split⟩
      subst split
      refine ⟨_, left ++ (node, slave) :: right, ?_, sound.replace same.symm, rfl,
        .replaced same.symm⟩
      simp only [Registry.registerSlave, known, (sound.nodes oldInfo node).mpr inside,
        map_some]
    | none =>
      have absent (entry : Nat × Info) (inside : entry ∈ entries) :
          getSlaveID entry.2 ≠ getSlaveID slave := by
        intro same
        have found := (sound.ids _ _).mpr ⟨same, entry.1, inside⟩
        rw [known] at found
        cases found
      have size := sound.list.size
      by_cases full : registry.numSlaves <= registry.slaveList.size
      · refine ⟨registry, entries, ?_, sound, rfl, .dropped absent (size ▸ full)⟩
        simp only [Registry.registerSlave, known, if_pos full]
      · rcases sound.list.addSlave_spec absent with ⟨left, right, list, split, done, holds⟩
        subst split
        have fits : ((left ++ right).length : Int) < registry.numSlaves := by omega
        refine ⟨_, left ++ (registry.slaveList.fresh, slave) :: right, ?_,
          sound.add holds absent fits, rfl, .added absent fits⟩
        simp only [Registry.registerSlave, known, if_neg full, done, map_some]

/-! ## Histories -/

/-- What the entries after some calls have to do with the calls. -/
structure Accounts (getSlaveID : Info -> BitVec 64) (numSlaves : Int) (calls : List (Option Info))
    (entries : List (Nat × Info)) : Prop where
  /-- the slave of an ID is the last one that was given -/
  latest : ∀ entry, entry ∈ entries ->
    Registry.latest getSlaveID calls (getSlaveID entry.2) = some entry.2
  /-- while there is room, every ID given is registered -/
  room : (entries.length : Int) < numSlaves -> ∀ slave, some slave ∈ calls ->
    ∃ entry, entry ∈ entries ∧ getSlaveID entry.2 = getSlaveID slave

theorem Accounts.step {call : Option Info}
    (accounts : Accounts getSlaveID registry.numSlaves calls entries)
    (sound : Sound getSlaveID after changed)
    (change : Change getSlaveID registry call entries changed) :
    Accounts getSlaveID registry.numSlaves (calls ++ [call]) changed := by
  cases change with
  | null =>
    refine ⟨fun entry inside => ?_, fun room slave given => ?_⟩
    · rw [latest_append_none]
      exact accounts.latest entry inside
    · exact accounts.room room slave (by simpa using given)
  | @dropped slave _ absent full =>
    refine ⟨fun entry inside => ?_, fun room => ?_⟩
    · rw [latest_append_some, if_neg (absent entry inside).symm]
      exact accounts.latest entry inside
    · omega
  | @replaced slave entry left right same =>
    have here : (entry.1, slave) ∈ left ++ (entry.1, slave) :: right := mem_middle.mpr (.inl rfl)
    refine ⟨fun other inside => latest_step sound.list here inside fun different => ?_,
      fun room slave' given => ?_⟩
    · rcases mem_middle.mp inside with is | inside
      · exact absurd (by rw [is]) different
      · exact accounts.latest other (mem_middle.mpr (.inr inside))
    · rcases mem_append.mp given with earlier | now
      · rcases accounts.room (by simpa using room) slave' earlier with ⟨other, inside, itsId⟩
        rcases mem_middle.mp inside with is | inside
        · exact ⟨_, here, by rw [same, <- is]; exact itsId⟩
        · exact ⟨other, mem_middle.mpr (.inr inside), itsId⟩
      · exact ⟨_, here, by rw [some.inj (mem_singleton.mp now)]⟩
  | @added slave node left right absent _ =>
    have here : (node, slave) ∈ left ++ (node, slave) :: right := mem_middle.mpr (.inl rfl)
    refine ⟨fun other inside => latest_step sound.list here inside fun different => ?_,
      fun room slave' given => ?_⟩
    · rcases mem_middle.mp inside with is | inside
      · exact absurd (by rw [is]) different
      · exact accounts.latest other inside
    · rcases mem_append.mp given with earlier | now
      · have before : ((left ++ right).length : Int) < registry.numSlaves := by
          simp only [length_append, length_cons] at room ⊢
          omega
        rcases accounts.room before slave' earlier with ⟨other, inside, itsId⟩
        exact ⟨other, mem_middle.mpr (.inr inside), itsId⟩
      · exact ⟨_, here, by rw [some.inj (mem_singleton.mp now)]⟩

/-- After every history of calls the registry is sound. -/
theorem sound_afterCalls (getSlaveID : Info -> BitVec 64) (numSlaves : Int)
    (calls : List (Option Info)) :
    ∃ registry entries, afterCalls getSlaveID numSlaves calls = some registry ∧
      Sound getSlaveID registry entries ∧ registry.numSlaves = numSlaves ∧
      Accounts getSlaveID numSlaves calls entries := by
  induction calls using List.reverseRecOn with
  | nil =>
    exact ⟨new numSlaves, [], rfl, sound_new numSlaves, rfl,
      ⟨fun _ impossible => (by cases impossible), fun _ _ impossible => (by cases impossible)⟩⟩
  | append_singleton calls call ih =>
    rcases ih with ⟨registry, entries, done, sound, same, accounts⟩
    rcases sound.registerSlave call with ⟨after, changed, step, kept, sameAfter, change⟩
    refine ⟨after, changed, ?_, kept, sameAfter.trans same, ?_⟩
    · rw [afterCalls, foldlM_append]
      rw [afterCalls] at done
      rw [done]
      simp [step]
    · subst same
      exact accounts.step kept change

end Registry

end

end KVStore
end Codebank
