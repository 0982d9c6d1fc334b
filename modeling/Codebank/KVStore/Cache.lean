import Codebank.KVStore.Message

namespace Codebank
namespace KVStore

open List Option

/-!
# The second-chance cache

`KVCache` is an array of linked lists.  A key selects one list through
`Math.abs(key.hashCode()) % numSets`; the selection can leave the array when
the hash code is the minimal `int`, and the array access then throws.

The lists themselves are modelled by their entries in order.  What every list
keeps across the operations (at most `maxElemsPerSet` entries, no key twice,
only keys that select this list) is carried by the types `CacheSet` and
`KVCache`, so later modules never have to re-establish it.
-/

/-- The two constructor arguments of a `KVCache`.  A cache without lists, or
with lists that can hold nothing, cannot serve any key. -/
structure CacheConfig where
  numSets : Nat
  maxElemsPerSet : Nat
  numSets_pos : 0 < numSets
  maxElemsPerSet_pos : 0 < maxElemsPerSet

structure KVCacheEntry where
  key : JString
  value : JString
  isReferenced : Bool
  deriving DecidableEq, Repr

def KVCacheEntry.clear (entry : KVCacheEntry) : KVCacheEntry :=
  { entry with isReferenced := false }

/-- `Math.abs(key.hashCode()) % numSets`, with Java's remainder, which takes
the sign of the dividend. -/
def setIndex (numSets : Nat) (key : JString) : Int :=
  (mathAbs key.hashCode).toInt.tmod numSets

/-- The list a key selects, if the index lies inside the array. -/
def setIndex? (numSets : Nat) (key : JString) : Option (Fin numSets) :=
  if inside : 0 <= setIndex numSets key ∧ setIndex numSets key < numSets then
    some ⟨(setIndex numSets key).toNat, by omega⟩
  else none

/-- The key's list index lies inside the arrays of the cache. -/
def InRange (config : CacheConfig) (key : JString) : Prop :=
  (setIndex? config.numSets key).isSome = true

instance (config : CacheConfig) (key : JString) : Decidable (InRange config key) :=
  inferInstanceAs (Decidable (_ = true))

/-! ## One list of the cache -/

/-- The policy: which entry of a full queue goes, and the queue that is left.  If all entries are
marked, the first one goes after all marks are gone. -/
inductive SecondChance : List KVCacheEntry -> KVCacheEntry -> List KVCacheEntry -> Prop
  | unreferenced (before : List KVCacheEntry) (victim : KVCacheEntry) (rest : List KVCacheEntry) :
      (∀ entry, entry ∈ before -> entry.isReferenced = true) ->
      victim.isReferenced = false ->
      SecondChance (before ++ victim :: rest) victim (rest ++ before.map KVCacheEntry.clear)
  | allReferenced (victim : KVCacheEntry) (rest : List KVCacheEntry) :
      (∀ entry, entry ∈ victim :: rest -> entry.isReferenced = true) ->
      SecondChance (victim :: rest) victim (rest.map KVCacheEntry.clear)

namespace CacheEntries

variable {key value : JString}

/-- The key and value of every entry, which is all that callers observe. -/
def pairs (entries : List KVCacheEntry) : List (JString × JString) :=
  entries.map (fun entry => (entry.key, entry.value))

def keys (entries : List KVCacheEntry) : List JString :=
  entries.map KVCacheEntry.key

theorem keys_eq_pairs_fst (entries : List KVCacheEntry) :
    keys entries = (pairs entries).map Prod.fst := by
  simp [keys, pairs]

theorem fst_mem_keys {entries : List KVCacheEntry} {pair : JString × JString}
    (member : pair ∈ pairs entries) : pair.1 ∈ keys entries := by
  rw [keys_eq_pairs_fst]
  exact List.mem_map_of_mem member

/-- The loop of `KVCache.get`: the first entry with this key is marked and
moved to the end of the list. -/
def get (key : JString) (entries : List KVCacheEntry) :
    Option (JString × List KVCacheEntry) :=
  match entries.find? (fun entry => entry.key == key) with
  | none => none
  | some entry =>
    some (entry.value,
      entries.eraseP (fun other => other.key == key) ++ [{ entry with isReferenced := true }])

/-- The first loop of `KVCache.put`: overwrite an existing entry in place. -/
def overwrite (key value : JString) : List KVCacheEntry -> Option (List KVCacheEntry)
  | [] => none
  | entry :: rest =>
    if entry.key = key then
      some ({ entry with value := value, isReferenced := true } :: rest)
    else (overwrite key value rest).map (entry :: ·)

/-- The eviction loop of `KVCache.put`, with the remaining iterations as first
argument.  `removeFirst` on an empty list throws, which is `none` here. -/
def evict : Nat -> List KVCacheEntry -> Option (List KVCacheEntry)
  | 0, entries => some entries
  | _ + 1, [] => none
  | iterations + 1, entry :: rest =>
    if entry.isReferenced then
      evict iterations (rest ++ [{ entry with isReferenced := false }])
    else some rest

/-- The body of `KVCache.put` on the selected list. -/
def put (maxElemsPerSet : Nat) (key value : JString) (entries : List KVCacheEntry) :
    Option (List KVCacheEntry) :=
  match overwrite key value entries with
  | some updated => some updated
  | none =>
    let room :=
      if entries.length = maxElemsPerSet then evict (maxElemsPerSet + 1) entries
      else some entries
    room.map (fun kept => kept ++ [{ key := key, value := value, isReferenced := true }])

/-- The loop of `KVCache.del`. -/
def del (key : JString) (entries : List KVCacheEntry) : List KVCacheEntry :=
  entries.eraseP (fun entry => entry.key == key)

variable {entries : List KVCacheEntry}

theorem find_none_iff :
    entries.find? (fun entry => entry.key == key) = none <-> key ∉ keys entries := by
  rw [find?_eq_none]
  constructor
  · intro absent member
    rcases List.mem_map.mp member with ⟨entry, entryMember, same⟩
    exact absent entry entryMember (by simpa using same)
  · intro absent entry entryMember same
    exact absent (List.mem_map.mpr ⟨entry, entryMember, by simpa using same⟩)

variable {after : List KVCacheEntry}

/-- A key that is there splits the list at its first entry. -/
theorem split_at (present : key ∈ keys entries) :
    ∃ before entry rest, entries = before ++ entry :: rest ∧ entry.key = key ∧
      key ∉ keys before := by
  induction entries with
  | nil => cases present
  | cons first entries ih =>
    by_cases same : first.key = key
    · exact ⟨[], first, entries, rfl, same, not_mem_nil⟩
    · rcases ih ((mem_cons.mp present).resolve_left (Ne.symm same)) with
        ⟨before, entry, rest, rfl, found, absent⟩
      exact ⟨first :: before, entry, rest, rfl, found, fun member =>
        (mem_cons.mp member).elim (fun is => same is.symm) absent⟩

section

variable {before rest : List KVCacheEntry} {entry : KVCacheEntry} (absent : entry.key ∉ keys before)

include absent

theorem eraseP_middle :
    (before ++ entry :: rest).eraseP (fun other => other.key == entry.key) = before ++ rest := by
  rw [eraseP_append_right _ (find?_eq_none.mp (find_none_iff.mpr absent)),
    eraseP_cons_of_pos (by simp)]

theorem get_middle : get entry.key (before ++ entry :: rest) =
    some (entry.value, before ++ rest ++ [{ entry with isReferenced := true }]) := by
  rw [get, find?_append, find_none_iff.mpr absent, none_or,
    find?_cons_of_pos (by simp), eraseP_middle absent]

theorem overwrite_middle : overwrite entry.key value (before ++ entry :: rest) =
    some (before ++ { entry with value := value, isReferenced := true } :: rest) := by
  induction before with
  | nil => exact if_pos rfl
  | cons first before ih =>
    rcases not_or.mp (mt mem_cons.mpr absent) with ⟨different, later⟩
    rw [cons_append, overwrite, if_neg (Ne.symm different), ih later]
    rfl

end

theorem mem_pairs_middle {before rest : List KVCacheEntry} {entry : KVCacheEntry}
    {pair : JString × JString} : pair ∈ pairs (before ++ entry :: rest) <->
      pair = (entry.key, entry.value) ∨ pair ∈ pairs (before ++ rest) :=
  (perm_middle.map _).mem_iff.trans mem_cons

/-- With distinct keys, the other pairs are those with another key. -/
theorem mem_pairs_others {before rest : List KVCacheEntry} {entry : KVCacheEntry}
    (nodup : (keys (before ++ entry :: rest)).Nodup) (pair : JString × JString) :
    pair ∈ pairs (before ++ rest) <->
      pair.1 ≠ entry.key ∧ pair ∈ pairs (before ++ entry :: rest) := by
  have other : entry.key ∉ keys (before ++ rest) := by
    rw [keys, map_append, map_cons, nodup_middle, <- map_append] at nodup
    exact (nodup_cons.mp nodup).1
  rw [mem_pairs_middle]
  constructor
  · exact fun member => ⟨fun same => other (same ▸ fst_mem_keys member), .inr member⟩
  · rintro ⟨different, rfl | member⟩
    · exact absurd rfl different
    · exact member

/-- A hit reorders the list, but keeps exactly the same pairs. -/
theorem get_some (hit : get key entries = some (value, after)) :
    (key, value) ∈ pairs entries ∧ (pairs after).Perm (pairs entries) := by
  by_cases present : key ∈ keys entries
  · rcases split_at present with ⟨before, entry, rest, rfl, rfl, absent⟩
    rw [get_middle absent] at hit
    cases hit
    have moved : (pairs (before ++ entry :: rest)).Perm (pairs (entry :: (before ++ rest))) :=
      perm_middle.map _
    exact ⟨mem_pairs_middle.mpr (.inl rfl),
      ((perm_append_singleton _ _).map _).trans moved.symm⟩
  · rw [get, find_none_iff.mpr present] at hit
    cases hit

theorem get_none (miss : get key entries = none) : key ∉ keys entries := by
  intro present
  rcases split_at present with ⟨before, entry, rest, rfl, rfl, absent⟩
  rw [get_middle absent] at miss
  cases miss

theorem overwrite_none_iff : overwrite key value entries = none <-> key ∉ keys entries := by
  induction entries with
  | nil => simp [overwrite, keys]
  | cons entry rest ih =>
    by_cases same : entry.key = key
    · simp [overwrite, keys, same]
    · simp only [overwrite, if_neg same, map_eq_none_iff, ih]
      simp [keys, Ne.symm same]

/-- Marked entries at the front go to the back without their mark. -/
theorem evict_rotates {before : List KVCacheEntry}
    (marked : ∀ entry, entry ∈ before -> entry.isReferenced = true) (iterations : Nat)
    (rest : List KVCacheEntry) :
    evict (before.length + iterations) (before ++ rest) =
      evict iterations (rest ++ before.map KVCacheEntry.clear) := by
  induction before generalizing rest with
  | nil => rw [length_nil, Nat.zero_add, map_nil, append_nil, nil_append]
  | cons entry before ih =>
    have step := ih (fun other member => marked other (mem_cons_of_mem _ member))
      (rest ++ [entry.clear])
    rw [length_cons, Nat.add_right_comm, cons_append, evict,
      if_pos (marked entry mem_cons_self), append_assoc, map_cons]
    rw [append_assoc, singleton_append] at step
    exact step

/-- The queue splits at the first entry without a mark, if there is one. -/
theorem split_referenced (entries : List KVCacheEntry) :
    (∀ entry, entry ∈ entries -> entry.isReferenced = true) ∨
      ∃ before victim rest, entries = before ++ victim :: rest ∧
        (∀ entry, entry ∈ before -> entry.isReferenced = true) ∧
        victim.isReferenced = false := by
  induction entries with
  | nil => exact .inl fun _ member => absurd member not_mem_nil
  | cons entry entries ih =>
    cases marked : entry.isReferenced with
    | false => exact .inr ⟨[], entry, entries, rfl, fun _ member =>
      absurd member not_mem_nil, marked⟩
    | true =>
      rcases ih with allMarked | ⟨before, victim, rest, rfl, markedBefore, unmarked⟩
      · refine .inl fun other member => ?_
        rcases mem_cons.mp member with rfl | later
        · exact marked
        · exact allMarked other later
      · refine .inr ⟨entry :: before, victim, rest, rfl, fun other member => ?_, unmarked⟩
        rcases mem_cons.mp member with rfl | later
        · exact marked
        · exact markedBefore other later

/-- The loop with its bound of one more than the size follows the policy. -/
theorem evict_secondChance {entries : List KVCacheEntry} (nonempty : entries ≠ []) :
    ∃ victim kept, SecondChance entries victim kept ∧
      evict (entries.length + 1) entries = some kept := by
  rcases split_referenced entries with marked | ⟨before, victim, rest, rfl, marked, unmarked⟩
  · cases entries with
    | nil => exact absurd rfl nonempty
    | cons victim rest =>
      refine ⟨victim, rest.map KVCacheEntry.clear, .allReferenced victim rest marked, ?_⟩
      have rotated := evict_rotates marked 1 []
      rw [append_nil, nil_append] at rotated
      rw [rotated]
      rfl
  · refine ⟨victim, _, .unreferenced before victim rest marked unmarked, ?_⟩
    have bound : (before ++ victim :: rest).length + 1 = before.length + (rest.length + 1 + 1) := by
      rw [length_append, length_cons, Nat.add_assoc]
    rw [bound, evict_rotates marked, cons_append, evict, unmarked]
    rfl

theorem pairs_clear (entries : List KVCacheEntry) :
    pairs (entries.map KVCacheEntry.clear) = pairs entries := by
  rw [pairs, List.map_map]
  rfl

/-- Only the victim goes. -/
theorem pairs_secondChance {kept : List KVCacheEntry} {victim : KVCacheEntry}
    (policy : SecondChance entries victim kept) :
    ((victim.key, victim.value) :: pairs kept).Perm (pairs entries) := by
  cases policy with
  | unreferenced before victim rest =>
    have kept : pairs (rest ++ before.map KVCacheEntry.clear) = pairs (rest ++ before) := by
      rw [pairs, map_append, <- pairs, <- pairs, pairs_clear, pairs, pairs, <- map_append, <- pairs]
    have moved : (victim :: (rest ++ before)).Perm (before ++ victim :: rest) :=
      (perm_append_comm.cons victim).trans perm_middle.symm
    rw [kept]
    exact moved.map fun entry => (entry.key, entry.value)
  | allReferenced victim rest => rw [pairs_clear, pairs, pairs, map_cons]

/-- What `put` makes of a list: it overwrites the entry of the key, or puts a new one behind
the others, after the policy has made room for it. -/
theorem put_cases {maxElemsPerSet : Nat} (positive : 0 < maxElemsPerSet) (key value : JString)
    (size : entries.length <= maxElemsPerSet) :
    (∃ before entry rest, entries = before ++ entry :: rest ∧ entry.key = key ∧
      put maxElemsPerSet key value entries =
        some (before ++ { entry with value := value, isReferenced := true } :: rest)) ∨
    key ∉ keys entries ∧ ∃ kept,
      put maxElemsPerSet key value entries = some (kept ++ [⟨key, value, true⟩]) ∧
      (entries.length < maxElemsPerSet ∧ kept = entries ∨
        entries.length = maxElemsPerSet ∧ ∃ victim, SecondChance entries victim kept) := by
  by_cases present : key ∈ keys entries
  · rcases split_at present with ⟨before, entry, rest, rfl, rfl, absent⟩
    exact .inl ⟨before, entry, rest, rfl, rfl, by rw [put, overwrite_middle absent]⟩
  · refine .inr ⟨present, ?_⟩
    simp only [put, overwrite_none_iff.mpr present]
    by_cases full : entries.length = maxElemsPerSet
    · have nonempty : entries ≠ [] := length_pos_iff.mp (full ▸ positive)
      rcases evict_secondChance nonempty with ⟨victim, kept, policy, evicted⟩
      refine ⟨kept, ?_, .inr ⟨full, victim, policy⟩⟩
      rw [if_pos full, <- full, evicted]
      rfl
    · refine ⟨entries, ?_, .inl ⟨Nat.lt_of_le_of_ne size full, rfl⟩⟩
      rw [if_neg full]
      rfl

/-- What `put` leaves in a list: it never throws on a list that can hold an
entry, the new pair is there, and every other pair was there before. -/
theorem put_spec {maxElemsPerSet : Nat} (positive : 0 < maxElemsPerSet) (key value : JString)
    (size : entries.length <= maxElemsPerSet) (nodup : (keys entries).Nodup) :
    ∃ after, put maxElemsPerSet key value entries = some after ∧
      after.length <= maxElemsPerSet ∧ (keys after).Nodup ∧ (key, value) ∈ pairs after ∧
      ∀ pair, pair ∈ pairs after ->
        pair = (key, value) ∨ (pair.1 ≠ key ∧ pair ∈ pairs entries) := by
  rcases put_cases positive key value size with
    ⟨before, entry, rest, rfl, rfl, done⟩ | ⟨absent, kept, done, made⟩
  · refine ⟨_, done, by simpa using size, by simpa [keys] using nodup,
      mem_pairs_middle.mpr (.inl rfl), fun pair member => ?_⟩
    rcases mem_pairs_middle.mp member with new | old
    · exact .inl new
    · exact .inr ((mem_pairs_others nodup pair).mp old)
  · -- Both ways to make room leave some of the old pairs, one place free and no duplicates.
    have room : kept.length < maxElemsPerSet ∧ (keys kept).Nodup ∧
        ∀ pair, pair ∈ pairs kept -> pair ∈ pairs entries := by
      rcases made with ⟨fits, rfl⟩ | ⟨full, victim, policy⟩
      · exact ⟨fits, nodup, fun _ member => member⟩
      · have permutation := pairs_secondChance policy
        have lengths := permutation.length_eq
        simp only [pairs, length_cons, length_map] at lengths
        have allKeys := (permutation.map Prod.fst).nodup_iff.mpr
          (keys_eq_pairs_fst entries ▸ nodup)
        rw [map_cons, <- keys_eq_pairs_fst] at allKeys
        exact ⟨by omega, (nodup_cons.mp allKeys).2, fun pair member =>
          permutation.subset (mem_cons_of_mem _ member)⟩
    rcases room with ⟨free, keptNodup, fromOld⟩
    have keptAbsent : key ∉ keys kept := by
      intro member
      rw [keys_eq_pairs_fst] at member
      rcases List.mem_map.mp member with ⟨pair, pairMember, same⟩
      apply absent
      rw [<- same]
      exact fst_mem_keys (fromOld pair pairMember)
    refine ⟨_, done, by simpa [Nat.succ_le_iff] using free, ?_, by simp [pairs],
      fun pair member => ?_⟩
    · simp only [keys, map_append, map_cons, map_nil]
      exact List.Nodup.append keptNodup (nodup_singleton key)
        (disjoint_singleton.mpr keptAbsent)
    · simp only [pairs, map_append, map_cons, map_nil] at member
      rcases mem_append.mp member with old | new
      · exact .inr ⟨fun same => keptAbsent (same ▸ fst_mem_keys old), fromOld pair old⟩
      · exact .inl (mem_singleton.mp new)

/-- Deleting drops the key's pair and nothing else. -/
theorem mem_pairs_del (nodup : (keys entries).Nodup) (pair : JString × JString) :
    pair ∈ pairs (del key entries) <-> pair.1 ≠ key ∧ pair ∈ pairs entries := by
  by_cases present : key ∈ keys entries
  · rcases split_at present with ⟨before, entry, rest, rfl, rfl, absent⟩
    rw [del, eraseP_middle absent, mem_pairs_others nodup]
  · rw [del, eraseP_of_forall_not (find?_eq_none.mp (find_none_iff.mpr present))]
    exact ⟨fun member => ⟨fun same => present (same ▸ fst_mem_keys member), member⟩, And.right⟩

/-- Deleting leaves a sublist, so it cannot add entries or duplicate keys. -/
theorem del_sublist (key : JString) (entries : List KVCacheEntry) :
    (del key entries).Sublist entries :=
  eraseP_sublist

end CacheEntries

/-! ## The whole cache -/

open CacheEntries (keys pairs fst_mem_keys)

/-- What every list of the cache keeps across the operations. -/
structure SetInvariant (config : CacheConfig) (index : Fin config.numSets)
    (entries : List KVCacheEntry) : Prop where
  size_le : entries.length <= config.maxElemsPerSet
  keys_nodup : (keys entries).Nodup
  home : ∀ key, key ∈ keys entries ->
    setIndex? config.numSets key = some index

namespace SetInvariant

variable {config : CacheConfig} {index : Fin config.numSets}

theorem nil : SetInvariant config index [] where
  size_le := Nat.zero_le _
  keys_nodup := nodup_nil
  home := fun _ member => False.elim (not_mem_nil member)

theorem get {entries after : List KVCacheEntry} {key value : JString}
    (invariant : SetInvariant config index entries)
    (hit : CacheEntries.get key entries = some (value, after)) :
    SetInvariant config index after := by
  have permutation := (CacheEntries.get_some hit).2
  have keysPerm : (keys after).Perm (keys entries) := by
    rw [CacheEntries.keys_eq_pairs_fst, CacheEntries.keys_eq_pairs_fst]
    exact permutation.map Prod.fst
  constructor
  · have lengths := permutation.length_eq
    simp only [pairs, length_map] at lengths
    exact lengths ▸ invariant.size_le
  · exact keysPerm.nodup_iff.mpr invariant.keys_nodup
  · intro other member
    exact invariant.home other (keysPerm.mem_iff.mp member)

theorem put {entries after : List KVCacheEntry} {key value : JString}
    (invariant : SetInvariant config index entries)
    (selected : setIndex? config.numSets key = some index)
    (done : CacheEntries.put config.maxElemsPerSet key value entries = some after) :
    SetInvariant config index after := by
  rcases CacheEntries.put_spec config.maxElemsPerSet_pos key value
    invariant.size_le invariant.keys_nodup with ⟨result, same, size, nodup, _, fromOld⟩
  have sameResult : result = after := some.inj (same.symm.trans done)
  subst sameResult
  refine ⟨size, nodup, ?_⟩
  intro other member
  rw [CacheEntries.keys_eq_pairs_fst] at member
  rcases List.mem_map.mp member with ⟨pair, pairMember, sameKey⟩
  rcases fromOld pair pairMember with new | old
  · rw [<- sameKey, new]
    exact selected
  · apply invariant.home
    rw [<- sameKey]
    exact fst_mem_keys old.2

theorem del {entries : List KVCacheEntry} (invariant : SetInvariant config index entries)
    (key : JString) : SetInvariant config index (CacheEntries.del key entries) := by
  have sublist := CacheEntries.del_sublist key entries
  have keysSublist : (keys (CacheEntries.del key entries)).Sublist
      (keys entries) := sublist.map _
  refine ⟨le_trans sublist.length_le invariant.size_le,
    invariant.keys_nodup.sublist keysSublist, ?_⟩
  intro other member
  exact invariant.home other (keysSublist.subset member)

end SetInvariant

/-- `KVCache`: the array of lists, each with its invariant. -/
structure KVCache (config : CacheConfig) where
  sets : Fin config.numSets -> List KVCacheEntry
  invariant : ∀ index, SetInvariant config index (sets index)

namespace KVCache

variable {config : CacheConfig} {key : JString}

/-- `new KVCache(numSets, maxElemsPerSet)`. -/
def empty : KVCache config where
  sets := fun _ => []
  invariant := fun _ => SetInvariant.nil

/-- Mutate one list of the array. -/
def replaceSet (cache : KVCache config) (index : Fin config.numSets)
    (entries : List KVCacheEntry) (invariant : SetInvariant config index entries) :
    KVCache config where
  sets := fun other => if other = index then entries else cache.sets other
  invariant := by
    intro other
    by_cases same : other = index
    · subst same
      rw [if_pos rfl]
      exact invariant
    · rw [if_neg same]
      exact cache.invariant other

/-- `getLock`: the lock of the key's list, named by its index. -/
def getLock (_cache : KVCache config) (key : Option JString) :
    Except Fault (Option (Fin config.numSets)) :=
  match key with
  | none => .ok none
  | some key =>
    if key.length = 0 then .ok none
    else match setIndex? config.numSets key with
      | none => .error .arrayIndexOutOfBounds
      | some index => .ok (some index)

def get (cache : KVCache config) (key : Option JString) :
    Except Fault (Option JString × KVCache config) :=
  match key with
  | none => .ok (none, cache)
  | some key =>
    if key.length = 0 then .ok (none, cache)
    else match setIndex? config.numSets key with
      | none => .error .arrayIndexOutOfBounds
      | some index =>
        match hit : CacheEntries.get key (cache.sets index) with
        | none => .ok (none, cache)
        | some (value, after) =>
          .ok (some value, cache.replaceSet index after ((cache.invariant index).get hit))

def put (cache : KVCache config) (key value : Option JString) :
    Except Fault (KVCache config) :=
  match key, value with
  | some key, some value =>
    if key.length = 0 ∨ value.length = 0 then .ok cache
    else match selected : setIndex? config.numSets key with
      | none => .error .arrayIndexOutOfBounds
      | some index =>
        match done : CacheEntries.put config.maxElemsPerSet key value
            (cache.sets index) with
        | none => .error .noSuchElement
        | some after =>
          .ok (cache.replaceSet index after
            ((cache.invariant index).put selected done))
  | _, _ => .ok cache

def del (cache : KVCache config) (key : Option JString) : Except Fault (KVCache config) :=
  match key with
  | none => .ok cache
  | some key =>
    if key.length = 0 then .ok cache
    else match setIndex? config.numSets key with
      | none => .error .arrayIndexOutOfBounds
      | some index =>
        .ok (cache.replaceSet index (CacheEntries.del key (cache.sets index))
          ((cache.invariant index).del key))

/-- The cache has an entry with this key and value in some list. -/
def Holds (cache : KVCache config) (key value : JString) : Prop :=
  ∃ index, (key, value) ∈ pairs (cache.sets index)

theorem not_holds_empty (key value : JString) : ¬ (empty : KVCache config).Holds key value := by
  rintro ⟨index, member⟩
  exact not_mem_nil member

variable {index : Fin config.numSets} {value : JString}

theorem selected_of_pair {cache : KVCache config}
    (member : (key, value) ∈ pairs (cache.sets index)) :
    setIndex? config.numSets key = some index :=
  (cache.invariant index).home key (fst_mem_keys member)

/-- An entry can only sit in the list its key selects. -/
theorem holds_iff_of_selected (cache : KVCache config)
    (selected : setIndex? config.numSets key = some index) (value : JString) :
    cache.Holds key value <-> (key, value) ∈ pairs (cache.sets index) := by
  constructor
  · rintro ⟨other, member⟩
    have same : other = index := some.inj ((selected_of_pair member).symm.trans selected)
    exact same ▸ member
  · intro member
    exact ⟨index, member⟩

/-- A cached key is one the cache can select a list for. -/
theorem Holds.inRange {cache : KVCache config} (held : cache.Holds key value) :
    InRange config key := by
  rcases held with ⟨index, member⟩
  rw [InRange, selected_of_pair member]
  rfl

/-- Entries of keys outside the replaced list are untouched by the replacement. -/
theorem holds_replaceSet (cache : KVCache config) (index : Fin config.numSets)
    (entries : List KVCacheEntry) (invariant : SetInvariant config index entries)
    (key value : JString) :
    (cache.replaceSet index entries invariant).Holds key value <->
      (key, value) ∈ pairs entries ∨
        ∃ other, other ≠ index ∧ (key, value) ∈ pairs (cache.sets other) := by
  constructor
  · rintro ⟨other, member⟩
    by_cases same : other = index
    · simp only [replaceSet, if_pos same] at member
      exact .inl member
    · simp only [replaceSet, if_neg same] at member
      exact .inr ⟨other, same, member⟩
  · rintro (member | ⟨other, different, member⟩)
    · refine ⟨index, ?_⟩
      simpa only [replaceSet, if_pos] using member
    · refine ⟨other, ?_⟩
      simpa only [replaceSet, if_neg different] using member

/-- A key of another list differs from any key that selects this one. -/
theorem key_ne_of_other_set (cache : KVCache config) {other : JString}
    {elsewhere : Fin config.numSets} (selected : setIndex? config.numSets key = some index)
    (different : elsewhere ≠ index)
    (member : (other, value) ∈ pairs (cache.sets elsewhere)) : other ≠ key := by
  intro same
  subst same
  exact different (some.inj ((selected_of_pair member).symm.trans selected))

theorem get_missed (cache : KVCache config) (nonempty : key.length ≠ 0)
    (selected : setIndex? config.numSets key = some index)
    (miss : CacheEntries.get key (cache.sets index) = none) :
    cache.get (some key) = .ok (none, cache) := by
  simp only [get, if_neg nonempty, selected]
  split
  · rfl
  · next found => rw [miss] at found; cases found

theorem get_selected (cache : KVCache config) {value : JString} {after : List KVCacheEntry}
    (nonempty : key.length ≠ 0) (selected : setIndex? config.numSets key = some index)
    (hit : CacheEntries.get key (cache.sets index) = some (value, after)) :
    cache.get (some key) =
      .ok (some value, cache.replaceSet index after ((cache.invariant index).get hit)) := by
  simp only [get, if_neg nonempty, selected]
  split
  · next missed => rw [hit] at missed; cases missed
  · next found =>
      rw [hit] at found
      cases found
      rfl

/-- `get` of a usable key: a hit returns a cached value, a miss means that the
key is not cached, and the cached pairs stay the same either way. -/
theorem get_spec (cache : KVCache config) (nonempty : key.length ≠ 0)
    (inRange : InRange config key) :
    ∃ result after, cache.get (some key) = .ok (result, after) ∧
      (∀ other value, after.Holds other value <-> cache.Holds other value) ∧
      (∀ value, result = some value -> cache.Holds key value) ∧
      (result = none -> ∀ value, ¬ cache.Holds key value) := by
  rcases isSome_iff_exists.mp inRange with ⟨index, selected⟩
  cases hit : CacheEntries.get key (cache.sets index) with
  | none =>
    refine ⟨none, cache, ?_, fun _ _ => Iff.rfl, ?_, ?_⟩
    · exact get_missed cache nonempty selected hit
    · intro value impossible
      cases impossible
    · intro _ value held
      have member := (cache.holds_iff_of_selected selected value).mp held
      apply CacheEntries.get_none hit
      exact fst_mem_keys member
  | some found =>
    rcases found with ⟨value, after⟩
    have spec := CacheEntries.get_some hit
    refine ⟨some value, cache.replaceSet index after ((cache.invariant index).get hit),
      ?_, ?_, ?_, ?_⟩
    · exact get_selected cache nonempty selected hit
    · intro other otherValue
      rw [holds_replaceSet, spec.2.mem_iff]
      constructor
      · rintro (member | ⟨elsewhere, _, member⟩)
        · exact ⟨index, member⟩
        · exact ⟨elsewhere, member⟩
      · rintro ⟨elsewhere, member⟩
        by_cases same : elsewhere = index
        · exact .inl (same ▸ member)
        · exact .inr ⟨elsewhere, same, member⟩
    · intro other same
      cases same
      exact ⟨index, spec.1⟩
    · intro impossible
      cases impossible

/-- `put` of a usable pair changes the list that the key selects. -/
theorem put_selected (cache : KVCache config) {result : List KVCacheEntry}
    (nonempty : key.length ≠ 0) (valueNonempty : value.length ≠ 0)
    (selected : setIndex? config.numSets key = some index)
    (done : CacheEntries.put config.maxElemsPerSet key value (cache.sets index) = some result) :
    cache.put (some key) (some value) =
      .ok (cache.replaceSet index result ((cache.invariant index).put selected done)) := by
  have usable : ¬ (key.length = 0 ∨ value.length = 0) := not_or.mpr ⟨nonempty, valueNonempty⟩
  simp only [put, if_neg usable]
  split
  · next missing => rw [selected] at missing; cases missing
  · next other chosen =>
      rw [selected] at chosen
      cases chosen
      split
      · next ranDry => rw [done] at ranDry; cases ranDry
      · next result same =>
          rw [done] at same
          cases same
          rfl

/-- `put` of a usable pair: the pair is cached, every other cached pair was
cached before under another key. -/
theorem put_spec (cache : KVCache config) (nonempty : key.length ≠ 0)
    (valueNonempty : value.length ≠ 0) (inRange : InRange config key) :
    ∃ after, cache.put (some key) (some value) = .ok after ∧ after.Holds key value ∧
      ∀ other otherValue, after.Holds other otherValue ->
        (other = key ∧ otherValue = value) ∨ (other ≠ key ∧ cache.Holds other otherValue) := by
  rcases isSome_iff_exists.mp inRange with ⟨index, selected⟩
  rcases CacheEntries.put_spec config.maxElemsPerSet_pos key value
    (cache.invariant index).size_le (cache.invariant index).keys_nodup with
      ⟨after, done, _, _, present, fromOld⟩
  refine ⟨cache.replaceSet index after ((cache.invariant index).put selected done), ?_, ?_, ?_⟩
  · exact put_selected cache nonempty valueNonempty selected done
  · exact (holds_replaceSet cache index after _ key value).mpr (.inl present)
  · intro other otherValue held
    rcases (holds_replaceSet cache index after _ other otherValue).mp held with
      member | ⟨elsewhere, different, member⟩
    · rcases fromOld (other, otherValue) member with new | old
      · cases new
        exact .inl ⟨rfl, rfl⟩
      · exact .inr ⟨old.1, index, old.2⟩
    · exact .inr ⟨cache.key_ne_of_other_set selected different member, elsewhere, member⟩

/-- `del` of a usable key drops exactly the key's entry. -/
theorem del_spec (cache : KVCache config) (nonempty : key.length ≠ 0)
    (inRange : InRange config key) :
    ∃ after, cache.del (some key) = .ok after ∧
      ∀ other value, after.Holds other value <-> other ≠ key ∧ cache.Holds other value := by
  rcases isSome_iff_exists.mp inRange with ⟨index, selected⟩
  refine ⟨cache.replaceSet index (CacheEntries.del key (cache.sets index))
    ((cache.invariant index).del key), by simp only [del, if_neg nonempty, selected], ?_⟩
  intro other value
  rw [holds_replaceSet, CacheEntries.mem_pairs_del (cache.invariant index).keys_nodup]
  constructor
  · rintro (⟨different, member⟩ | ⟨elsewhere, different, member⟩)
    · exact ⟨different, index, member⟩
    · exact ⟨cache.key_ne_of_other_set selected different member, elsewhere, member⟩
  · rintro ⟨different, elsewhere, member⟩
    by_cases same : elsewhere = index
    · exact .inl ⟨different, same ▸ member⟩
    · exact .inr ⟨elsewhere, same, member⟩

theorem getLock_selected (cache : KVCache config) (nonempty : key.length ≠ 0)
    (selected : setIndex? config.numSets key = some index) :
    cache.getLock (some key) = .ok (some index) := by
  simp only [getLock, if_neg nonempty, selected]

/-- `getLock` throws on exactly the keys that no list is selected for. -/
theorem getLock_missing (cache : KVCache config) (nonempty : key.length ≠ 0)
    (missing : setIndex? config.numSets key = none) :
    cache.getLock (some key) = .error .arrayIndexOutOfBounds := by
  simp only [getLock, if_neg nonempty, missing]

end KVCache

end KVStore
end Codebank
