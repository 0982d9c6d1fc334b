import Codebank.Foundation.Machine
import Codebank.KVStore.Cache

namespace Codebank
namespace KVStore

open Foundation Function

/-!
# The key-value server of one slave

`KVServer` puts a write-through `KVCache` in front of a `KVStore`.  A call is
modelled as a function to its outcome and the server it leaves behind: Java
does not undo anything when a call throws, so the new server is part of the
result in that case too.

`PlainServer` is the abstract counterpart, a server without any cache.  The
main result says that the cache cannot be observed: every history of calls has
the same outcomes on both.
-/

/-- The map inside `KVStore`. -/
abbrev Store := JString -> Option JString

namespace Store

def empty : Store := fun _ => none

def put (store : Store) (key value : JString) : Store :=
  update store key (some value)

/-- `KVStore.get`. -/
def get (store : Store) (key : JString) : Except Fault JString :=
  match store key with
  | none => .error (.kv ERROR_NO_SUCH_KEY)
  | some value => .ok value

/-- `KVStore.del` for a key that is not `null`. -/
def del (store : Store) (key : JString) : Except Fault Store :=
  match store key with
  | none => .error (.kv ERROR_NO_SUCH_KEY)
  | some _ => .ok (update store key none)

end Store

def MAX_KEY_SIZE : Nat := 256
def MAX_VAL_SIZE : Nat := 256 * 1024

/-- `validateKeyValue`, which answers with a text. -/
def validateKeyValue (key value : Option JString) : String :=
  match key with
  | none => ERROR_INVALID_KEY
  | some key =>
    if key.length = 0 then ERROR_INVALID_KEY
    else match value with
      | none => ERROR_INVALID_VALUE
      | some value =>
        if value.length = 0 then ERROR_INVALID_VALUE
        else if key.length > MAX_KEY_SIZE then ERROR_OVERSIZED_KEY
        else if value.length > MAX_VAL_SIZE then ERROR_OVERSIZED_VALUE
        else SUCCESS

/-- The sizes `validateKeyValue` and `put` accept. -/
def Acceptable (key value : JString) : Prop :=
  key.length ≠ 0 ∧ value.length ≠ 0 ∧
    key.length <= MAX_KEY_SIZE ∧ value.length <= MAX_VAL_SIZE

instance (key value : JString) : Decidable (Acceptable key value) :=
  inferInstanceAs (Decidable (_ ∧ _))

theorem validateKeyValue_eq_success_iff (key value : Option JString) :
    validateKeyValue key value = SUCCESS <->
      ∃ k v, key = some k ∧ value = some v ∧ Acceptable k v := by
  constructor
  · intro success
    unfold validateKeyValue at success
    split at success
    · exact absurd success (by decide)
    · next k =>
        split at success
        · exact absurd success (by decide)
        · next keyNonempty =>
            split at success
            · exact absurd success (by decide)
            · next v =>
                split at success
                · exact absurd success (by decide)
                · next valueNonempty =>
                    split at success
                    · exact absurd success (by decide)
                    · next keySize =>
                        split at success
                        · exact absurd success (by decide)
                        · next valueSize =>
                            exact ⟨k, v, rfl, rfl, keyNonempty, valueNonempty,
                              Nat.le_of_not_gt keySize, Nat.le_of_not_gt valueSize⟩
  · rintro ⟨k, v, rfl, rfl, keyNonempty, valueNonempty, keySize, valueSize⟩
    simp only [validateKeyValue, if_neg keyNonempty, if_neg valueNonempty,
      if_neg (Nat.not_lt_of_ge keySize), if_neg (Nat.not_lt_of_ge valueSize)]

structure KVServer (config : CacheConfig) where
  dataStore : Store
  dataCache : KVCache config

namespace KVServer

variable {config : CacheConfig}

/-- `new KVServer(numSets, maxElemsPerSet)`. -/
def empty : KVServer config := ⟨Store.empty, KVCache.empty⟩

/-- `put` repeats the checks of `validateKeyValue`, throwing instead of
answering.  The lock lookup comes before any change. -/
def put (server : KVServer config) (key value : Option JString) :
    Except Fault Unit × KVServer config :=
  match key with
  | none => (.error (.kv ERROR_INVALID_KEY), server)
  | some key =>
    if key.length = 0 then (.error (.kv ERROR_INVALID_KEY), server)
    else match value with
      | none => (.error (.kv ERROR_INVALID_VALUE), server)
      | some value =>
        if value.length = 0 then (.error (.kv ERROR_INVALID_VALUE), server)
        else if key.length > MAX_KEY_SIZE then
          (.error (.kv ERROR_OVERSIZED_KEY), server)
        else if value.length > MAX_VAL_SIZE then
          (.error (.kv ERROR_OVERSIZED_VALUE), server)
        else match server.dataCache.getLock (some key) with
          | .error fault => (.error fault, server)
          | .ok _ =>
            match server.dataCache.put (some key) (some value) with
            | .error fault => (.error fault, server)
            | .ok cache =>
              (.ok (), ⟨server.dataStore.put key value, cache⟩)

def get (server : KVServer config) (key : Option JString) :
    Except Fault (Option JString) × KVServer config :=
  match key with
  | none => (.ok none, server)
  | some key =>
    if key.length = 0 then (.ok none, server)
    else match server.dataCache.getLock (some key) with
      | .error fault => (.error fault, server)
      | .ok _ =>
        match server.dataCache.get (some key) with
        | .error fault => (.error fault, server)
        | .ok (some value, cache) => (.ok (some value), { server with dataCache := cache })
        | .ok (none, cache) =>
          match server.dataStore.get key with
          | .error fault => (.error fault, { server with dataCache := cache })
          | .ok value =>
            match cache.put (some key) (some value) with
            | .error fault => (.error fault, { server with dataCache := cache })
            | .ok filled => (.ok (some value), { server with dataCache := filled })

def del (server : KVServer config) (key : Option JString) :
    Except Fault Unit × KVServer config :=
  match key with
  | none => (.ok (), server)
  | some key =>
    if key.length = 0 then (.ok (), server)
    else match server.dataCache.getLock (some key) with
      | .error fault => (.error fault, server)
      | .ok _ =>
        match server.dataStore.del key with
        | .error fault => (.error fault, server)
        | .ok store =>
          match server.dataCache.del (some key) with
          | .error fault => (.error fault, { server with dataStore := store })
          | .ok cache => (.ok (), ⟨store, cache⟩)

/-- `hasKey` catches the `KVException` of the store, but not the
`NullPointerException` of a `null` key. -/
def hasKey (server : KVServer config) (key : Option JString) : Except Fault Bool :=
  match key with
  | none => .error .nullPointer
  | some key =>
    match server.dataStore.get key with
    | .error _ => .ok false
    | .ok _ => .ok true

/-- Every cached pair is a pair of the store. -/
def Coherent (server : KVServer config) : Prop :=
  ∀ key value, server.dataCache.Holds key value -> server.dataStore key = some value

theorem coherent_empty : (empty : KVServer config).Coherent := by
  intro key value held
  exact False.elim (KVCache.not_holds_empty key value held)

/-! ## One specification for each operation -/

variable {key : JString}

/-- Filling the cache from the store keeps it coherent, whatever is evicted. -/
theorem coherent_of_fill {server : KVServer config} {cache : KVCache config}
    (coherent : server.Coherent) {value : JString} (stored : server.dataStore key = some value)
    (fromOld : ∀ other otherValue, cache.Holds other otherValue ->
      (other = key ∧ otherValue = value) ∨ server.dataCache.Holds other otherValue) :
    ({ server with dataCache := cache } : KVServer config).Coherent := by
  intro other otherValue held
  rcases fromOld other otherValue held with ⟨sameKey, sameValue⟩ | old
  · rw [sameKey, sameValue]
    exact stored
  · exact coherent other otherValue old

theorem put_rejected (server : KVServer config) {key value : Option JString}
    (rejected : validateKeyValue key value ≠ SUCCESS) :
    server.put key value = (.error (.kv (validateKeyValue key value)), server) := by
  cases key with
  | none => rfl
  | some key =>
    by_cases keyEmpty : key.length = 0
    · simp only [put, validateKeyValue, if_pos keyEmpty]
    · cases value with
      | none => simp only [put, validateKeyValue, if_neg keyEmpty]
      | some value =>
        by_cases valueEmpty : value.length = 0
        · simp only [put, validateKeyValue, if_neg keyEmpty, if_pos valueEmpty]
        · by_cases keySize : key.length > MAX_KEY_SIZE
          · simp only [put, validateKeyValue, if_neg keyEmpty, if_neg valueEmpty,
              if_pos keySize]
          · by_cases valueSize : value.length > MAX_VAL_SIZE
            · simp only [put, validateKeyValue, if_neg keyEmpty, if_neg valueEmpty,
                if_neg keySize, if_pos valueSize]
            · refine False.elim (rejected ?_)
              simp only [validateKeyValue, if_neg keyEmpty, if_neg valueEmpty,
                if_neg keySize, if_neg valueSize]

/-- After the checks, `put` is the lock lookup followed by the two writes. -/
theorem put_after_checks (server : KVServer config) {value : JString}
    (acceptable : Acceptable key value) :
    server.put (some key) (some value) =
      match server.dataCache.getLock (some key) with
      | .error fault => (.error fault, server)
      | .ok _ =>
        match server.dataCache.put (some key) (some value) with
        | .error fault => (.error fault, server)
        | .ok cache => (.ok (), ⟨server.dataStore.put key value, cache⟩) := by
  rcases acceptable with ⟨keyNonempty, valueNonempty, keySize, valueSize⟩
  simp only [put, if_neg keyNonempty, if_neg valueNonempty,
    if_neg (Nat.not_lt_of_ge keySize), if_neg (Nat.not_lt_of_ge valueSize)]

theorem getLock_inRange (cache : KVCache config) (nonempty : key.length ≠ 0)
    (inRange : InRange config key) : ∃ lock, cache.getLock (some key) = .ok lock := by
  rcases Option.isSome_iff_exists.mp inRange with ⟨index, selected⟩
  exact ⟨some index, cache.getLock_selected nonempty selected⟩

theorem getLock_outOfRange (cache : KVCache config) (nonempty : key.length ≠ 0)
    (outOfRange : ¬ InRange config key) :
    cache.getLock (some key) = .error .arrayIndexOutOfBounds := by
  have missing : setIndex? config.numSets key = none := by
    simpa [InRange] using outOfRange
  exact cache.getLock_missing nonempty missing

section

variable (server : KVServer config)

include server

variable {value : JString}

theorem put_accepted (acceptable : Acceptable key value) (inRange : InRange config key)
    (coherent : server.Coherent) :
    ∃ cache, server.put (some key) (some value) =
        (.ok (), ⟨server.dataStore.put key value, cache⟩) ∧
      (⟨server.dataStore.put key value, cache⟩ : KVServer config).Coherent := by
  rcases getLock_inRange server.dataCache acceptable.1 inRange with ⟨lock, locked⟩
  rcases server.dataCache.put_spec acceptable.1 acceptable.2.1 inRange with
    ⟨cache, written, _, fromOld⟩
  refine ⟨cache, by rw [put_after_checks server acceptable, locked, written], ?_⟩
  intro other otherValue held
  rcases fromOld other otherValue held with ⟨sameKey, sameValue⟩ | ⟨different, old⟩
  · rw [sameKey, sameValue]
    exact update_self _ _ _
  · exact (update_of_ne different _ _).trans (coherent other otherValue old)

/-- A key whose list index leaves the array makes `put` throw before any write. -/
theorem put_outOfRange (acceptable : Acceptable key value) (outOfRange : ¬ InRange config key) :
    server.put (some key) (some value) = (.error .arrayIndexOutOfBounds, server) := by
  rw [put_after_checks server acceptable,
    getLock_outOfRange server.dataCache acceptable.1 outOfRange]

theorem get_unusable (key : Option JString) (unusable : ∀ k, key = some k -> k.length = 0) :
    server.get key = (.ok none, server) := by
  cases key with
  | none => rfl
  | some key => simp only [get, if_pos (unusable key rfl)]

/-- `get` of a usable key reads the store through the cache. -/
theorem get_usable (nonempty : key.length ≠ 0) (inRange : InRange config key)
    (coherent : server.Coherent) :
    ∃ cache, server.get (some key) =
        ((server.dataStore.get key).map some, { server with dataCache := cache }) ∧
      ({ server with dataCache := cache } : KVServer config).Coherent := by
  rcases getLock_inRange server.dataCache nonempty inRange with ⟨lock, locked⟩
  rcases server.dataCache.get_spec nonempty inRange with
    ⟨result, cache, looked, samePairs, hit, _⟩
  have cacheCoherent : ({ server with dataCache := cache } : KVServer config).Coherent :=
    fun other otherValue held => coherent other otherValue ((samePairs other otherValue).mp held)
  cases result with
  | some value =>
    have stored := coherent key value (hit value rfl)
    refine ⟨cache, ?_, cacheCoherent⟩
    simp only [get, if_neg nonempty, locked, looked, Store.get, stored]
    rfl
  | none =>
    cases stored : server.dataStore key with
    | none =>
      refine ⟨cache, ?_, cacheCoherent⟩
      simp only [get, if_neg nonempty, locked, looked, Store.get, stored]
      rfl
    | some value =>
      by_cases valueEmpty : value.length = 0
      · refine ⟨cache, ?_, cacheCoherent⟩
        simp only [get, if_neg nonempty, locked, looked, Store.get, stored, KVCache.put,
          if_pos (Or.inr valueEmpty)]
        rfl
      · rcases cache.put_spec nonempty valueEmpty inRange with
          ⟨filled, written, _, fromOld⟩
        refine ⟨filled, ?_, coherent_of_fill coherent stored ?_⟩
        · simp only [get, if_neg nonempty, locked, looked, Store.get, stored, written]
          rfl
        · intro other otherValue held
          rcases fromOld other otherValue held with new | old
          · exact .inl new
          · exact .inr ((samePairs other otherValue).mp old.2)

theorem get_outOfRange (nonempty : key.length ≠ 0) (outOfRange : ¬ InRange config key) :
    server.get (some key) = (.error .arrayIndexOutOfBounds, server) := by
  simp only [get, if_neg nonempty,
    getLock_outOfRange server.dataCache nonempty outOfRange]

/-- Whatever the key, `get` keeps the cache coherent and returns stored values. -/
theorem get_any (key : Option JString) (coherent : server.Coherent) :
    (server.get key).2.Coherent ∧
      ∀ value, (server.get key).1 = .ok (some value) ->
        ∃ k, key = some k ∧ server.dataStore k = some value := by
  by_cases unusable : ∀ k, key = some k -> k.length = 0
  · rw [server.get_unusable key unusable]
    exact ⟨coherent, fun value impossible => by cases impossible⟩
  · have usable : ∃ k, key = some k ∧ k.length ≠ 0 := by
      simpa only [not_forall, exists_prop] using unusable
    rcases usable with ⟨k, rfl, nonempty⟩
    by_cases inRange : InRange config k
    · rcases server.get_usable nonempty inRange coherent with ⟨cache, done, after⟩
      rw [done]
      refine ⟨after, ?_⟩
      intro value returned
      refine ⟨k, rfl, ?_⟩
      cases stored : server.dataStore k with
      | none => simp only [Store.get, stored] at returned; cases returned
      | some other => simp only [Store.get, stored] at returned; cases returned; rfl
    · rw [server.get_outOfRange nonempty inRange]
      exact ⟨coherent, fun value impossible => by cases impossible⟩

/-- Whatever the key, `get` leaves the store alone. -/
theorem get_dataStore (key : Option JString) : (server.get key).2.dataStore = server.dataStore := by
  unfold get
  repeat' split
  all_goals rfl

theorem del_unusable (key : Option JString) (unusable : ∀ k, key = some k -> k.length = 0) :
    server.del key = (.ok (), server) := by
  cases key with
  | none => rfl
  | some key => simp only [del, if_pos (unusable key rfl)]

theorem del_absent (nonempty : key.length ≠ 0) (inRange : InRange config key)
    (absent : server.dataStore key = none) :
    server.del (some key) = (.error (.kv ERROR_NO_SUCH_KEY), server) := by
  rcases getLock_inRange server.dataCache nonempty inRange with ⟨lock, locked⟩
  simp only [del, if_neg nonempty, locked, Store.del, absent]

theorem del_present (nonempty : key.length ≠ 0) (inRange : InRange config key)
    (present : server.dataStore key = some value) (coherent : server.Coherent) :
    ∃ cache, server.del (some key) =
        (.ok (), ⟨update server.dataStore key none, cache⟩) ∧
      (⟨update server.dataStore key none, cache⟩ : KVServer config).Coherent := by
  rcases getLock_inRange server.dataCache nonempty inRange with ⟨lock, locked⟩
  rcases server.dataCache.del_spec nonempty inRange with ⟨cache, dropped, pairs⟩
  refine ⟨cache, by simp only [del, if_neg nonempty, locked, Store.del, present, dropped], ?_⟩
  intro other otherValue held
  have old := (pairs other otherValue).mp held
  exact (update_of_ne old.1 _ _).trans (coherent other otherValue old.2)

end

end KVServer

/-! ## Histories of calls -/

inductive Call where
  | put (key value : Option JString)
  | get (key : Option JString)
  | del (key : Option JString)
  deriving DecidableEq, Repr

/-- The key of a call selects a list of the cache; `null` and empty keys never
reach the cache. -/
def Call.InRange (config : CacheConfig) : Call -> Prop
  | .put key _ | .get key | .del key =>
    ∀ k, key = some k -> k.length ≠ 0 -> KVStore.InRange config k

/-- What the caller sees: a value (`null` for `put` and `del`) or an exception. -/
abbrev Outcome := Except Fault (Option JString)

def KVServer.call {config : CacheConfig} (server : KVServer config) :
    Call -> Outcome × KVServer config
  | .put key value =>
    let done := server.put key value
    (done.1.map (fun _ => none), done.2)
  | .get key => server.get key
  | .del key =>
    let done := server.del key
    (done.1.map (fun _ => none), done.2)

/-- The same server without a cache: only the checks and the store remain. -/
def PlainServer.call (store : Store) : Call -> Outcome × Store
  | .put key value =>
    if validateKeyValue key value = SUCCESS then
      (.ok none, match key, value with
        | some k, some v => store.put k v
        | _, _ => store)
    else (.error (.kv (validateKeyValue key value)), store)
  | .get key =>
    match key with
    | none => (.ok none, store)
    | some k => if k.length = 0 then (.ok none, store) else ((store.get k).map some, store)
  | .del key =>
    match key with
    | none => (.ok none, store)
    | some k =>
      if k.length = 0 then (.ok none, store)
      else match store.del k with
        | .error fault => (.error fault, store)
        | .ok smaller => (.ok none, smaller)

/-- How one call changes what is known about a key: an acceptable `put` of the
key sets it, a `del` of the key clears it. -/
def Call.remember (key : JString) (known : Option JString) : Call -> Option JString
  | .put (some k) (some v) => if k = key ∧ Acceptable k v then some v else known
  | .del (some k) => if k = key then none else known
  | _ => known

/-- The value last put under a key and not deleted since, read off the history
alone. -/
def lastValue (key : JString) (history : List Call) : Option JString :=
  history.foldl (Call.remember key) none

/-- The cached server and the plain one hold the same pairs, and the cache
holds no others. -/
def Refines {config : CacheConfig} (server : KVServer config) (store : Store) : Prop :=
  server.dataStore = store ∧ server.Coherent

variable {config : CacheConfig}

/-- One call has the same outcome on both servers and keeps them related. -/
theorem call_refines (server : KVServer config) (store : Store) (call : Call)
    (related : Refines server store) (inRange : call.InRange config) :
    (server.call call).1 = (PlainServer.call store call).1 ∧
      Refines (server.call call).2 (PlainServer.call store call).2 := by
  rcases related with ⟨sameStore, coherent⟩
  subst sameStore
  cases call with
  | put key value =>
    by_cases accepted : validateKeyValue key value = SUCCESS
    · rcases (validateKeyValue_eq_success_iff key value).mp accepted with
        ⟨k, v, rfl, rfl, acceptable⟩
      rcases server.put_accepted acceptable (inRange k rfl acceptable.1) coherent with
        ⟨cache, done, after⟩
      simp only [KVServer.call, PlainServer.call, done, if_pos accepted]
      exact ⟨rfl, rfl, after⟩
    · simp only [KVServer.call, PlainServer.call, server.put_rejected accepted,
        if_neg accepted]
      exact ⟨rfl, rfl, coherent⟩
  | get key =>
    cases key with
    | none => exact ⟨rfl, rfl, coherent⟩
    | some k =>
      by_cases empty : k.length = 0
      · have done := server.get_unusable (some k)
          (fun other same => Option.some.inj same ▸ empty)
        simp only [KVServer.call, PlainServer.call, done, if_pos empty, true_and]
        exact ⟨rfl, coherent⟩
      · rcases server.get_usable empty (inRange k rfl empty) coherent with
          ⟨cache, done, after⟩
        simp only [KVServer.call, PlainServer.call, done, if_neg empty, true_and]
        exact ⟨rfl, after⟩
  | del key =>
    cases key with
    | none => exact ⟨rfl, rfl, coherent⟩
    | some k =>
      by_cases empty : k.length = 0
      · have done := server.del_unusable (some k)
          (fun other same => Option.some.inj same ▸ empty)
        simp only [KVServer.call, PlainServer.call, done, if_pos empty]
        exact ⟨rfl, rfl, coherent⟩
      · cases stored : server.dataStore k with
        | none =>
          have done := server.del_absent empty (inRange k rfl empty) stored
          simp only [KVServer.call, PlainServer.call, done, if_neg empty, Store.del, stored]
          exact ⟨rfl, rfl, coherent⟩
        | some value =>
          rcases server.del_present empty (inRange k rfl empty) stored coherent with
            ⟨cache, done, after⟩
          simp only [KVServer.call, PlainServer.call, done, if_neg empty, Store.del, stored]
          exact ⟨rfl, rfl, after⟩

variable {key : JString}

/-- One call changes the plain store at a key as the history's reader expects. -/
theorem plain_call_remember (store : Store) (call : Call) (nonempty : key.length ≠ 0) :
    (PlainServer.call store call).2 key = call.remember key (store key) := by
  cases call with
  | put k v =>
    by_cases accepted : validateKeyValue k v = SUCCESS
    · rcases (validateKeyValue_eq_success_iff k v).mp accepted with
        ⟨k', v', rfl, rfl, acceptable⟩
      simp only [PlainServer.call, if_pos accepted, Call.remember, acceptable, and_true]
      by_cases same : k' = key
      · rw [if_pos same, same]
        exact update_self _ _ _
      · rw [if_neg same]
        exact update_of_ne (Ne.symm same) _ _
    · simp only [PlainServer.call, if_neg accepted]
      unfold Call.remember
      split
      · next k' v' same =>
          cases same
          rw [if_neg]
          rintro ⟨_, acceptable⟩
          exact accepted ((validateKeyValue_eq_success_iff _ _).mpr
            ⟨k', v', rfl, rfl, acceptable⟩)
      · next k' same => cases same
      · rfl
  | get k =>
    simp only [PlainServer.call, Call.remember]
    repeat' split
    all_goals rfl
  | del k =>
    cases k with
    | none => rfl
    | some k =>
      simp only [PlainServer.call, Call.remember]
      by_cases same : k = key
      · subst same
        rw [if_neg nonempty, if_pos rfl]
        cases stored : store k with
        | none => simp only [Store.del, stored]
        | some value =>
          simp only [Store.del, stored]
          exact update_self _ _ _
      · rw [if_neg same]
        by_cases empty : k.length = 0
        · rw [if_pos empty]
        · rw [if_neg empty]
          cases stored : store k with
          | none => simp only [Store.del, stored]
          | some value =>
            simp only [Store.del, stored]
            exact update_of_ne (Ne.symm same) _ _

/-- The plain server holds under every key what the history put there last. -/
theorem plain_store_eq_lastValue (history : List Call) (nonempty : key.length ≠ 0) :
    stateAfter PlainServer.call Store.empty history key = lastValue key history := by
  induction history using List.reverseRecOn with
  | nil => rfl
  | append_singleton earlier call ih =>
    rw [stateAfter_append, lastValue, List.foldl_append, <- lastValue, <- ih]
    exact plain_call_remember _ call nonempty

/-- A call that throws leaves the plain store as it was. -/
theorem plain_call_error {store : Store} {call : Call} {fault : Fault}
    (thrown : (PlainServer.call store call).1 = .error fault) :
    (PlainServer.call store call).2 = store := by
  cases call with
  | put key value =>
    by_cases accepted : validateKeyValue key value = SUCCESS
    · simp only [PlainServer.call, if_pos accepted] at thrown
      cases thrown
    · simp only [PlainServer.call, if_neg accepted]
  | get key =>
    simp only [PlainServer.call]
    repeat' split
    all_goals rfl
  | del key =>
    simp only [PlainServer.call] at thrown ⊢
    cases key with
    | none => rfl
    | some k =>
      by_cases empty : k.length = 0
      · simp only [if_pos empty]
      · simp only [if_neg empty] at thrown ⊢
        cases deleted : store.del k with
        | error _ => rfl
        | ok smaller => rw [deleted] at thrown; cases thrown

/-- Every history leaves the cached server related to the plain one. -/
theorem history_refines {history : List Call}
    (inRange : ∀ call, call ∈ history -> call.InRange config) :
    (runAll KVServer.call (KVServer.empty : KVServer config) history).1 =
        (runAll PlainServer.call Store.empty history).1 ∧
      Refines (stateAfter KVServer.call (KVServer.empty : KVServer config) history)
        (stateAfter PlainServer.call Store.empty history) :=
  runAll_simulation call_refines ⟨rfl, KVServer.coherent_empty⟩ inRange

/-- The cache of a `KVServer` cannot be observed.  Every history of calls has
the outcomes of a server without a cache; the cache stays coherent; a `get`
returns what the history put last, and a call that throws changes no pair. -/
theorem kvServer_behaves_as_map (config : CacheConfig) (history : List Call)
    (inRange : ∀ call, call ∈ history -> call.InRange config) :
    (runAll KVServer.call (KVServer.empty : KVServer config) history).1 =
        (runAll PlainServer.call Store.empty history).1 ∧
      (stateAfter KVServer.call (KVServer.empty : KVServer config) history).dataStore =
        stateAfter PlainServer.call Store.empty history ∧
      (∀ key value,
        (stateAfter KVServer.call (KVServer.empty : KVServer config) history).dataCache.Holds
            key value ->
          (stateAfter KVServer.call (KVServer.empty : KVServer config) history).dataStore key =
            some value) ∧
      (∀ key : JString, key.length ≠ 0 -> InRange config key ->
        ((stateAfter KVServer.call (KVServer.empty : KVServer config) history).get
            (some key)).1 =
          match lastValue key history with
          | some value => .ok (some value)
          | none => .error (.kv ERROR_NO_SUCH_KEY)) ∧
      (∀ call fault, call.InRange config ->
        ((stateAfter KVServer.call (KVServer.empty : KVServer config) history).call call).1 =
            .error fault ->
          ((stateAfter KVServer.call (KVServer.empty : KVServer config) history).call
              call).2.dataStore =
            (stateAfter KVServer.call (KVServer.empty : KVServer config) history).dataStore) := by
  rcases history_refines inRange with ⟨outcomes, sameStore, coherent⟩
  refine ⟨outcomes, sameStore, coherent, ?_, ?_⟩
  · intro key nonempty keyInRange
    rcases KVServer.get_usable _ nonempty keyInRange coherent with ⟨cache, done, _⟩
    rw [done, sameStore]
    simp only [Store.get, plain_store_eq_lastValue history nonempty]
    cases lastValue key history <;> rfl
  · intro call fault callInRange thrown
    have now := call_refines _ _ call ⟨sameStore, coherent⟩ callInRange
    rw [now.2.1, plain_call_error (now.1.symm.trans thrown), sameStore]

/-- Two lists of one entry each: the second `put` evicts the first key, and the
deleted key is gone from cache and store. -/
theorem kvServer_behaves_as_map_small :
    (∀ call, call ∈ [Call.put (some [97]) (some [1]), .put (some [99]) (some [2]),
        .get (some [97]), .del (some [99]), .put none (some [3])] ->
      call.InRange ⟨2, 1, by decide, by decide⟩) ∧
    (runAll KVServer.call (KVServer.empty : KVServer ⟨2, 1, by decide, by decide⟩)
        [.put (some [97]) (some [1]), .put (some [99]) (some [2]),
          .get (some [97]), .del (some [99]), .put none (some [3])]).1 =
      [.ok none, .ok none, .ok (some [1]), .ok none, .error (.kv ERROR_INVALID_KEY)] := by
  have inRange : ∀ call, call ∈ [Call.put (some [97]) (some [1]),
      .put (some [99]) (some [2]), .get (some [97]), .del (some [99]), .put none (some [3])] ->
      call.InRange ⟨2, 1, by decide, by decide⟩ := by
    intro call member
    simp only [List.mem_cons, List.not_mem_nil, or_false] at member
    rcases member with rfl | rfl | rfl | rfl | rfl <;> intro k same nonempty <;> cases same <;>
      decide
  refine ⟨inRange, ?_⟩
  rw [(kvServer_behaves_as_map _ _ inRange).1]
  rfl

end KVStore
end Codebank
