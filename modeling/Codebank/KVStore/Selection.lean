import Codebank.KVStore.Master

namespace Codebank
namespace KVStore

/-!
# The list a key selects

`Math.abs` has one negative value, that of `Integer.MIN_VALUE`.  There are keys with this hash
code, so the arrays of a cache are safe for exactly those numbers of sets that divide it.
-/

/-! ## The index -/

theorem mathAbs_cases (value : BitVec 32) :
    0 <= (mathAbs value).toInt ∨ (mathAbs value).toInt = -2 ^ 31 := by
  unfold mathAbs
  by_cases negative : value.toInt < 0
  · rw [if_pos negative]
    by_cases minimal : value = BitVec.intMin 32
    · subst minimal
      exact .inr (by decide)
    · rw [BitVec.toInt_neg_of_ne_intMin minimal]
      omega
  · rw [if_neg negative]
    omega

theorem setIndex_inside {numSets : Nat} (positive : 0 < numSets) (divides : numSets ∣ 2 ^ 31)
    (key : JString) : 0 <= setIndex numSets key ∧ setIndex numSets key < numSets := by
  unfold setIndex
  rcases mathAbs_cases key.hashCode with nonneg | minimal
  · exact ⟨Int.tmod_nonneg _ nonneg, Int.tmod_lt_of_pos _ (by omega)⟩
  · rw [minimal, Int.neg_tmod, Int.tmod_eq_zero_of_dvd (by exact_mod_cast divides)]
    omega

/-- This key has the hash code `Integer.MIN_VALUE`. -/
theorem setIndex_minimal (numSets : Nat) :
    setIndex numSets (JString.ofAscii "polygenelubricants") = -(2 ^ 31 % numSets : Nat) := by
  have minimal : (mathAbs (JString.ofAscii "polygenelubricants").hashCode).toInt =
      -(2 ^ 31 : Nat) := by decide +kernel
  rw [setIndex, minimal, Int.neg_tmod]
  rfl

/-! ## The accesses -/

/-- No operation of a cache leaves the arrays. -/
structure AccessesInside (config : CacheConfig) : Prop where
  getLock : ∀ (cache : KVCache config) (key : Option JString),
    cache.getLock key ≠ .error .arrayIndexOutOfBounds
  get : ∀ (cache : KVCache config) (key : Option JString),
    cache.get key ≠ .error .arrayIndexOutOfBounds
  put : ∀ (cache : KVCache config) (key value : Option JString),
    cache.put key value ≠ .error .arrayIndexOutOfBounds
  del : ∀ (cache : KVCache config) (key : Option JString),
    cache.del key ≠ .error .arrayIndexOutOfBounds

/-- An exception of the master's cache outside the arrays. -/
def Event.IndexError : Event -> Prop
  | .flushFailed _ fault | .getFailed _ fault => fault = .arrayIndexOutOfBounds
  | _ => False

variable {config : CacheConfig}

theorem accessesInside_of_selects (selects : ∀ key, setIndex? config.numSets key ≠ none) :
    AccessesInside config := by
  constructor
  · intro cache key
    unfold KVCache.getLock
    grind
  · intro cache key
    unfold KVCache.get
    grind
  · intro cache key value
    unfold KVCache.put
    grind
  · intro cache key
    unfold KVCache.del
    grind

theorem error_of_map {Value Other : Type} {outcome : Except Fault Value} {result : Value -> Other}
    {fault : Fault} (failed : outcome.map result = .error fault) : outcome = .error fault := by
  cases outcome with
  | error other =>
    cases failed
    rfl
  | ok value => cases failed

namespace AccessesInside

variable (inside : AccessesInside config)

include inside

theorem serverPut (server : KVServer config) (key value : Option JString) :
    (server.put key value).1 ≠ .error .arrayIndexOutOfBounds := by
  intro failed
  by_cases accepted : validateKeyValue key value = SUCCESS
  · rcases (validateKeyValue_eq_success_iff key value).mp accepted with
      ⟨key, value, rfl, rfl, acceptable⟩
    rw [server.put_after_checks acceptable] at failed
    split at failed
    · next locked =>
        cases failed
        exact inside.getLock _ _ locked
    · split at failed
      · next written =>
          cases failed
          exact inside.put _ _ _ written
      · cases failed
  · rw [server.put_rejected accepted] at failed
    cases failed

theorem serverGet (server : KVServer config) (key : Option JString) :
    (server.get key).1 ≠ .error .arrayIndexOutOfBounds := by
  intro failed
  unfold KVServer.get at failed
  split at failed
  · cases failed
  · split at failed
    · cases failed
    · split at failed
      · next locked =>
          cases failed
          exact inside.getLock _ _ locked
      · split at failed
        · next looked =>
            cases failed
            exact inside.get _ _ looked
        · cases failed
        · split at failed
          · next read =>
              -- the store has only exceptions of its own
              cases failed
              unfold Store.get at read
              split at read <;> cases read
          · split at failed
            · next filled =>
                cases failed
                exact inside.put _ _ _ filled
            · cases failed

theorem serverDel (server : KVServer config) (key : Option JString) :
    (server.del key).1 ≠ .error .arrayIndexOutOfBounds := by
  intro failed
  unfold KVServer.del at failed
  split at failed
  · cases failed
  · split at failed
    · cases failed
    · split at failed
      · next locked =>
          cases failed
          exact inside.getLock _ _ locked
      · split at failed
        · next removed =>
            cases failed
            unfold Store.del at removed
            split at removed <;> cases removed
        · split at failed
          · next dropped =>
              cases failed
              exact inside.del _ _ dropped
          · cases failed

theorem call (server : KVServer config) (call : Call) :
    (server.call call).1 ≠ .error .arrayIndexOutOfBounds := by
  intro failed
  cases call with
  | put key value => exact inside.serverPut server key value (error_of_map failed)
  | get key => exact inside.serverGet server key failed
  | del key => exact inside.serverDel server key (error_of_map failed)

theorem perform (server : KVServer config) (exec : KVMessage) :
    (server.perform exec).1 ≠ .error .arrayIndexOutOfBounds := by
  unfold KVServer.perform
  split
  · exact inside.serverPut server exec.key exec.value
  · exact inside.serverDel server exec.key
  · exact fun failed => by cases failed

variable {ring : SlaveRing} {slaveCache : CacheConfig}
  {state after : State ⟨ring, config, slaveCache⟩} {event : Event}

theorem flushCache (request : TPCRequest) (lock : Fin config.numSets) :
    ¬ (state.flushCache request lock).1.IndexError := by
  unfold State.flushCache
  split
  · next fault failed =>
      rintro rfl
      unfold State.flushTo at failed
      split at failed
      · exact inside.put _ _ _ failed
      · exact inside.del _ _ failed
  · exact id

theorem inRange {key : JString} (nonempty : key.length ≠ 0) : InRange config key := by
  by_contra outOfRange
  exact inside.getLock _ _ (KVServer.getLock_outOfRange KVCache.empty nonempty outOfRange)

theorem step (step : State.Step state (some event) after) : ¬ event.IndexError := by
  cases State.step_cases step with
  | call moved =>
    cases moved with
    | noLock here finished agreed outOfRange =>
      exact absurd (inside.inRange (TPCRequest.cases _).1) outOfRange
    | flush here => exact inside.flushCache _ _
    | rejected | begun | decided | threw => exact id
  | client moved =>
    cases moved with
    | noLock nonempty outOfRange => exact absurd (inside.inRange nonempty) outOfRange
    | threw holding quiet =>
      rcases quiet with ⟨text, rfl⟩ | ⟨fault, rfl, looked | ⟨value, filled⟩⟩
      · exact id
      · exact fun same => inside.get _ _ (same ▸ looked)
      · exact fun same => inside.put _ _ _ (same ▸ filled)
    | refused | begun | returned => exact id

end AccessesInside

/-- The index of every key lies inside the arrays; so no operation of a cache fails with an
index error, no call of a server, no request that a slave carries out and no step of the master. -/
structure SelectsInside (config : CacheConfig) : Prop where
  index : ∀ key : JString, key.length ≠ 0 ->
    0 <= setIndex config.numSets key ∧ setIndex config.numSets key < config.numSets
  accesses : AccessesInside config
  call : ∀ (server : KVServer config) (call : Call),
    (server.call call).1 ≠ .error .arrayIndexOutOfBounds
  perform : ∀ (server : KVServer config) (exec : KVMessage),
    (server.perform exec).1 ≠ .error .arrayIndexOutOfBounds
  step : ∀ (ring : SlaveRing) (slaveCache : CacheConfig)
    (state after : State ⟨ring, config, slaveCache⟩) (event : Event),
    State.Step state (some event) after -> ¬ event.IndexError

theorem selectsInside_iff (config : CacheConfig) :
    SelectsInside config <-> config.numSets ∣ 2 ^ 31 := by
  constructor
  · intro selects
    have nonneg := (selects.index (JString.ofAscii "polygenelubricants") (by decide)).1
    rw [setIndex_minimal] at nonneg
    apply Nat.dvd_of_mod_eq_zero
    omega
  · intro divides
    have index := setIndex_inside config.numSets_pos divides
    have inside : AccessesInside config := by
      apply accessesInside_of_selects
      intro key
      rw [setIndex?, dif_pos (index key)]
      exact Option.some_ne_none _
    exact ⟨fun key _ => index key, inside, inside.call, inside.perform,
      fun _ _ _ _ _ => inside.step⟩

/-- The cache of `SampleServer` and `SampleSlave`, with a hundred sets. -/
theorem hundred_sets_select_outside : ¬ SelectsInside ⟨100, 10, by decide, by decide⟩ := by
  intro selects
  have nonneg := (selects.index (JString.ofAscii "polygenelubricants") (by decide)).1
  rw [setIndex_minimal] at nonneg
  revert nonneg
  decide

end KVStore
end Codebank
