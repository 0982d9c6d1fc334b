import Codebank.KVStore.Atomicity

namespace Codebank
namespace KVStore

open Foundation Option List

/-!
# The master's cache never outlives a committed change

A `handleGet` holds the lock of its key's list from the lookup to the fill, and
the flush at the end of a committed request takes the same lock.  So a value
that a client has in hand cannot be overtaken: the map changes at the flush only,
and no client holds the lock then.  `Current` is what any value in the cache, in a
client's hands, or on its way to a client satisfies.
-/

variable {cluster : Cluster} {spec : Store} {state : State cluster} {slave : cluster.ring.Slave}

/-- The key has this value in the map, or gets it from the request that is
being committed. -/
def Current (spec : Store) (pc : MasterPc cluster) (key value : JString) : Prop :=
  spec key = some value ∨
    ∃ request, pc.window = some request ∧ request.key = key ∧
      request.msg.value = some value

/-- The client holds the lock of the list that its key selects. -/
structure Holding (state : State cluster) (client : Nat) (key : JString)
    (lock : Fin cluster.masterCache.numSets) : Prop where
  nonempty : key.length ≠ 0
  selected : setIndex? cluster.masterCache.numSets key = some lock
  owned : state.locks lock = some (.get client)

/-- What holds of a client at each point of its `handleGet`. -/
def ClientFacts (spec : Store) (state : State cluster) (client : Nat) : GetPc cluster -> Prop
  | .idle => True
  | .lock key lock =>
    key.length ≠ 0 ∧ setIndex? cluster.masterCache.numSets key = some lock
  | .lookup key lock | .ask key lock _ => Holding state client key lock
  | .wait key lock _ currSlave conn =>
    Holding state client key lock ∧
      state.net.Opened ⟨conn, currSlave, State.getMsg key⟩ ∧
      ∀ resp value, state.net.replies conn = some resp -> resp.value = some value ->
        Current spec state.master key value
  | .fill key lock value | .leave key lock value =>
    Holding state client key lock ∧ Current spec state.master key value

/-- The lock the call waits for or holds. -/
def FlushFacts (state : State cluster) : MasterPc cluster -> Prop
  | .lock request lock => setIndex? cluster.masterCache.numSets request.key = some lock
  | .flush request lock =>
    setIndex? cluster.masterCache.numSets request.key = some lock ∧
      state.locks lock = some .tpc
  | _ => True

structure CacheSound (spec : Store) (state : State cluster) : Prop where
  cached : ∀ key value, state.masterCache.Holds key value ->
    Current spec state.master key value
  clients : ∀ client, ClientFacts spec state client (state.gets client)
  flush : FlushFacts state state.master

theorem cacheSound_initial : CacheSound Store.empty (State.initial : State cluster) where
  cached := fun key value held => False.elim (KVCache.not_holds_empty key value held)
  clients := fun _ => trivial
  flush := trivial

/-! ## What slaves hold is current -/

variable {request : TPCRequest}

/-- While a request is being committed, every slave holds its old part of the
map, or the part with the request carried out. -/
theorem Agrees.contents_in_window (agrees : Agrees spec state)
    (window : state.master.window = some request) (slave : cluster.ring.Slave) :
    state.contents slave = held cluster spec slave ∨
      state.contents slave = request.msg.effect (held cluster spec slave) := by
  have valid := agrees.consistent.ordered.valid slave
  have meets := agrees.consistent.meets slave
  have ofQuiet : (state.net.slaves slave).Meets (held cluster spec slave) .quiet ->
      state.contents slave = held cluster spec slave :=
    fun quiet => SlaveState.contents_of_undecided valid quiet.undecided_of_quiet
  have ofDecision : ∀ {votes : Votes} {index : Nat}, votes.globalAbort = false ->
      (state.net.slaves slave).Meets (held cluster spec slave)
        (MasterPc.decisionStanding request votes index slave) ->
      state.contents slave = held cluster spec slave ∨
        state.contents slave = request.msg.effect (held cluster spec slave) := by
    intro votes index agreed meets
    simp only [MasterPc.decisionStanding, agreed, Bool.false_eq_true, if_false] at meets
    split at meets
    · exact .inl (ofQuiet meets)
    · split at meets
      · exact SlaveState.contents_of_committing valid meets
      · exact SlaveState.contents_of_committing valid meets.committing_of_committed
  cases here : state.master with
  | idle | phase1 | waitVote => rw [here] at window; cases window
  | phase2 request' votes index invalidFormat sent =>
    rw [here] at meets window
    simp only [MasterPc.window, ite_none_right_eq_some, some.injEq] at window
    rcases window with ⟨⟨isSent, agreed⟩, rfl⟩
    simp only [MasterPc.standing, isSent, true_or, if_true] at meets
    exact ofDecision agreed meets
  | waitAck request' votes index invalidFormat currSlave conn =>
    rw [here] at meets window
    simp only [MasterPc.window, ite_none_right_eq_some, some.injEq] at window
    rcases window with ⟨agreed, rfl⟩
    exact ofDecision agreed meets
  | lock request' lock | flush request' lock =>
    rw [here] at meets window
    cases window
    simp only [MasterPc.standing] at meets
    split at meets
    · exact SlaveState.contents_of_committing valid meets.committing_of_committed
    · exact .inl (ofQuiet meets)

variable {value : JString} {key : JString}

theorem held_some (stored : held cluster spec slave key = some value) : spec key = some value := by
  rw [held] at stored
  split at stored
  · exact stored
  · cases stored

/-- Whatever a slave answers is current. -/
theorem Agrees.current_of_contents (agrees : Agrees spec state)
    (stored : state.contents slave key = some value) : Current spec state.master key value := by
  cases window : state.master.window with
  | none =>
    rw [agrees.contents window] at stored
    exact .inl (held_some stored)
  | some request =>
    rcases agrees.contents_in_window window slave with same | same
    · rw [same] at stored
      exact .inl (held_some stored)
    · rw [same] at stored
      by_cases sameKey : key = request.key
      · subst sameKey
        rw [request.effect_key] at stored
        exact .inr ⟨request, window, rfl, stored⟩
      · rw [request.effect_of_ne _ sameKey] at stored
        exact .inl (held_some stored)

/-- Outside the commit of a request on this key, a current value is what both
replicas hold. -/
theorem Agrees.contents_of_current (agrees : Agrees spec state)
    (closed : ∀ request, state.master.window = some request -> request.key ≠ key)
    (current : Current spec state.master key value) (member : slave ∈ cluster.ring.slaves key) :
    state.contents slave key = some value := by
  have stored : spec key = some value := by
    rcases current with stored | ⟨request, window, sameKey, _⟩
    · exact stored
    · exact False.elim (closed request window sameKey)
  have expected : held cluster spec slave key = some value := by
    rw [held, if_pos member, stored]
  cases window : state.master.window with
  | none => rw [agrees.contents window, expected]
  | some request =>
    rcases agrees.contents_in_window window slave with same | same
    · rw [same, expected]
    · rw [same, request.effect_of_ne _ (closed request window).symm, expected]

/-! ## How the facts travel from state to state -/

section

variable {spec spec' : Store} {state after : State cluster}

theorem Current.mono {pc pc' : MasterPc cluster} {key value : JString}
    (window : ∀ request, pc.window = some request -> pc'.window = some request)
    (current : Current spec pc key value) : Current spec pc' key value := by
  rcases current with stored | ⟨request, open_, sameKey, sameValue⟩
  · exact .inl stored
  · exact .inr ⟨request, window request open_, sameKey, sameValue⟩

/-- What a client knows carries over when it keeps its locks, its connections
stay its own, and nothing it has in hand is overtaken. -/
theorem ClientFacts.transfer {client : Nat} {pc : GetPc cluster}
    (facts : ClientFacts spec state client pc)
    (locks : ∀ lock, state.locks lock = some (.get client) ->
      after.locks lock = some (.get client))
    (opened : ∀ awaited, state.net.Opened awaited -> after.net.Opened awaited)
    (current : ∀ key lock value, Holding state client key lock ->
      Current spec state.master key value -> Current spec' after.master key value)
    (replies : ∀ conn currSlave key resp value,
      state.net.Opened ⟨conn, currSlave, State.getMsg key⟩ ->
      after.net.replies conn = some resp -> resp.value = some value ->
        state.net.replies conn = some resp ∨ Current spec' after.master key value) :
    ClientFacts spec' after client pc := by
  have holding : ∀ {key lock}, Holding state client key lock ->
      Holding after client key lock :=
    fun holding => ⟨holding.nonempty, holding.selected, locks _ holding.owned⟩
  cases pc with
  | idle => trivial
  | lock key lock => exact facts
  | lookup key lock | ask key lock rest => exact holding facts
  | fill key lock value | leave key lock value =>
    exact ⟨holding facts.1, current key lock value facts.1 facts.2⟩
  | wait key lock rest currSlave conn =>
    refine ⟨holding facts.1, opened _ facts.2.1, ?_⟩
    intro resp value found sameValue
    rcases replies conn currSlave key resp value facts.2.1 found sameValue with old | new
    · exact current key lock value facts.1 (facts.2.2 resp value old sameValue)
    · exact new

/-- A step of the call that leaves the cache, the locks and the map alone. -/
theorem CacheSound.inside {net : Network cluster.slaveCache cluster.ring.Slave}
    {master : MasterPc cluster} (sound : CacheSound spec state)
    (opened : ∀ awaited, state.net.Opened awaited -> net.Opened awaited)
    (sameReplies : net.replies = state.net.replies)
    (window : ∀ request, state.master.window = some request -> master.window = some request)
    (flush : FlushFacts { state with net := net, master := master } master) :
    CacheSound spec { state with net := net, master := master } where
  cached := fun key value held => (sound.cached key value held).mono window
  clients := by
    intro client
    refine (sound.clients client).transfer (fun _ owned => owned) opened ?_ ?_
    · exact fun key lock value _ current => current.mono window
    · intro conn currSlave key resp value _ found _
      rw [<- sameReplies]
      exact .inl found
  flush := flush

/-- The map changes for one key, and the commit of its request is over; no
client may have a value of this key in hand. -/
theorem Current.commit {request : TPCRequest} {pc pc' : MasterPc cluster} {key value : JString}
    (window : ∀ other, pc.window = some other -> other = request)
    (different : key ≠ request.key) (current : Current spec pc key value) :
    Current (request.msg.effect spec) pc' key value := by
  rcases current with stored | ⟨other, open_, sameKey, _⟩
  · refine .inl ?_
    rw [request.effect_of_ne _ different]
    exact stored
  · rw [window other open_] at sameKey
    exact False.elim (different sameKey.symm)

end

/-! ## The steps of the call -/

variable {spec : Store} {event : Option Event} {state : State cluster}

/-- The master's cache cannot select a list for the key, so neither the cache
nor a client has a value of it. -/
theorem CacheSound.noLock (sound : CacheSound spec state)
    (window : ∀ other, state.master.window = some other -> other = request)
    (outOfRange : ¬ InRange cluster.masterCache request.key) :
    CacheSound (request.msg.effect spec) { state with master := .idle } where
  cached := by
    intro key value held
    refine (sound.cached key value held).commit window ?_
    rintro rfl
    exact outOfRange held.inRange
  clients := by
    intro client
    refine (sound.clients client).transfer (fun _ owned => owned) (fun _ opened => opened) ?_
      (fun _ _ _ _ _ _ found _ => .inl found)
    intro key lock value holding current
    refine current.commit window ?_
    rintro rfl
    exact outOfRange (by rw [InRange, holding.selected]; rfl)
  flush := trivial

open Function (update update_self update_of_ne)

/-- The flush takes a free lock, so no client loses one. -/
theorem CacheSound.lock {lock : Fin cluster.masterCache.numSets} (sound : CacheSound spec state)
    (here : state.master = .lock request lock) (free : state.locks lock = none) :
    CacheSound spec { state with
      master := .flush request lock
      locks := update state.locks lock (some .tpc) } := by
  have window : ∀ other, state.master.window = some other ->
      (MasterPc.flush request lock : MasterPc cluster).window = some other := by
    intro other open_
    rw [here] at open_
    exact open_
  have selected := sound.flush
  rw [here] at selected
  refine ⟨fun key value held => (sound.cached key value held).mono window, ?_,
    selected, update_self _ _ _⟩
  intro client
  refine (sound.clients client).transfer ?_ (fun _ opened => opened)
    (fun _ _ _ _ current => current.mono window) (fun _ _ _ _ _ _ found _ => .inl found)
  intro other owned
  have different : other ≠ lock := by
    rintro rfl
    rw [free] at owned
    cases owned
  simp only [update_of_ne different]
  exact owned

/-- A committed `put` has passed the slaves' checks, so its value is not empty. -/
theorem Agrees.value_nonempty {lock : Fin cluster.masterCache.numSets} (agrees : Agrees spec state)
    (here : state.master = .flush request lock) (isPut : request.msg.msgType = .putReq)
    (sameValue : request.msg.value = some value) : value.length ≠ 0 := by
  have meets := agrees.consistent.meets (cluster.ring.findFirstReplica request.key)
  rw [here] at meets
  simp only [MasterPc.standing, if_pos cluster.ring.first_mem_slaves] at meets
  rcases meets.2.1 with ⟨earlier, decision, _, sound, _, waits⟩
  rcases sound.votable _ waits with ⟨_, accepted⟩ | ⟨isDel, _⟩
  · rcases (validateKeyValue_eq_success_iff _ _).mp accepted with
      ⟨key, value', _, sameValue', acceptable⟩
    have same : value' = value := some.inj (sameValue'.symm.trans sameValue)
    subst same
    exact acceptable.2.1
  · rw [isPut] at isDel
    cases isDel

/-- After the flush, the cache has the request's value of the key or none. -/
theorem flushTo_spec {config : CacheConfig} (request : TPCRequest) (cache : KVCache config)
    (inRange : InRange config request.key)
    (nonempty : ∀ value, request.msg.msgType = .putReq ->
      request.msg.value = some value -> value.length ≠ 0) :
    ∃ after, State.flushTo request cache = .ok after ∧
      ∀ key value, after.Holds key value ->
        (key = request.key ∧ request.msg.value = some value) ∨
          (key ≠ request.key ∧ cache.Holds key value) := by
  have keyNonempty := request.cases.1
  rcases request.cases.2 with ⟨isPut, value, sameValue⟩ | ⟨isDel, noValue⟩
  · rcases cache.put_spec keyNonempty (nonempty value isPut sameValue) inRange with
      ⟨after, done, _, fromOld⟩
    refine ⟨after, ?_, ?_⟩
    · rw [State.flushTo, if_pos isPut, request.sameKey, sameValue, done]
    · intro key other held
      rcases fromOld key other held with ⟨sameKey, same⟩ | old
      · exact .inl ⟨sameKey, by rw [same]; exact sameValue⟩
      · exact .inr old
  · rcases cache.del_spec keyNonempty inRange with ⟨after, done, kept⟩
    refine ⟨after, ?_, fun key value held => .inr ((kept key value).mp held)⟩
    rw [State.flushTo, if_neg (by rw [isDel]; nofun), request.sameKey, done]

theorem CacheSound.flush_step {lock : Fin cluster.masterCache.numSets}
    (sound : CacheSound spec state) (agrees : Agrees spec state)
    (here : state.master = .flush request lock) :
    CacheSound (record spec (some (state.flushCache request lock).1))
      (state.flushCache request lock).2 := by
  have locked := sound.flush
  rw [here] at locked
  rcases locked with ⟨selected, owned⟩
  rcases flushTo_spec request state.masterCache (by rw [InRange, selected]; rfl)
    (fun value => agrees.value_nonempty here) with ⟨cache, done, fromOld⟩
  have window : ∀ other, state.master.window = some other -> other = request := by
    intro other open_
    rw [here] at open_
    exact (some.inj open_).symm
  simp only [State.flushCache, done]
  refine ⟨?_, ?_, trivial⟩
  · intro key value held
    rcases fromOld key value held with ⟨rfl, sameValue⟩ | ⟨different, old⟩
    · refine .inl ?_
      change request.msg.effect spec request.key = some value
      rw [request.effect_key]
      exact sameValue
    · exact (sound.cached key value old).commit window different
  · intro client
    refine (sound.clients client).transfer ?_ (fun _ opened => opened) ?_
      (fun _ _ _ _ _ _ found _ => .inl found)
    · intro other ownedByClient
      have different : other ≠ lock := by
        rintro rfl
        rw [owned] at ownedByClient
        cases ownedByClient
      simp only [update_of_ne different]
      exact ownedByClient
    · intro key other value holding current
      refine current.commit window ?_
      rintro rfl
      -- The client would hold the lock that the flush holds.
      have sameLock : other = lock := some.inj (holding.selected.symm.trans selected)
      have impossible := holding.owned
      rw [sameLock, owned] at impossible
      cases impossible

variable {after : State cluster}

theorem CacheSound.callStep (sound : CacheSound spec state) (agrees : Agrees spec state)
    (stepped : state.CallStep event after) : CacheSound (record spec event) after := by
  have same : ∀ awaited, state.net.Opened awaited -> state.net.Opened awaited :=
    fun _ opened => opened
  cases stepped with
  | rejected text idle | retryConnect => exact sound
  | begun request idle =>
    exact sound.inside same rfl (by rw [idle]; nofun) trivial
  | askVote here current sent =>
    exact sound.inside (fun _ => sent.opened) sent.sameReplies (by rw [here]; nofun) trivial
  | noConnection text here inside | noVote text here | vote here found | decided here finished =>
    exact sound.inside same rfl (by rw [here]; nofun) trivial
  | sendDecision here current facts =>
    refine sound.inside (fun _ => facts.opened) facts.sameReplies ?_ trivial
    intro request open_
    rw [here] at open_
    simp only [MasterPc.window, ite_none_right_eq_some] at open_ ⊢
    exact ⟨open_.1.2, open_.2⟩
  | noAck here | acked here found =>
    refine sound.inside same rfl ?_ trivial
    intro request open_
    rw [here] at open_
    simpa only [MasterPc.window, true_and] using open_
  | threw text here finished refused =>
    refine sound.inside same rfl ?_ trivial
    intro request open_
    have aborted := (agrees.threw here finished refused).1
    rw [here] at open_
    simp [MasterPc.window, aborted] at open_
  | getLock here finished agreed selected =>
    refine sound.inside same rfl ?_ selected
    intro request open_
    rw [here] at open_
    simp only [MasterPc.window, ite_none_right_eq_some] at open_ ⊢
    exact open_.2
  | noLock here finished agreed outOfRange =>
    refine sound.noLock ?_ outOfRange
    intro other open_
    rw [here] at open_
    simp only [MasterPc.window, ite_none_right_eq_some, some.injEq] at open_
    exact open_.2.symm
  | lock here free => exact sound.lock here free
  | flush here => exact sound.flush_step agrees here

/-! ## The steps of the slaves -/

variable {net : Network cluster.slaveCache cluster.ring.Slave}

theorem CacheSound.slaveStep {slave : cluster.ring.Slave} (sound : CacheSound spec state)
    (facts : Network.SlaveStepFacts state.net net slave)
    (agrees : Agrees spec { state with net := net }) :
    CacheSound spec { state with net := net } := by
  refine ⟨sound.cached, ?_, ?_⟩
  · intro client
    refine (sound.clients client).transfer (fun _ owned => owned) (fun _ => facts.opened)
      (fun _ _ _ _ current => current) ?_
    intro conn currSlave key resp value opened found sameValue
    rcases facts.replies conn resp found with old | ⟨rqst, replied⟩
    · exact .inl old
    · have member : (⟨conn, rqst⟩ : Task) ∈ (state.net.slaves slave).unfinished := by
        rw [replied.oldest]
        exact mem_cons_self
      have sameRqst : rqst = State.getMsg key := (opened.home slave _ member rfl).2
      subst sameRqst
      rcases replied.value rfl value sameValue with ⟨key', sameKey, stored⟩
      cases sameKey
      exact .inr (agrees.current_of_contents stored)
  · exact sound.flush

/-! ## The steps of the clients -/

variable {client : Nat}

/-- A step of one client leaves the others their locks and connections. -/
theorem CacheSound.move {cache : KVCache cluster.masterCache}
    {locks : Fin cluster.masterCache.numSets -> Option Owner} {pc : GetPc cluster}
    (sound : CacheSound spec state)
    (cached : ∀ key value, cache.Holds key value -> Current spec state.master key value)
    (keep : ∀ owner lock, owner ≠ .get client -> state.locks lock = some owner ->
      locks lock = some owner)
    (opened : ∀ awaited, state.net.Opened awaited -> net.Opened awaited)
    (sameReplies : net.replies = state.net.replies)
    (own : ClientFacts spec ⟨net, state.master, cache, locks,
      update state.gets client pc⟩ client pc) :
    CacheSound spec ⟨net, state.master, cache, locks, update state.gets client pc⟩ where
  cached := cached
  clients := by
    intro other
    by_cases same : other = client
    · subst same
      simp only [update_self]
      exact own
    · simp only [update_of_ne same]
      refine (sound.clients other).transfer ?_ opened (fun _ _ _ _ current => current) ?_
      · intro lock owned
        exact keep (.get other) lock (by rintro ⟨rfl⟩; exact same rfl) owned
      · intro conn currSlave key resp value _ found _
        rw [<- sameReplies]
        exact .inl found
  flush := by
    have before := sound.flush
    cases here : state.master with
    | flush request lock =>
      rw [here] at before
      exact ⟨before.1, keep .tpc lock nofun before.2⟩
    | lock request lock =>
      rw [here] at before
      exact before
    | idle | phase1 | waitVote | phase2 | waitAck => trivial

/-- Releasing its lock, a client takes it from nobody else. -/
theorem release_keeps {lock : Fin cluster.masterCache.numSets}
    (owned : state.locks lock = some (.get client)) :
    ∀ owner other, owner ≠ Owner.get client -> state.locks other = some owner ->
      update state.locks lock none other = some owner := by
  intro owner other different held
  have otherLock : other ≠ lock := by
    rintro rfl
    rw [owned] at held
    exact different (some.inj held).symm
  rw [update_of_ne otherLock]
  exact held

theorem CacheSound.release {lock : Fin cluster.masterCache.numSets} (sound : CacheSound spec state)
    (holding : Holding state client key lock) :
    CacheSound spec { state with
      gets := update state.gets client .idle
      locks := update state.locks lock none } :=
  sound.move sound.cached (release_keeps holding.owned) (fun _ opened => opened) rfl trivial

theorem CacheSound.clientStep (sound : CacheSound spec state) (agrees : Agrees spec state)
    (stepped : state.ClientStep client event after) : CacheSound spec after := by
  have facts := sound.clients client
  have keepAll : ∀ owner lock, owner ≠ Owner.get client -> state.locks lock = some owner ->
      state.locks lock = some owner := fun _ _ _ held => held
  have same : ∀ awaited, state.net.Opened awaited -> state.net.Opened awaited :=
    fun _ opened => opened
  cases stepped with
  | refused | noLock => exact sound
  | begun idle nonempty selected =>
    exact sound.move sound.cached keepAll same rfl ⟨nonempty, selected⟩
  | @lock key lock here free =>
    rw [here] at facts
    refine sound.move sound.cached ?_ same rfl ⟨facts.1, facts.2, update_self _ _ _⟩
    intro owner other _ held
    have otherLock : other ≠ lock := by
      rintro rfl
      rw [free] at held
      cases held
    rw [update_of_ne otherLock]
    exact held
  | @hit key value lock cache here found =>
    rw [here] at facts
    rcases state.masterCache.get_spec facts.nonempty
      (by rw [InRange, facts.selected]; rfl) with ⟨result, after, done, kept, hit, _⟩
    rw [found] at done
    cases done
    exact sound.move (fun key value held => sound.cached key value ((kept key value).mp held))
      keepAll same rfl ⟨⟨facts.nonempty, facts.selected, facts.owned⟩,
        sound.cached key value (hit value rfl)⟩
  | @miss key lock cache here missed =>
    rw [here] at facts
    rcases state.masterCache.get_spec facts.nonempty
      (by rw [InRange, facts.selected]; rfl) with ⟨result, after, done, kept, _⟩
    rw [missed] at done
    cases done
    exact sound.move (fun key value held => sound.cached key value ((kept key value).mp held))
      keepAll same rfl ⟨facts.nonempty, facts.selected, facts.owned⟩
  | ask here sent =>
    rw [here] at facts
    have opened := sent.opened_new agrees.consistent.ordered
    refine sound.move sound.cached keepAll (fun _ => sent.opened) sent.sameReplies
      ⟨⟨facts.nonempty, facts.selected, facts.owned⟩, opened.1, ?_⟩
    intro resp value found _
    rw [opened.2] at found
    cases found
  | noConnection here =>
    rw [here] at facts
    exact sound.move sound.cached keepAll same rfl
      ⟨facts.nonempty, facts.selected, facts.owned⟩
  | noAnswer here =>
    rw [here] at facts
    exact sound.move sound.cached keepAll same rfl
      ⟨facts.1.nonempty, facts.1.selected, facts.1.owned⟩
  | @answer key value lock currSlave rest conn resp here found sameValue =>
    rw [here] at facts
    exact sound.move sound.cached keepAll same rfl
      ⟨⟨facts.1.nonempty, facts.1.selected, facts.1.owned⟩,
        facts.2.2 resp value found sameValue⟩
  | @fill key value lock cache here filled =>
    rw [here] at facts
    refine sound.move ?_ keepAll same rfl
      ⟨⟨facts.1.nonempty, facts.1.selected, facts.1.owned⟩, facts.2⟩
    intro other otherValue held
    by_cases empty : value.length = 0
    · simp only [KVCache.put, empty, or_true, if_true, Except.ok.injEq] at filled
      exact sound.cached other otherValue (filled ▸ held)
    · rcases state.masterCache.put_spec facts.1.nonempty empty
        (by rw [InRange, facts.1.selected]; rfl) with ⟨after, done, _, fromOld⟩
      rw [filled] at done
      cases done
      rcases fromOld other otherValue held with ⟨rfl, rfl⟩ | ⟨_, old⟩
      · exact facts.2
      · exact sound.cached other otherValue old
  | returned here =>
    rw [here] at facts
    exact sound.release facts.1
  | threw holding quiet =>
    rcases holding with here | here | ⟨value, here⟩
    · rw [here] at facts
      exact sound.release facts
    · rw [here] at facts
      exact sound.release facts
    · rw [here] at facts
      exact sound.release facts.1

theorem CacheSound.step (sound : CacheSound spec state) (agrees : Agrees spec state)
    (stepped : State.Step state event after) : CacheSound (record spec event) after := by
  have agreesAfter := agrees.step stepped
  cases State.step_cases stepped with
  | call moved => exact sound.callStep agrees moved
  | slave moved =>
    have facts := Network.slaveStep_facts (agrees.consistent.ordered.valid _) moved
    exact sound.slaveStep facts agreesAfter
  | client moved =>
    rw [(moved.frame spec).2.1]
    exact sound.clientStep agrees moved

variable {events : List (Option Event)}

theorem cacheSound_of_run (run : Run State.Step State.initial events state) :
    CacheSound (history events) state := by
  induction run with
  | nil => exact cacheSound_initial
  | snoc earlier last ih =>
    rw [history_append_single]
    exact ih.step (agrees_of_run earlier) last

/-! ## What clients observe -/

/-- A request that took effect among these events. -/
def TookEffect (events : List (Option Event)) (request : TPCRequest) : Prop :=
  some (Event.returned request) ∈ events ∨
    ∃ fault, some (Event.flushFailed request fault) ∈ events

theorem TookEffect.append (took : TookEffect events request) (later : List (Option Event)) :
    TookEffect (events ++ later) request := by
  rcases took with member | ⟨fault, member⟩
  · exact .inl (mem_append_left _ member)
  · exact .inr ⟨fault, mem_append_left _ member⟩

/-- What an event does to the map at one key. -/
theorem record_key (spec : Store) (event : Option Event) (key : JString) :
    record spec event key = spec key ∨
      ∃ request, TookEffect [event] request ∧ request.key = key ∧
        record spec event key = request.msg.value := by
  unfold record
  split
  · next request =>
      by_cases same : key = request.key
      · subst same
        exact .inr ⟨request, .inl mem_cons_self, rfl, request.effect_key spec⟩
      · exact .inl (request.effect_of_ne spec same)
  · next request fault =>
      by_cases same : key = request.key
      · subst same
        exact .inr ⟨request, .inr ⟨fault, mem_cons_self⟩, rfl, request.effect_key spec⟩
      · exact .inl (request.effect_of_ne spec same)
  · exact .inl rfl

/-- The map at one key comes from before, or from a request among the later events. -/
theorem history_key (before later : List (Option Event)) (key : JString) :
    history (before ++ later) key = history before key ∨
      ∃ request, TookEffect later request ∧ request.key = key ∧
        history (before ++ later) key = request.msg.value := by
  induction later using List.reverseRecOn with
  | nil => exact .inl (by rw [append_nil])
  | append_singleton later event ih =>
    rw [<- append_assoc, history_append_single]
    rcases record_key (history (before ++ later)) event key with same | ⟨request, took, rest⟩
    · rw [same]
      rcases ih with old | ⟨request, took, rest⟩
      · exact .inl old
      · exact .inr ⟨request, took.append [event], rest⟩
    · refine .inr ⟨request, ?_, rest⟩
      rcases took with member | ⟨fault, member⟩
      · exact .inl (mem_append_right _ member)
      · exact .inr ⟨fault, mem_append_right _ member⟩

/-- What clients of the master's cache rely on, in a run with these events that
ends in `state`. -/
structure CacheCoherent (cluster : Cluster) (events : List (Option Event))
    (state : State cluster) : Prop where
  /-- Unless a request on the key is between its first COMMIT and its flush, a
  cached value is what both replicas store. -/
  entries : ∀ key value,
    (∀ request, state.master.window = some request -> request.key ≠ key) ->
    state.masterCache.Holds key value ->
    ∀ slave, slave ∈ cluster.ring.slaves key -> state.contents slave key = some value
  /-- A value that a `handleGet` returns after a request on the key completed is
  the one of this request, or of a later one that took effect or is being committed. -/
  reads : ∀ before request later client value,
    events = before ++ some (.returned request) :: later ++
      [some (.getReturned client request.key value)] ->
    request.msg.value = some value ∨
      ∃ newer, newer.key = request.key ∧ newer.msg.value = some value ∧
        (TookEffect later newer ∨ state.master.window = some newer)

/-- The value that a `handleGet` returns is current when it gives up its lock. -/
theorem step_getReturned (sound : CacheSound spec state)
    (stepped : State.Step state (some (.getReturned client key value)) after) :
    Current spec after.master key value := by
  generalize observed : some (Event.getReturned client key value) = label at stepped
  cases State.step_cases stepped with
  | slave moved => cases observed
  | call moved =>
    cases moved with
    | @flush request lock here =>
      unfold State.flushCache at observed
      split at observed <;> cases observed
    | _ => cases observed
  | client moved =>
    cases moved with
    | returned here =>
      cases observed
      have facts := sound.clients client
      rw [here] at facts
      exact facts.2
    | threw _ quiet =>
      cases observed
      rcases quiet with ⟨text, impossible⟩ | ⟨fault, impossible, _⟩ <;> cases impossible
    | _ => cases observed

/-- The master's cache is coherent in every run. -/
theorem masterCache_coherent (cluster : Cluster) {events : List (Option Event)}
    {state : State cluster} (run : Run State.Step State.initial events state) :
    CacheCoherent cluster events state where
  entries := fun key value closed held slave member =>
    (agrees_of_run run).contents_of_current closed
      ((cacheSound_of_run run).cached key value held) member
  reads := by
    intro before request later client value same
    rw [same] at run
    rcases run.last with ⟨previous, earlier, stepped⟩
    have split : before ++ some (.returned request) :: later =
        (before ++ [some (.returned request)]) ++ later := by
      rw [append_assoc, singleton_append]
    have completed : history (before ++ [some (.returned request)]) request.key =
        request.msg.value := by
      rw [history_append_single]
      exact request.effect_key _
    rcases step_getReturned (cacheSound_of_run earlier) stepped with
      stored | ⟨newer, window, sameKey, sameValue⟩
    · rw [split] at stored
      rcases history_key (before ++ [some (.returned request)]) later request.key with
        unchanged | ⟨newer, took, sameKey, newValue⟩
      · rw [unchanged, completed] at stored
        exact .inl stored
      · rw [newValue] at stored
        exact .inr ⟨newer, sameKey, stored, .inl took⟩
    · exact .inr ⟨newer, sameKey, sameValue, .inr window⟩

/-- A `handleGet` that finds its key in the master's cache. -/
def sampleGet : List (Action sampleCluster) :=
  [.get 0 (.call (State.getMsg (JString.ofAscii "k"))), .get 0 .lock, .get 0 .lookup,
    .get 0 .leave]

theorem masterCache_coherent_sample :
    ∃ events state,
      execute State.next State.initial (samplePut ++ sampleGet) = some (events, state) ∧
        CacheCoherent sampleCluster events state := by
  have possible : (execute State.next (State.initial : State sampleCluster)
      (samplePut ++ sampleGet)).isSome = true := by decide +kernel
  rcases Option.isSome_iff_exists.mp possible with ⟨⟨events, state⟩, done⟩
  exact ⟨events, state, done, masterCache_coherent sampleCluster (run_of_execute done)⟩

end KVStore
end Codebank
