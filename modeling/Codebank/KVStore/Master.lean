import Codebank.KVStore.Network
import Codebank.KVStore.Ring

namespace Codebank
namespace KVStore

open Function (update)

/-!
# The master, its cache and its clients

`handleTPCRequest` is `synchronized`, so there is at most one call of it at a
time; any number of `handleGet` calls run beside it, one for each client.  Each
call is a small machine whose steps are interleaved with the steps of the slaves.

A `KVException` while the master connects, sends or waits for a reply is the
action `fail`; it is possible at any such point.  All slaves have registered.
-/

/-- The master's ring of slaves and the sizes of the caches. -/
structure Cluster where
  ring : SlaveRing
  masterCache : CacheConfig
  slaveCache : CacheConfig

def isValidTPCRequest (msg : KVMessage) : Bool :=
  match msg.msgType, msg.message, msg.key, msg.value with
  | .putReq, none, some key, some _ => key.length != 0
  | .delReq, none, some key, none => key.length != 0
  | _, _, _, _ => false

def isValidGetRequest (msg : KVMessage) : Bool :=
  match msg.key, msg.value, msg.message with
  | some key, none, none => key.length != 0
  | _, _, _ => false

/-- A key that is null or empty. -/
def KVMessage.noKey (msg : KVMessage) : Bool :=
  match msg.key with
  | none => true
  | some key => key.length == 0

/-- A request that passed `isValidTPCRequest`, with its key. -/
structure TPCRequest where
  msg : KVMessage
  key : JString
  sameKey : msg.key = some key
  valid : isValidTPCRequest msg = true

/-- A valid request is a `put` with a value or a `del` without one. -/
theorem TPCRequest.cases (request : TPCRequest) :
    request.key.length ≠ 0 ∧
      ((request.msg.msgType = .putReq ∧ ∃ value, request.msg.value = some value) ∨
        (request.msg.msgType = .delReq ∧ request.msg.value = none)) := by
  rcases request with ⟨msg, key, sameKey, valid⟩
  unfold isValidTPCRequest at valid
  split at valid
  · next key' value isPut _ sameKey' sameValue =>
      cases sameKey.symm.trans sameKey'
      exact ⟨by simpa using valid, .inl ⟨isPut, value, sameValue⟩⟩
  · next key' isDel _ sameKey' noValue =>
      cases sameKey.symm.trans sameKey'
      exact ⟨by simpa using valid, .inr ⟨isDel, noValue⟩⟩
  · cases valid

/-- The outcome of phase 1 so far. -/
structure Votes where
  globalAbort : Bool
  abortMessage : Option String

def Votes.initial : Votes := ⟨false, none⟩

/-- What a reply to the vote request adds. -/
def Votes.count (votes : Votes) (resp : KVMessage) : Votes :=
  if resp.msgType = .ready then votes else ⟨true, resp.message⟩

/-- The message of phase 2. -/
def Votes.phase2Msg (votes : Votes) : KVMessage :=
  { msgType := if votes.globalAbort then .abort else .commit }

/-- Where `handleTPCRequest` is.  `index` counts the slaves that the current
loop is done with. -/
inductive MasterPc (cluster : Cluster) where
  | idle
  | phase1 (request : TPCRequest) (votes : Votes) (index : Nat)
  | waitVote (request : TPCRequest) (votes : Votes) (index : Nat) (currSlave : cluster.ring.Slave)
      (conn : Nat)
  -- `sent` records whether any slave was sent the decision; no step reads it
  | phase2 (request : TPCRequest) (votes : Votes) (index : Nat) (invalidFormat sent : Bool)
  | waitAck (request : TPCRequest) (votes : Votes) (index : Nat) (invalidFormat : Bool)
      (currSlave : cluster.ring.Slave) (conn : Nat)
  | lock (request : TPCRequest) (lock : Fin cluster.masterCache.numSets)
  | flush (request : TPCRequest) (lock : Fin cluster.masterCache.numSets)

/-- Where a `handleGet` is.  `rest` are the replicas that were not asked yet. -/
inductive GetPc (cluster : Cluster) where
  | idle
  | lock (key : JString) (lock : Fin cluster.masterCache.numSets)
  | lookup (key : JString) (lock : Fin cluster.masterCache.numSets)
  | ask (key : JString) (lock : Fin cluster.masterCache.numSets) (rest : List cluster.ring.Slave)
  | wait (key : JString) (lock : Fin cluster.masterCache.numSets) (rest : List cluster.ring.Slave)
      (currSlave : cluster.ring.Slave) (conn : Nat)
  | fill (key : JString) (lock : Fin cluster.masterCache.numSets) (value : JString)
  | leave (key : JString) (lock : Fin cluster.masterCache.numSets) (value : JString)

/-- Who holds a lock of the master's cache. -/
inductive Owner where
  | tpc
  | get (client : Nat)
  deriving DecidableEq, Repr

/-- What callers observe. -/
inductive Event where
  | rejected (text : String)
  | begun (request : TPCRequest)
  | decided (globalAbort : Bool)
  | threw (text : String)
  | returned (request : TPCRequest)
  -- an exception of the master's cache after a COMMIT
  | flushFailed (request : TPCRequest) (fault : Fault)
  | getBegun (client : Nat) (key : JString)
  | getReturned (client : Nat) (key value : JString)
  | getThrew (client : Nat) (text : String)
  | getFailed (client : Nat) (fault : Fault)

structure State (cluster : Cluster) where
  net : Network cluster.slaveCache cluster.ring.Slave
  master : MasterPc cluster
  masterCache : KVCache cluster.masterCache
  locks : Fin cluster.masterCache.numSets -> Option Owner
  gets : Nat -> GetPc cluster

inductive GetAction where
  | call (msg : KVMessage)
  | lock
  | lookup
  | connect (arrives : Bool)
  | fail
  | receive
  | fill
  | leave
  deriving DecidableEq, Repr

inductive Action (cluster : Cluster) where
  | call (msg : KVMessage)
  | connect (arrives : Bool)
  | fail (text : String)
  | receive
  | decide
  | conclude
  | lock
  | flush
  | get (client : Nat) (action : GetAction)
  | slave (slave : cluster.ring.Slave) (action : SlaveAction)

namespace State

variable {cluster : Cluster}

def initial : State cluster where
  net := Network.initial
  master := .idle
  masterCache := KVCache.empty
  locks := fun _ => none
  gets := fun _ => .idle

/-- The request a `handleGet` sends: its own `msg`, which `isValidGetRequest`
has left nothing but a key in. -/
def getMsg (key : JString) : KVMessage := { msgType := .getReq, key := some key }

/-- Entering `handleTPCRequest`. -/
def beginCall (state : State cluster) (msg : KVMessage) : Event × State cluster :=
  match hkey : msg.key, hvalid : isValidTPCRequest msg with
  | some key, true =>
    let request : TPCRequest := ⟨msg, key, hkey, hvalid⟩
    (.begun request, { state with master := .phase1 request Votes.initial 0 })
  | _, _ => (.rejected (if msg.noKey then ERROR_INVALID_KEY else ERROR_INVALID_FORMAT), state)

/-- Phase 2 is done: throw, or go on to the master's cache. -/
def concludeCall (state : State cluster) (request : TPCRequest) (votes : Votes)
    (invalidFormat : Bool) : Option Event × State cluster :=
  if votes.globalAbort then
    (some (.threw (votes.abortMessage.getD ERROR_INVALID_FORMAT)), { state with master := .idle })
  else if invalidFormat then
    (some (.threw ERROR_INVALID_FORMAT), { state with master := .idle })
  else match state.masterCache.getLock request.msg.key with
    | .error fault => (some (.flushFailed request fault), { state with master := .idle })
    | .ok none => (some (.flushFailed request .nullPointer), { state with master := .idle })
    | .ok (some lock) => (none, { state with master := .lock request lock })

/-- The change to the master's cache after a COMMIT. -/
def flushTo {config : CacheConfig} (request : TPCRequest) (cache : KVCache config) :
    Except Fault (KVCache config) :=
  if request.msg.msgType = .putReq then cache.put request.msg.key request.msg.value
  else cache.del request.msg.key

/-- This change, and the release of the lock. -/
def flushCache (state : State cluster) (request : TPCRequest)
    (lock : Fin cluster.masterCache.numSets) : Event × State cluster :=
  match flushTo request state.masterCache with
  | .error fault =>
    (.flushFailed request fault, { state with
      master := .idle
      locks := update state.locks lock none })
  | .ok cache =>
    (.returned request, { state with
      master := .idle
      locks := update state.locks lock none
      masterCache := cache })

/-- One step of the `handleGet` of a client. -/
def getStep (state : State cluster) (client : Nat) (action : GetAction) :
    Option (Option Event × State cluster) :=
  let goTo (pc : GetPc cluster) : State cluster :=
    { state with gets := update state.gets client pc }
  let leaveTo (lock : Fin cluster.masterCache.numSets) : State cluster :=
    { goTo .idle with locks := update state.locks lock none }
  match action, state.gets client with
  | .call msg, .idle =>
    if msg.msgType ≠ .getReq then none
    else match isValidGetRequest msg, msg.key with
      | true, some key =>
        match state.masterCache.getLock msg.key with
        | .error fault => some (some (.getFailed client fault), state)
        | .ok none => some (some (.getFailed client .nullPointer), state)
        | .ok (some lock) => some (some (.getBegun client key), goTo (.lock key lock))
      | _, _ =>
        some (some (.getThrew client
          (if msg.noKey then ERROR_NO_SUCH_KEY else ERROR_INVALID_FORMAT)), state)
  | .lock, .lock key lock =>
    if state.locks lock = none then
      some (none, { goTo (.lookup key lock) with
        locks := update state.locks lock (some (.get client)) })
    else none
  | .lookup, .lookup key lock =>
    match state.masterCache.get (some key) with
    | .error fault => some (some (.getFailed client fault), leaveTo lock)
    | .ok (some value, cache) =>
      some (none, { goTo (.leave key lock value) with masterCache := cache })
    | .ok (none, cache) =>
      some (none, { goTo (.ask key lock (cluster.ring.slaves key)) with masterCache := cache })
  | .connect arrives, .ask key lock (currSlave :: rest) =>
    match state.net.send currSlave (getMsg key) arrives with
    | none => none
    | some net =>
      some (none, { goTo (.wait key lock rest currSlave state.net.nextConn) with net := net })
  | .fail, .ask key lock (_ :: rest) => some (none, goTo (.ask key lock rest))
  | .fail, .wait key lock rest _ _ => some (none, goTo (.ask key lock rest))
  | .receive, .wait key lock rest _ conn =>
    match state.net.replies conn with
    | none => none
    | some resp =>
      match if resp.msgType = .resp then resp.value else none with
      | some value => some (none, goTo (.fill key lock value))
      | none => some (none, goTo (.ask key lock rest))
  | .fill, .fill key lock value =>
    match state.masterCache.put (some key) (some value) with
    | .error fault => some (some (.getFailed client fault), leaveTo lock)
    | .ok cache =>
      some (none, { goTo (.leave key lock value) with masterCache := cache })
  | .leave, .ask _ lock [] => some (some (.getThrew client ERROR_NO_SUCH_KEY), leaveTo lock)
  | .leave, .leave key lock value =>
    some (some (.getReturned client key value), leaveTo lock)
  | _, _ => none

/-- One step of the system. -/
def next (state : State cluster) (action : Action cluster) :
    Option (Option Event × State cluster) :=
  match action, state.master with
  | .call msg, .idle =>
    if msg.msgType = .putReq ∨ msg.msgType = .delReq then
      some (some (state.beginCall msg).1, (state.beginCall msg).2)
    else none
  | .connect arrives, .phase1 request votes index =>
    match (cluster.ring.slaves request.key)[index]? with
    | none => none
    | some currSlave =>
      match state.net.send currSlave request.msg arrives with
      | none => none
      | some net =>
        some (none, { state with
          net := net
          master := .waitVote request votes index currSlave state.net.nextConn })
  | .connect arrives, .phase2 request votes index invalidFormat _ =>
    match (cluster.ring.slaves request.key)[index]? with
    | none => none
    | some currSlave =>
      match state.net.send currSlave votes.phase2Msg arrives with
      | none => none
      | some net =>
        some (none, { state with
          net := net
          master := .waitAck request votes index invalidFormat currSlave
            state.net.nextConn })
  | .fail text, .phase1 request _ index =>
    if index < (cluster.ring.slaves request.key).length then
      some (none, { state with master := .phase1 request ⟨true, some text⟩ (index + 1) })
    else none
  | .fail text, .waitVote request _ index _ _ =>
    some (none, { state with master := .phase1 request ⟨true, some text⟩ (index + 1) })
  | .fail _, .phase2 _ _ _ _ _ => some (none, state)
  | .fail _, .waitAck request votes index invalidFormat _ _ =>
    some (none, { state with master := .phase2 request votes index invalidFormat true })
  | .receive, .waitVote request votes index _ conn =>
    match state.net.replies conn with
    | none => none
    | some resp =>
      some (none, { state with master := .phase1 request (votes.count resp) (index + 1) })
  | .receive, .waitAck request votes index invalidFormat _ conn =>
    match state.net.replies conn with
    | none => none
    | some resp =>
      some (none, { state with
        master := .phase2 request votes (index + 1)
          (invalidFormat || resp.msgType != .ack) true })
  | .decide, .phase1 request votes index =>
    if index < (cluster.ring.slaves request.key).length then none
    else some (some (.decided votes.globalAbort),
      { state with master := .phase2 request votes 0 false false })
  | .conclude, .phase2 request votes index invalidFormat _ =>
    if index < (cluster.ring.slaves request.key).length then none
    else some (state.concludeCall request votes invalidFormat)
  | .lock, .lock request lock =>
    if state.locks lock = none then
      some (none, { state with
        master := .flush request lock
        locks := update state.locks lock (some .tpc) })
    else none
  | .flush, .flush request lock =>
    some (some (state.flushCache request lock).1, (state.flushCache request lock).2)
  | .get client getAction, _ => state.getStep client getAction
  | .slave slave slaveAction, _ =>
    match state.net.slaveStep slave slaveAction with
    | none => none
    | some net => some (none, { state with net := net })
  | _, _ => none

/-- The system as a transition relation labelled with what callers observe. -/
def Step (state : State cluster) (event : Option Event) (after : State cluster) : Prop :=
  ∃ action, state.next action = some (event, after)

/-! ## What a step can do -/

/-- The steps of `handleTPCRequest`, one constructor for each. -/
inductive CallStep (state : State cluster) : Option Event -> State cluster -> Prop where
  | rejected (text : String) (idle : state.master = .idle) :
      CallStep state (some (.rejected text)) state
  | begun (request : TPCRequest) (idle : state.master = .idle) :
      CallStep state (some (.begun request))
        { state with master := .phase1 request Votes.initial 0 }
  | askVote {request : TPCRequest} {votes : Votes} {index : Nat}
      {currSlave : cluster.ring.Slave} {net : Network cluster.slaveCache cluster.ring.Slave}
      (here : state.master = .phase1 request votes index)
      (current : (cluster.ring.slaves request.key)[index]? = some currSlave)
      (sent : Network.SendFacts state.net net currSlave request.msg) :
      CallStep state none { state with
        net := net
        master := .waitVote request votes index currSlave state.net.nextConn }
  | noConnection {request : TPCRequest} {votes : Votes} {index : Nat} (text : String)
      (here : state.master = .phase1 request votes index)
      (inside : index < (cluster.ring.slaves request.key).length) :
      CallStep state none
        { state with master := .phase1 request ⟨true, some text⟩ (index + 1) }
  | noVote {request : TPCRequest} {votes : Votes} {index : Nat}
      {currSlave : cluster.ring.Slave} {conn : Nat} (text : String)
      (here : state.master = .waitVote request votes index currSlave conn) :
      CallStep state none
        { state with master := .phase1 request ⟨true, some text⟩ (index + 1) }
  | vote {request : TPCRequest} {votes : Votes} {index : Nat}
      {currSlave : cluster.ring.Slave} {conn : Nat} {resp : KVMessage}
      (here : state.master = .waitVote request votes index currSlave conn)
      (found : state.net.replies conn = some resp) :
      CallStep state none
        { state with master := .phase1 request (votes.count resp) (index + 1) }
  | decided {request : TPCRequest} {votes : Votes} {index : Nat}
      (here : state.master = .phase1 request votes index)
      (finished : (cluster.ring.slaves request.key).length <= index) :
      CallStep state (some (.decided votes.globalAbort))
        { state with master := .phase2 request votes 0 false false }
  | sendDecision {request : TPCRequest} {votes : Votes} {index : Nat}
      {invalidFormat sent : Bool} {currSlave : cluster.ring.Slave}
      {net : Network cluster.slaveCache cluster.ring.Slave}
      (here : state.master = .phase2 request votes index invalidFormat sent)
      (current : (cluster.ring.slaves request.key)[index]? = some currSlave)
      (facts : Network.SendFacts state.net net currSlave votes.phase2Msg) :
      CallStep state none { state with
        net := net
        master := .waitAck request votes index invalidFormat currSlave state.net.nextConn }
  | retryConnect : CallStep state none state
  | noAck {request : TPCRequest} {votes : Votes} {index : Nat} {invalidFormat : Bool}
      {currSlave : cluster.ring.Slave} {conn : Nat}
      (here : state.master = .waitAck request votes index invalidFormat currSlave conn) :
      CallStep state none { state with master := .phase2 request votes index invalidFormat true }
  | acked {request : TPCRequest} {votes : Votes} {index : Nat} {invalidFormat : Bool}
      {currSlave : cluster.ring.Slave} {conn : Nat} {resp : KVMessage}
      (here : state.master = .waitAck request votes index invalidFormat currSlave conn)
      (found : state.net.replies conn = some resp) :
      CallStep state none { state with
        master := .phase2 request votes (index + 1) (invalidFormat || resp.msgType != .ack) true }
  | threw {request : TPCRequest} {votes : Votes} {index : Nat} {invalidFormat sent : Bool}
      (text : String) (here : state.master = .phase2 request votes index invalidFormat sent)
      (finished : (cluster.ring.slaves request.key).length <= index)
      (refused : votes.globalAbort = true ∨ invalidFormat = true) :
      CallStep state (some (.threw text)) { state with master := .idle }
  | noLock {request : TPCRequest} {votes : Votes} {index : Nat} {invalidFormat sent : Bool}
      {fault : Fault} (here : state.master = .phase2 request votes index invalidFormat sent)
      (finished : (cluster.ring.slaves request.key).length <= index)
      (agreed : votes.globalAbort = false)
      (outOfRange : ¬ InRange cluster.masterCache request.key) :
      CallStep state (some (.flushFailed request fault)) { state with master := .idle }
  | getLock {request : TPCRequest} {votes : Votes} {index : Nat} {invalidFormat sent : Bool}
      {lock : Fin cluster.masterCache.numSets}
      (here : state.master = .phase2 request votes index invalidFormat sent)
      (finished : (cluster.ring.slaves request.key).length <= index)
      (agreed : votes.globalAbort = false)
      (selected : setIndex? cluster.masterCache.numSets request.key = some lock) :
      CallStep state none { state with master := .lock request lock }
  | lock {request : TPCRequest} {lock : Fin cluster.masterCache.numSets}
      (here : state.master = .lock request lock) (free : state.locks lock = none) :
      CallStep state none { state with
        master := .flush request lock
        locks := update state.locks lock (some .tpc) }
  | flush {request : TPCRequest} {lock : Fin cluster.masterCache.numSets}
      (here : state.master = .flush request lock) :
      CallStep state (some (state.flushCache request lock).1) (state.flushCache request lock).2

theorem callStep_of_beginCall (state : State cluster) (msg : KVMessage)
    (idle : state.master = .idle) :
    CallStep state (some (state.beginCall msg).1) (state.beginCall msg).2 := by
  unfold beginCall
  split
  · exact .begun _ idle
  · exact .rejected _ idle

theorem callStep_of_concludeCall (state : State cluster) {request : TPCRequest} {votes : Votes}
    {index : Nat} {invalidFormat sent : Bool}
    (here : state.master = .phase2 request votes index invalidFormat sent)
    (finished : (cluster.ring.slaves request.key).length <= index) :
    CallStep state (state.concludeCall request votes invalidFormat).1
      (state.concludeCall request votes invalidFormat).2 := by
  unfold concludeCall
  by_cases refused : votes.globalAbort = true
  · rw [if_pos refused]
    exact .threw _ here finished (.inl refused)
  · have agreed : votes.globalAbort = false := by simpa using refused
    rw [if_neg refused]
    by_cases invalid : invalidFormat = true
    · rw [if_pos invalid]
      exact .threw _ here finished (.inr invalid)
    · rw [if_neg invalid, request.sameKey]
      cases selected : setIndex? cluster.masterCache.numSets request.key with
      | none =>
        rw [state.masterCache.getLock_missing request.cases.1 selected]
        refine .noLock here finished agreed ?_
        rw [InRange, selected]
        exact Bool.false_ne_true
      | some lock =>
        rw [state.masterCache.getLock_selected request.cases.1 selected]
        exact .getLock here finished agreed selected

/-- The steps of a `handleGet`, one constructor for each. -/
inductive ClientStep (state : State cluster) (client : Nat) :
    Option Event -> State cluster -> Prop where
  | refused (text : String) : ClientStep state client (some (.getThrew client text)) state
  | noLock {key : JString} {fault : Fault} (nonempty : key.length ≠ 0)
      (outOfRange : ¬ InRange cluster.masterCache key) :
      ClientStep state client (some (.getFailed client fault)) state
  | begun {key : JString} {lock : Fin cluster.masterCache.numSets}
      (idle : state.gets client = .idle) (nonempty : key.length ≠ 0)
      (selected : setIndex? cluster.masterCache.numSets key = some lock) :
      ClientStep state client (some (.getBegun client key))
        { state with gets := update state.gets client (.lock key lock) }
  | lock {key : JString} {lock : Fin cluster.masterCache.numSets}
      (here : state.gets client = .lock key lock) (free : state.locks lock = none) :
      ClientStep state client none { state with
        gets := update state.gets client (.lookup key lock)
        locks := update state.locks lock (some (.get client)) }
  | hit {key value : JString} {lock : Fin cluster.masterCache.numSets}
      {cache : KVCache cluster.masterCache} (here : state.gets client = .lookup key lock)
      (found : state.masterCache.get (some key) = .ok (some value, cache)) :
      ClientStep state client none { state with
        gets := update state.gets client (.leave key lock value)
        masterCache := cache }
  | miss {key : JString} {lock : Fin cluster.masterCache.numSets}
      {cache : KVCache cluster.masterCache} (here : state.gets client = .lookup key lock)
      (missed : state.masterCache.get (some key) = .ok (none, cache)) :
      ClientStep state client none { state with
        gets := update state.gets client
          (.ask key lock (cluster.ring.slaves key))
        masterCache := cache }
  | ask {key : JString} {lock : Fin cluster.masterCache.numSets}
      {currSlave : cluster.ring.Slave} {rest : List cluster.ring.Slave}
      {net : Network cluster.slaveCache cluster.ring.Slave}
      (here : state.gets client = .ask key lock (currSlave :: rest))
      (sent : Network.SendFacts state.net net currSlave (getMsg key)) :
      ClientStep state client none { state with
        net := net
        gets := update state.gets client
          (.wait key lock rest currSlave state.net.nextConn) }
  | noConnection {key : JString} {lock : Fin cluster.masterCache.numSets}
      {currSlave : cluster.ring.Slave} {rest : List cluster.ring.Slave}
      (here : state.gets client = .ask key lock (currSlave :: rest)) :
      ClientStep state client none { state with
        gets := update state.gets client (.ask key lock rest) }
  | noAnswer {key : JString} {lock : Fin cluster.masterCache.numSets}
      {currSlave : cluster.ring.Slave} {rest : List cluster.ring.Slave} {conn : Nat}
      (here : state.gets client = .wait key lock rest currSlave conn) :
      ClientStep state client none { state with
        gets := update state.gets client (.ask key lock rest) }
  | answer {key value : JString} {lock : Fin cluster.masterCache.numSets}
      {currSlave : cluster.ring.Slave} {rest : List cluster.ring.Slave} {conn : Nat}
      {resp : KVMessage} (here : state.gets client = .wait key lock rest currSlave conn)
      (found : state.net.replies conn = some resp) (sameValue : resp.value = some value) :
      ClientStep state client none { state with
        gets := update state.gets client (.fill key lock value) }
  | fill {key value : JString} {lock : Fin cluster.masterCache.numSets}
      {cache : KVCache cluster.masterCache} (here : state.gets client = .fill key lock value)
      (filled : state.masterCache.put (some key) (some value) = .ok cache) :
      ClientStep state client none { state with
        gets := update state.gets client (.leave key lock value)
        masterCache := cache }
  | returned {key value : JString} {lock : Fin cluster.masterCache.numSets}
      (here : state.gets client = .leave key lock value) :
      ClientStep state client (some (.getReturned client key value)) { state with
        gets := update state.gets client .idle
        locks := update state.locks lock none }
  | threw {key : JString} {lock : Fin cluster.masterCache.numSets} {event : Event}
      (holding : state.gets client = .lookup key lock ∨
        state.gets client = .ask key lock [] ∨
        ∃ value, state.gets client = .fill key lock value)
      (quiet : (∃ text, event = .getThrew client text) ∨
        ∃ fault, event = .getFailed client fault ∧
          (state.masterCache.get (some key) = .error fault ∨
            ∃ value, state.masterCache.put (some key) (some value) = .error fault)) :
      ClientStep state client (some event) { state with
        gets := update state.gets client .idle
        locks := update state.locks lock none }

theorem isValidGetRequest_key {msg : KVMessage} {key : JString} (sameKey : msg.key = some key)
    (valid : isValidGetRequest msg = true) : key.length ≠ 0 := by
  rcases msg with ⟨type, msgKey, value, message⟩
  change msgKey = some key at sameKey
  subst sameKey
  cases value <;> cases message <;> simp_all [isValidGetRequest]

variable {event : Option Event}

theorem clientStep_of_getStep {state after : State cluster} {client : Nat} {action : GetAction}
    (stepped : state.getStep client action = some (event, after)) :
    ClientStep state client event after := by
  unfold getStep at stepped
  split at stepped
  · next msg idle =>
      split at stepped
      · cases stepped
      · split at stepped
        · next key valid sameKey =>
            have nonempty := isValidGetRequest_key sameKey valid
            rw [sameKey] at stepped
            cases selected : setIndex? cluster.masterCache.numSets key with
            | none =>
              rw [state.masterCache.getLock_missing nonempty selected] at stepped
              cases stepped
              refine .noLock nonempty ?_
              rw [InRange, selected]
              exact Bool.false_ne_true
            | some lock =>
              rw [state.masterCache.getLock_selected nonempty selected] at stepped
              cases stepped
              exact .begun idle nonempty selected
        · cases stepped
          exact .refused _
  · next key lock here =>
      split at stepped
      · next free =>
          cases stepped
          exact .lock here free
      · cases stepped
  · next key lock here =>
      split at stepped
      · next failed =>
          cases stepped
          exact .threw (.inl here) (.inr ⟨_, rfl, .inl failed⟩)
      · next found =>
          cases stepped
          exact .hit here found
      · next missed =>
          cases stepped
          exact .miss here missed
  · next arrives key lock currSlave rest here =>
      split at stepped
      · cases stepped
      · next net sent =>
          cases stepped
          exact .ask here (Network.send_facts sent)
  · next here =>
      cases stepped
      exact .noConnection here
  · next here =>
      cases stepped
      exact .noAnswer here
  · next key lock rest currSlave conn here =>
      split at stepped
      · cases stepped
      · next resp found =>
          split at stepped
          · next value sameValue =>
              cases stepped
              refine .answer here found ?_
              split at sameValue
              · exact sameValue
              · cases sameValue
          · cases stepped
            exact .noAnswer here
  · next key lock value here =>
      split at stepped
      · next failed =>
          cases stepped
          exact .threw (.inr (.inr ⟨value, here⟩)) (.inr ⟨_, rfl, .inr ⟨value, failed⟩⟩)
      · next cache filled =>
          cases stepped
          exact .fill here filled
  · next key lock here =>
      cases stepped
      exact .threw (.inr (.inl here)) (.inl ⟨_, rfl⟩)
  · next key lock value here =>
      cases stepped
      exact .returned here
  · cases stepped

/-- A step of the system is one of the call, of a client, or of a slave. -/
inductive StepCases (state : State cluster) : Option Event -> State cluster -> Prop where
  | call {event : Option Event} {after : State cluster}
      (stepped : CallStep state event after) : StepCases state event after
  | client {client : Nat} {event : Option Event} {after : State cluster}
      (stepped : ClientStep state client event after) : StepCases state event after
  | slave {slave : cluster.ring.Slave} {action : SlaveAction}
      {net : Network cluster.slaveCache cluster.ring.Slave}
      (stepped : state.net.slaveStep slave action = some net) :
      StepCases state none { state with net := net }

theorem step_cases {state after : State cluster} (stepped : Step state event after) :
    StepCases state event after := by
  rcases stepped with ⟨action, stepped⟩
  unfold next at stepped
  split at stepped
  · next msg idle =>
      split at stepped
      · cases stepped
        exact .call (callStep_of_beginCall state msg idle)
      · cases stepped
  · next arrives request votes index here =>
      split at stepped
      · cases stepped
      · next currSlave current =>
          split at stepped
          · cases stepped
          · next net sent =>
              cases stepped
              exact .call (.askVote here current (Network.send_facts sent))
  · next arrives request votes index invalidFormat sent here =>
      split at stepped
      · cases stepped
      · next currSlave current =>
          split at stepped
          · cases stepped
          · next net sent =>
              cases stepped
              exact .call (.sendDecision here current (Network.send_facts sent))
  · next text request votes index here =>
      split at stepped
      · next inside =>
          cases stepped
          exact .call (.noConnection text here inside)
      · cases stepped
  · next text request votes index currSlave conn here =>
      cases stepped
      exact .call (.noVote text here)
  · cases stepped
    exact .call .retryConnect
  · next here =>
      cases stepped
      exact .call (.noAck here)
  · next here =>
      split at stepped
      · cases stepped
      · next resp found =>
          cases stepped
          exact .call (.vote here found)
  · next here =>
      split at stepped
      · cases stepped
      · next resp found =>
          cases stepped
          exact .call (.acked here found)
  · next here =>
      split at stepped
      · cases stepped
      · next finished =>
          cases stepped
          exact .call (.decided here (Nat.not_lt.mp finished))
  · next request votes index invalidFormat sent here =>
      split at stepped
      · cases stepped
      · next finished =>
          have concluded := callStep_of_concludeCall state here (Nat.not_lt.mp finished)
          rw [Option.some.inj stepped] at concluded
          exact .call concluded
  · next here =>
      split at stepped
      · next free =>
          cases stepped
          exact .call (.lock here free)
      · cases stepped
  · next here =>
      cases stepped
      exact .call (.flush here)
  · next client getAction =>
      exact .client (clientStep_of_getStep stepped)
  · next slave slaveAction =>
      split at stepped
      · cases stepped
      · next net moved =>
          cases stepped
          exact .slave moved
  · cases stepped

end State

end KVStore
end Codebank
