import Codebank.KVStore.Handler

namespace Codebank
namespace KVStore

open Foundation List

/-!
# Crash recovery of a single slave

A slave handles an arbitrary sequence of messages; afterwards a fresh server
is rebuilt from its log.  The rebuilt store is the live one, also when the slave
stops between writing COMMIT to the log and carrying it out, *except* after a
COMMIT of a `put` whose key selects no list of the cache.  Such a `put` is
validated and logged, but neither the live server nor the replay can carry it
out, and the replay stops there with an exception.  `recoveryExact_iff` shows
that this is the only way for the recovery to go wrong.
-/

namespace Memory

variable {config : CacheConfig}

/-! ## One whole job -/

variable {memory : Memory config} {rqst : KVMessage}

/-- `appendAndFlush`, without the point between its two steps. -/
def appendAndFlush (memory : Memory config) (entry : KVMessage) : Memory config :=
  { memory with
    entries := memory.entries ++ [entry]
    disk := memory.entries ++ [entry] }

/-- How a job that carries out `exec` ends. -/
def applyAndReply (memory : Memory config) (exec : KVMessage) : Progress × Memory config :=
  match memory.server.perform exec with
  | (.ok _, server) => (.replied { msgType := .ack }, { memory with server := server })
  | (.error (.kv text), server) =>
    (.replied (KVMessage.ofError text), { memory with server := server })
  | (.error fault, server) => (.died fault, { memory with server := server })

/-- A whole job in one equation: dispatch, log, carry out, reply. -/
theorem handle_eq (memory : Memory config) (rqst : KVMessage) :
    memory.handle rqst =
      match memory.dispatch rqst with
      | (.reply resp, after) => (.replied resp, after)
      | (.died fault, after) => (.died fault, after)
      | (.log (.reply resp), after) => (.replied resp, after.appendAndFlush rqst)
      | (.log (.apply exec), after) => (after.appendAndFlush rqst).applyAndReply exec := by
  rcases dispatched : memory.dispatch rqst with ⟨outcome, after⟩
  cases outcome with
  | reply resp | died fault => simp only [handle, runJob, advance, dispatched, Dispatched.progress]
  | log next =>
    cases next with
    | reply resp =>
      simp only [handle, runJob, advance, dispatched, Dispatched.progress, AfterFlush.pc,
        appendAndFlush]
    | apply exec =>
      simp only [handle, runJob, advance, dispatched, Dispatched.progress, AfterFlush.pc,
        appendAndFlush, applyAndReply]
      rcases performed : after.server.perform exec with ⟨result, server⟩
      cases result with
      | ok _ => rfl
      | error fault => cases fault <;> rfl

variable {exec : KVMessage}

/-- The point between `flushToDisk` and carrying out the request is reached
exactly when the dispatch found a waiting request. -/
theorem runJob_three {stopped : Memory config}
    (reached : runJob rqst 3 memory .parsed = (.running (.apply exec), stopped)) :
    ∃ after, memory.dispatch rqst = (.log (.apply exec), after) ∧
      stopped = after.appendAndFlush rqst := by
  rcases dispatched : memory.dispatch rqst with ⟨outcome, after⟩
  cases outcome with
  | reply resp | died fault =>
    simp only [runJob, advance, dispatched, Dispatched.progress] at reached
    cases reached
  | log next =>
    simp only [runJob, advance, dispatched, Dispatched.progress] at reached
    cases next with
    | reply resp => cases reached
    | apply other =>
      cases reached
      exact ⟨after, rfl, rfl⟩

theorem applyAndReply_log (memory : Memory config) (exec : KVMessage) :
    (memory.applyAndReply exec).2.entries = memory.entries ∧
      (memory.applyAndReply exec).2.disk = memory.disk := by
  unfold applyAndReply
  split <;> exact ⟨rfl, rfl⟩

/-- A job adds at most its own request to the log, and leaves the log flushed. -/
theorem handle_log (flushed : memory.entries = memory.disk) (rqst : KVMessage) :
    (memory.handle rqst).2.entries = (memory.handle rqst).2.disk ∧
      ((memory.handle rqst).2.disk = memory.disk ∨
        (memory.handle rqst).2.disk = memory.disk ++ [rqst]) := by
  have log : (memory.dispatch rqst).2.entries = memory.entries ∧
      (memory.dispatch rqst).2.disk = memory.disk := by
    rcases memory.dispatch_frame rqst with ⟨server, same, _⟩
    rw [same]
    exact ⟨rfl, rfl⟩
  rw [handle_eq]
  rcases dispatched : memory.dispatch rqst with ⟨outcome, after⟩
  rw [dispatched] at log
  have afterFlushed : after.entries = memory.disk := log.1.trans flushed
  cases outcome with
  | reply resp | died fault => exact ⟨afterFlushed.trans log.2.symm, .inl log.2⟩
  | log next =>
    have grown : (after.appendAndFlush rqst).disk = memory.disk ++ [rqst] :=
      congrArg (· ++ [rqst]) afterFlushed
    cases next with
    | reply resp => exact ⟨rfl, .inr grown⟩
    | apply exec =>
      have same := (after.appendAndFlush rqst).applyAndReply_log exec
      exact ⟨same.1.trans same.2.symm, .inr (same.2.trans grown)⟩

section

variable (settled : memory.Settled)

include settled

/-- From a settled slave, the request that a job carries out is the one the log
waits for. -/
theorem dispatch_apply {after : Memory config}
    (dispatched : memory.dispatch rqst = (.log (.apply exec), after)) :
    rqst.msgType = .commit ∧ pending memory.disk = some exec ∧
      (after.appendAndFlush rqst).Applying rqst exec ∧
      after.server.dataStore = memory.server.dataStore := by
  have invariant := dispatch_invariant settled rqst
  rw [dispatched] at invariant
  rcases memory.dispatch_frame rqst with ⟨server, same, sameStore, _⟩
  rw [dispatched] at same
  change after = _ at same
  have grown := advance_invariant (show after.JobInvariant rqst (.add (.apply exec)) from invariant)
  have applying : (after.appendAndFlush rqst).Applying rqst exec := flush_invariant grown
  refine ⟨applying.isCommit, ?_, applying, by rw [same]; exact sameStore⟩
  have waits := invariant.2.2
  rw [same] at waits
  exact waits

/-- A job leaves a settled slave settled, unless it commits a `put` that
selects no list of the cache. -/
theorem Settled.handle
    (inRange : rqst.msgType = .commit -> ∀ exec, pending memory.disk = some exec ->
      exec.InRange config) : (memory.handle rqst).2.Settled := by
  have invariant := dispatch_invariant settled rqst
  have afterSettled := settled.dispatch rqst
  rw [handle_eq]
  rcases dispatched : memory.dispatch rqst with ⟨outcome, after⟩
  rw [dispatched] at invariant afterSettled
  cases outcome with
  | reply resp | died fault => exact afterSettled
  | log next =>
    cases next with
    | reply resp =>
      have grown :=
        advance_invariant (show after.JobInvariant rqst (.add (.reply resp)) from invariant)
      exact (flush_invariant grown).1
    | apply exec =>
      rcases dispatch_apply settled dispatched with ⟨isCommit, waits, applying, _⟩
      rcases applying.perform (inRange isCommit exec waits) with
        ⟨server, performed, _, done, _⟩
      simp only [applyAndReply, performed]
      exact done

/-- Told to commit a waiting request, a settled slave goes on to carry it out. -/
theorem dispatch_commit (isCommit : rqst.msgType = .commit)
    (waits : pending memory.disk = some exec) :
    memory.dispatch rqst = (.log (.apply exec), memory) := by
  have last := getLast_of_pending waits
  rw [<- settled.flushed] at last
  simp only [dispatch, isCommit, last,
    if_pos ((isAction_iff exec).mp (isAction_of_pending waits))]

/-- In that exceptional case, the log on disk can no longer be replayed. -/
theorem Settled.handle_outOfRange (isCommit : rqst.msgType = .commit)
    (waits : pending memory.disk = some exec) (outOfRange : ¬ exec.InRange config) :
    ∃ failure, replayLog config (memory.handle rqst).2.disk = .error failure := by
  have applying := (dispatch_apply settled (dispatch_commit settled isCommit waits)).2.2.1
  rcases settled.sound.append_commit_outOfRange isCommit waits outOfRange with
    ⟨rebuilt, failed, _⟩
  have sameDisk : (memory.handle rqst).2.disk = memory.disk ++ [rqst] := by
    rw [handle_eq, dispatch_commit settled isCommit waits]
    exact ((memory.appendAndFlush rqst).applyAndReply_log exec).2.trans
      (congrArg (· ++ [rqst]) settled.flushed)
  exact ⟨_, sameDisk ▸ failed⟩

end

end Memory

/-! ## Whole message sequences -/

variable (config : CacheConfig)

/-- The slave after handling `messages` one at a time from the start. -/
def liveAfter (messages : List KVMessage) : Memory config :=
  stateAfter Memory.handle Memory.initial messages

/-- `rebuildServer` on `log` raises no exception and yields exactly `store`. -/
def RebuildsTo (log : List KVMessage) (store : Store) : Prop :=
  (rebuildServer config log).1 = .ok () ∧ (rebuildServer config log).2.dataStore = store

/-- The recovery after `messages` loses and invents nothing, whether the slave
stops after the last message or inside it, with COMMIT on disk and `exec` not yet
carried out (three steps into the job). -/
structure RecoveryExact (messages : List KVMessage) : Prop where
  afterLast : RebuildsTo config (liveAfter config messages).disk
    (liveAfter config messages).server.dataStore
  insideLast : ∀ earlier commit exec stopped, messages = earlier ++ [commit] ->
    Memory.runJob commit 3 (liveAfter config earlier) .parsed =
        (.running (.apply exec), stopped) ->
      RebuildsTo config stopped.disk (liveAfter config messages).server.dataStore

/-- No COMMIT in `messages` arrives while the log waits for a request whose key
selects no list of the cache. -/
def CommitsInRange (messages : List KVMessage) : Prop :=
  ∀ earlier commit later, messages = earlier ++ commit :: later ->
    commit.msgType = .commit -> ∀ exec,
      pending (liveAfter config earlier).disk = some exec -> exec.InRange config

variable {config} {messages : List KVMessage}

theorem liveAfter_append_single (messages : List KVMessage) (rqst : KVMessage) :
    liveAfter config (messages ++ [rqst]) = ((liveAfter config messages).handle rqst).2 := by
  rw [liveAfter, stateAfter_append]
  rfl

theorem CommitsInRange.init {rqst : KVMessage}
    (inRange : CommitsInRange config (messages ++ [rqst])) : CommitsInRange config messages := by
  intro earlier commit later split
  refine inRange earlier commit (later ++ [rqst]) ?_
  rw [split, append_assoc, cons_append]

theorem settled_liveAfter (inRange : CommitsInRange config messages) :
    (liveAfter config messages).Settled := by
  induction messages using List.reverseRecOn with
  | nil => exact Memory.settled_initial
  | append_singleton messages rqst ih =>
    rw [liveAfter_append_single]
    exact (ih inRange.init).handle (inRange messages rqst [] rfl)

theorem flushed_liveAfter (messages : List KVMessage) :
    (liveAfter config messages).entries = (liveAfter config messages).disk := by
  induction messages using List.reverseRecOn with
  | nil => rfl
  | append_singleton messages rqst ih =>
    rw [liveAfter_append_single]
    exact (Memory.handle_log ih rqst).1

/-- Once the log cannot be replayed, it never can be again. -/
theorem replay_fails_later {failure : Fault × KVServer config}
    (failed : replayLog config (liveAfter config messages).disk = .error failure)
    (later : List KVMessage) :
    replayLog config (liveAfter config (messages ++ later)).disk = .error failure := by
  induction later using List.reverseRecOn with
  | nil => rw [append_nil]; exact failed
  | append_singleton later rqst ih =>
    rw [<- append_assoc, liveAfter_append_single]
    rcases (Memory.handle_log (flushed_liveAfter (messages ++ later)) rqst).2 with same | grown
    · rw [same]; exact ih
    · rw [grown]; exact replayLog_error_append ih [rqst]

/-- As long as the replay succeeds, no out-of-range `put` was committed. -/
theorem commitsInRange_of_replay {replay : Replay config}
    (replayed : replayLog config (liveAfter config messages).disk = .ok replay) :
    CommitsInRange config messages := by
  -- Induct on the COMMIT's position: all earlier ones are in range, so the slave is settled there.
  suffices ∀ count, ∀ earlier commit later, earlier.length < count ->
      messages = earlier ++ commit :: later -> commit.msgType = .commit -> ∀ exec,
        pending (liveAfter config earlier).disk = some exec -> exec.InRange config by
    intro earlier commit later
    exact this (earlier.length + 1) earlier commit later (Nat.lt_succ_self _)
  intro count
  induction count with
  | zero => intro earlier _ _ short; cases short
  | succ count ih =>
    intro earlier commit later short split isCommit exec waits
    by_contra outOfRange
    have earlierInRange : CommitsInRange config earlier := by
      intro first decision rest splitEarlier
      refine ih first decision (rest ++ commit :: later) ?_ ?_
      · rw [splitEarlier, length_append, length_cons] at short
        omega
      · rw [split, splitEarlier, append_assoc, cons_append]
    rcases (settled_liveAfter earlierInRange).handle_outOfRange isCommit waits outOfRange with
      ⟨failure, failed⟩
    rw [<- liveAfter_append_single] at failed
    have stillFails := replay_fails_later failed later
    rw [append_assoc, singleton_append, <- split, replayed] at stillFails
    cases stillFails

variable {log : List KVMessage} {store : Store}

theorem replayed_of_rebuildsTo (rebuilds : RebuildsTo config log store) :
    ∃ replay : Replay config, replayLog config log = .ok replay := by
  cases done : replayLog config log with
  | ok replay => exact ⟨replay, rfl⟩
  | error failure =>
    have impossible := rebuilds.1
    rw [rebuildServer_of_error done] at impossible
    cases impossible

theorem Sound.rebuildsTo (sound : Sound config log store) : RebuildsTo config log store := by
  rcases sound.rebuildServer with ⟨rebuilt, done, sameStore, _⟩
  rw [RebuildsTo, done]
  exact ⟨rfl, sameStore⟩

/-- Recovery is exact after a message sequence if and only if every COMMIT in
it found a request it could carry out. -/
theorem recoveryExact_iff (config : CacheConfig) (messages : List KVMessage) :
    RecoveryExact config messages <-> CommitsInRange config messages := by
  constructor
  · intro recovers
    rcases replayed_of_rebuildsTo recovers.afterLast with ⟨replay, replayed⟩
    exact commitsInRange_of_replay replayed
  · intro inRange
    have settled := settled_liveAfter inRange
    refine ⟨settled.sound.rebuildsTo, ?_⟩
    intro earlier commit exec stopped split reached
    subst split
    have before := settled_liveAfter inRange.init
    rcases Memory.runJob_three reached with ⟨after, dispatched, rfl⟩
    have sameDisk : (after.appendAndFlush commit).disk =
        (liveAfter config (earlier ++ [commit])).disk := by
      rw [liveAfter_append_single, Memory.handle_eq, dispatched]
      exact ((after.appendAndFlush commit).applyAndReply_log exec).2.symm
    rw [sameDisk]
    exact settled.sound.rebuildsTo

/-- The cache of `SampleSlave`: `new KVServer(100, 10)`. -/
def sampleSlaveCache : CacheConfig := ⟨100, 10, by decide, by decide⟩

/-- The hash code of this key is `Integer.MIN_VALUE`, which `Math.abs` leaves
negative; so the remainder by 100 is negative, and the set index with it. -/
theorem recovery_of_minimal_hash_fails :
    ¬ RecoveryExact sampleSlaveCache
      [{ msgType := .putReq, key := some (JString.ofAscii "polygenelubricants"),
         value := some (JString.ofAscii "v") },
       { msgType := .commit }] := by
  intro recovers
  have rebuilt := recovers.afterLast.1
  revert rebuilt
  decide +kernel

end KVStore
end Codebank
