import Codebank.KVStore.Recovery

namespace Codebank
namespace KVStore

open List

/-!
# A slave with its worker, its job queue and its crashes

A slave runs one worker thread, which takes the accepted connections in order.
A crash loses the memory, the running job and the queue; a restart loads the log
and rebuilds the server, and does not happen when `rebuildServer` throws.

What the master may rely on is stated as the slave's `Standing` in the current
request.  It speaks about the log on disk and about the requests that are still
under way, and every step of the slave keeps it, crashes included.
-/

/-- A request that arrived on connection `conn`. -/
structure Task where
  conn : Nat
  rqst : KVMessage
  deriving DecidableEq, Repr

inductive Worker where
  | waiting
  | busy (task : Task) (pc : Pc)
  -- an exception that is no `KVException` has ended the thread
  | dead

def Worker.tasks : Worker -> List Task
  | .busy task _ => [task]
  | _ => []

/-- The worker is about to carry out a COMMIT that is on disk already. -/
def Worker.applying : Worker -> Bool
  | .busy _ (.apply _) => true
  | _ => false

inductive SlaveState (config : CacheConfig) where
  | up (memory : Memory config) (worker : Worker) (tasks : List Task)
  | down (disk : List KVMessage)

/-- The steps a slave takes by itself. -/
inductive SlaveAction where
  | getJob
  | run
  | crash
  | restart
  deriving DecidableEq, Repr

namespace SlaveState

variable {config : CacheConfig}

def initial : SlaveState config := .up Memory.initial .waiting []

def disk : SlaveState config -> List KVMessage
  | .up memory _ _ => memory.disk
  | .down disk => disk

/-- The stored pairs; of a stopped slave, those it will come back with. -/
def contents : SlaveState config -> Store
  | .up memory _ _ => memory.server.dataStore
  | .down disk => (rebuildServer config disk).2.dataStore

/-- The requests under way, the running one first. -/
def unfinished : SlaveState config -> List Task
  | .up _ worker tasks => worker.tasks ++ tasks
  | .down _ => []

/-- Those of them that belong to two-phase commit. -/
def queue (slave : SlaveState config) : List Task :=
  slave.unfinished.filter (fun task => task.rqst.msgType != .getReq)

/-- `addJob`: a connection with a request arrives. -/
def addJob (slave : SlaveState config) (task : Task) : Option (SlaveState config) :=
  match slave with
  | .up memory worker tasks => some (.up memory worker (tasks ++ [task]))
  | .down _ => none

/-- One step of the slave, with the reply it sends, if any. -/
def step (slave : SlaveState config) (action : SlaveAction) :
    Option (Option Task × SlaveState config) :=
  match action, slave with
  | .getJob, .up memory .waiting (task :: tasks) =>
    some (none, .up memory (.busy task .parsed) tasks)
  | .run, .up memory (.busy task pc) tasks =>
    match memory.advance task.rqst pc with
    | (.running next, after) => some (none, .up after (.busy task next) tasks)
    | (.replied resp, after) => some (some ⟨task.conn, resp⟩, .up after .waiting tasks)
    | (.died _, after) => some (none, .up after .dead tasks)
  | .crash, .up memory _ _ => some (none, .down memory.disk)
  | .restart, .down disk =>
    match rebuildServer config disk with
    | (.ok _, server) => some (none, .up ⟨server, disk, disk⟩ .waiting [])
    | (.error _, _) => none
  | _, _ => none

end SlaveState

/-- The log ends with the COMMIT of `exec`, before which it gave `store`. -/
def Decided (config : CacheConfig) (log : List KVMessage) (store : Store) (exec : KVMessage) :
    Prop :=
  ∃ earlier decision, log = earlier ++ [decision] ∧ Sound config earlier store ∧
    decision.msgType = .commit ∧ pending earlier = some exec

/-- It ends so, and the key selects no list of the cache.  No replay gets past
this COMMIT. -/
def Broken (config : CacheConfig) (log : List KVMessage) (store : Store) : Prop :=
  ∃ exec, Decided config log store exec ∧ ¬ exec.InRange config

namespace SlaveState

variable {config : CacheConfig}

/-- What holds of a slave at any time, whatever it is sent. -/
def Valid : SlaveState config -> Prop
  | .up memory .waiting _ => memory.Settled
  | .up memory (.busy task pc) _ => memory.JobInvariant task.rqst pc
  | .up memory .dead _ => memory.DeadInvariant
  | .down disk => ∃ store, Sound config disk store ∨ Broken config disk store

end SlaveState

/-- Where a slave stands in the current request. -/
inductive Standing where
  -- nothing is under way
  | quiet
  -- anything but COMMIT may be under way
  | undecided
  -- it has voted for `exec`, which is not decided
  | ready (exec : KVMessage)
  -- only COMMIT may be under way
  | committing (exec : KVMessage)
  -- it has carried out `exec`
  | committed (exec : KVMessage)

/-- A request of two-phase commit that may be sent to a slave standing so. -/
def Standing.Allows : Standing -> KVMessage -> Prop
  | .undecided, rqst => rqst.msgType ≠ .commit
  | .committing _, rqst => rqst.msgType = .commit
  | _, _ => False

namespace SlaveState

variable {config : CacheConfig}

/-- The slave stands so, having held `store` before the request. -/
def Meets (slave : SlaveState config) (store : Store) : Standing -> Prop
  | .quiet => slave.queue = [] ∧ Sound config slave.disk store
  | .undecided =>
    (∀ task, task ∈ slave.queue -> task.rqst.msgType ≠ .commit) ∧
      Sound config slave.disk store
  | .ready exec =>
    slave.queue = [] ∧ pending slave.disk = some exec ∧ Sound config slave.disk store
  | .committing exec =>
    (∀ task, task ∈ slave.queue -> task.rqst.msgType = .commit) ∧
      ((pending slave.disk = some exec ∧ Sound config slave.disk store) ∨
        Decided config slave.disk store exec)
  | .committed exec =>
    slave.queue = [] ∧ Decided config slave.disk store exec ∧ exec.InRange config

end SlaveState

/-! ## Logs have one reading -/

variable {config : CacheConfig} {store : Store} {other : Store}

theorem Sound.unique {log : List KVMessage} (sound : Sound config log store)
    (again : Sound config log other) : store = other := by
  rcases sound.replay with ⟨rebuilt, replayed, sameStore, _⟩
  rcases again.replay with ⟨rebuilt', replayed', sameStore', _⟩
  rw [replayed] at replayed'
  cases replayed'
  exact sameStore.symm.trans sameStore'

variable {exec : KVMessage}

theorem Decided.unique {log : List KVMessage} {exec' : KVMessage}
    (decided : Decided config log store exec) (again : Decided config log other exec') :
    store = other ∧ exec = exec' := by
  rcases decided with ⟨earlier, decision, rfl, sound, _, waits⟩
  rcases again with ⟨earlier', decision', same, sound', _, waits'⟩
  rcases append_inj' same rfl with ⟨sameEarlier, _⟩
  subst sameEarlier
  rw [waits] at waits'
  exact ⟨sound.unique sound', Option.some.inj waits'⟩

theorem Decided.pending {log : List KVMessage} (decided : Decided config log store exec) :
    pending log = none := by
  rcases decided with ⟨earlier, decision, rfl, _, isCommit, _⟩
  have notAction : decision.isAction = false := by simp [KVMessage.isAction, isCommit]
  rw [pending_append_single, notAction]
  rfl

theorem Decided.sound {log : List KVMessage} (decided : Decided config log store exec)
    (inRange : exec.InRange config) : Sound config log (exec.effect store) := by
  rcases decided with ⟨earlier, decision, rfl, sound, isCommit, waits⟩
  exact sound.append_commit isCommit waits inRange

theorem Broken.fails {log : List KVMessage} (broken : Broken config log store) :
    ∃ rebuilt : KVServer config,
      replayLog config log = .error (.arrayIndexOutOfBounds, rebuilt) ∧
        rebuilt.dataStore = store := by
  rcases broken with ⟨exec, ⟨earlier, decision, rfl, sound, isCommit, waits⟩, outOfRange⟩
  exact sound.append_commit_outOfRange isCommit waits outOfRange

theorem Broken.not_sound {log : List KVMessage} (broken : Broken config log store) :
    ¬ Sound config log other := by
  intro sound
  rcases broken.fails with ⟨rebuilt, failed, _⟩
  rcases sound.replay with ⟨rebuilt', replayed, _⟩
  rw [failed] at replayed
  cases replayed

theorem Decided.sound_or_broken {log : List KVMessage} (decided : Decided config log store exec) :
    Sound config log (exec.effect store) ∨ Broken config log store := by
  by_cases inRange : exec.InRange config
  · exact .inl (decided.sound inRange)
  · exact .inr ⟨exec, decided, inRange⟩

variable {memory : Memory config}

theorem Memory.Applying.decided {rqst : KVMessage} (applying : memory.Applying rqst exec) :
    Decided config memory.disk memory.server.dataStore exec := by
  rcases applying.before with ⟨earlier, grown, sound, waits⟩
  exact ⟨earlier, rqst, grown, sound, applying.isCommit, waits⟩

/-- A job that died left a log that is sound for the live store, or broken. -/
theorem Memory.DeadInvariant.log (dead : memory.DeadInvariant) :
    Sound config memory.disk memory.server.dataStore ∨
      Broken config memory.disk memory.server.dataStore := by
  rcases dead with settled | ⟨rqst, exec, applying, outOfRange⟩
  · exact .inl settled.sound
  · exact .inr ⟨exec, applying.decided, outOfRange⟩

namespace SlaveState

variable {slave after : SlaveState config} {store : Store} {standing : Standing}
  {exec : KVMessage} {task : Task}

/-! ## What a step of a slave can do -/

theorem valid_initial : (initial : SlaveState config).Valid :=
  Memory.settled_initial

def applying : SlaveState config -> Bool
  | .up _ worker _ => worker.applying
  | .down _ => false

theorem Valid.log_idle (valid : slave.Valid) (idle : slave.applying = false) :
    Sound config slave.disk slave.contents ∨ Broken config slave.disk slave.contents := by
  cases slave with
  | down disk =>
    rcases valid with ⟨store, sound | broken⟩
    · rcases sound.rebuildServer with ⟨rebuilt, done, sameStore, _⟩
      refine .inl ?_
      simp only [contents, done, sameStore]
      exact sound
    · rcases broken.fails with ⟨rebuilt, failed, sameStore⟩
      refine .inr ?_
      simp only [contents, rebuildServer_of_error failed, sameStore]
      exact broken
  | up memory worker tasks =>
    cases worker with
    | waiting => exact .inl valid.sound
    | dead => exact Memory.DeadInvariant.log valid
    | busy task pc =>
      cases pc with
      | parsed => exact .inl valid.sound
      | flush next => exact .inl valid.2.1
      | add next | reply resp => exact .inl valid.1.sound
      | apply exec => cases idle

theorem Valid.log_applying (valid : slave.Valid) (applies : slave.applying = true) :
    ∃ task exec, task ∈ slave.queue ∧ task.rqst.msgType = .commit ∧
      Decided config slave.disk slave.contents exec := by
  cases slave with
  | down disk => cases applies
  | up memory worker tasks =>
    cases worker with
    | waiting | dead => cases applies
    | busy task pc =>
      cases pc with
      | apply exec =>
        refine ⟨task, exec, ?_, valid.isCommit, valid.decided⟩
        simp [queue, unfinished, Worker.tasks, valid.isCommit]
      | parsed | add | flush | reply => cases applies

/-- The log of a slave is sound for what it holds, unless the worker is about
to carry out a COMMIT that is on disk already, or the log is broken. -/
theorem Valid.log (valid : slave.Valid) :
    Sound config slave.disk slave.contents ∨ Broken config slave.disk slave.contents ∨
      ∃ task exec, task ∈ slave.queue ∧ task.rqst.msgType = .commit ∧
        Decided config slave.disk slave.contents exec := by
  cases applies : slave.applying with
  | false => exact (valid.log_idle applies).imp_right .inl
  | true => exact .inr (.inr (valid.log_applying applies))

/-- What may be appended to a log: a vote, an ABORT, or the COMMIT of the
waiting request. -/
def MayAppend (config : CacheConfig) (log : List KVMessage) (entry : KVMessage) : Prop :=
  ∃ store, Sound config log store ∧
    (Votable store entry ∨ entry.msgType = .abort ∨
      (entry.msgType = .commit ∧ ∃ exec, pending log = some exec))

variable {log : List KVMessage} {entry : KVMessage}

theorem MayAppend.not_get (may : MayAppend config log entry) : entry.msgType ≠ .getReq := by
  rcases may with ⟨store, _, votable | isAbort | ⟨isCommit, _⟩⟩
  · rcases (isAction_iff entry).mp votable.isAction with isPut | isDel
    · rw [isPut]; nofun
    · rw [isDel]; nofun
  · rw [isAbort]; nofun
  · rw [isCommit]; nofun

theorem MayAppend.decision (may : MayAppend config log entry)
    (decision : entry.msgType = .commit ∨ entry.msgType = .abort) :
    entry.msgType = .abort ∨ entry.msgType = .commit ∧ ∃ exec, pending log = some exec := by
  rcases may with ⟨store, _, votable | isAbort | waits⟩
  · have action := votable.isAction
    rcases decision with kind | kind <;> simp [KVMessage.isAction, kind] at action
  · exact .inl isAbort
  · exact .inr waits

/-- Only the flush changes the log on disk. -/
theorem advance_log {rqst : KVMessage} {pc : Pc} (valid : memory.JobInvariant rqst pc) :
    (memory.advance rqst pc).2.disk = memory.disk ∨
      ((memory.advance rqst pc).2.disk = memory.disk ++ [rqst] ∧
        MayAppend config memory.disk rqst) := by
  cases pc with
  | parsed =>
    rcases memory.dispatch_frame rqst with ⟨server, same, _⟩
    refine .inl ?_
    simp only [Memory.advance, same]
  | add next | reply resp => exact .inl rfl
  | apply exec =>
    refine .inl ?_
    simp only [Memory.advance]
    split <;> rfl
  | flush next =>
    rcases valid with ⟨grown, sound, _, continues⟩
    refine .inr ⟨grown, memory.server.dataStore, sound, ?_⟩
    cases next with
    | apply exec => exact .inr (.inr ⟨continues.1, exec, continues.2⟩)
    | reply resp =>
      rcases continues with ⟨votable, _⟩ | ⟨isAbort, _⟩
      · exact .inl votable
      · exact .inr (.inl isAbort)

/-- Everything a step does to the log and to the requests under way. -/
structure StepFacts (slave after : SlaveState config) : Prop where
  valid : after.Valid
  unfinished : after.unfinished.Sublist slave.unfinished
  log : after.disk = slave.disk ∨
    ∃ task, task ∈ slave.queue ∧ after.disk = slave.disk ++ [task.rqst] ∧
      MayAppend config slave.disk task.rqst

/-- What the reply `resp` to `rqst` says about the log of the slave that sent it. -/
structure Answered (config : CacheConfig) (log : List KVMessage) (rqst resp : KVMessage) :
    Prop where
  sound : ∃ store, Sound config log store
  vote : resp.msgType = .ready -> pending log = some rqst
  decision : rqst.msgType = .commit ∨ rqst.msgType = .abort ->
    resp.msgType = .ack ∧ pending log = none

/-- The oldest request under way is done, and its reply is sent. -/
structure Replies (slave after : SlaveState config) (rqst : KVMessage) (reply : Task) :
    Prop where
  oldest : slave.unfinished = ⟨reply.conn, rqst⟩ :: after.unfinished
  answered : Answered config after.disk rqst reply.rqst
  log : Sound config after.disk after.contents
  value : rqst.msgType = .getReq -> ∀ value, reply.rqst.value = some value ->
    ∃ key, rqst.key = some key ∧ after.contents key = some value

theorem mem_queue :
    task ∈ slave.queue <-> task ∈ slave.unfinished ∧ task.rqst.msgType ≠ .getReq := by
  simp [queue]

variable {reply : Option Task}

/-- The steps of a slave, with what makes them possible. -/
inductive Moves : SlaveState config -> SlaveAction -> Option Task -> SlaveState config -> Prop where
  | getJob {memory : Memory config} {task : Task} {tasks : List Task} :
      Moves (.up memory .waiting (task :: tasks)) .getJob none
        (.up memory (.busy task .parsed) tasks)
  | running {memory next : Memory config} {task : Task} {pc newPc : Pc} {tasks : List Task}
      (advanced : memory.advance task.rqst pc = (.running newPc, next)) :
      Moves (.up memory (.busy task pc) tasks) .run none (.up next (.busy task newPc) tasks)
  | replied {memory next : Memory config} {task : Task} {pc : Pc} {tasks : List Task}
      {resp : KVMessage} (advanced : memory.advance task.rqst pc = (.replied resp, next)) :
      Moves (.up memory (.busy task pc) tasks) .run (some ⟨task.conn, resp⟩)
        (.up next .waiting tasks)
  | died {memory next : Memory config} {task : Task} {pc : Pc} {tasks : List Task} {fault : Fault}
      (advanced : memory.advance task.rqst pc = (.died fault, next)) :
      Moves (.up memory (.busy task pc) tasks) .run none (.up next .dead tasks)
  | crash {memory : Memory config} {worker : Worker} {tasks : List Task} :
      Moves (.up memory worker tasks) .crash none (.down memory.disk)
  | restart {disk : List KVMessage} {done : Unit} {server : KVServer config}
      (rebuilt : rebuildServer config disk = (.ok done, server)) :
      Moves (.down disk) .restart none (.up ⟨server, disk, disk⟩ .waiting [])

variable {action : SlaveAction} {reply : Option Task}

theorem moves_of_step (stepped : slave.step action = some (reply, after)) :
    Moves slave action reply after := by
  unfold step at stepped
  split at stepped
  next =>
    cases stepped
    exact .getJob
  next =>
    split at stepped
    next advanced =>
      cases stepped
      exact .running advanced
    next advanced =>
      cases stepped
      exact .replied advanced
    next advanced =>
      cases stepped
      exact .died advanced
  next =>
    cases stepped
    exact .crash
  next =>
    split at stepped
    next rebuilt =>
      cases stepped
      exact .restart rebuilt
    next => cases stepped
  next => cases stepped

/-- One step of the running job changes the log only by its flush. -/
theorem log_run {memory next : Memory config} {pc : Pc} {tasks : List Task} {progress : Progress}
    (valid : memory.JobInvariant task.rqst pc)
    (advanced : memory.advance task.rqst pc = (progress, next)) :
    next.disk = memory.disk ∨
      ∃ other, other ∈ (SlaveState.up memory (.busy task pc) tasks).queue ∧
        next.disk = memory.disk ++ [other.rqst] ∧ MayAppend config memory.disk other.rqst := by
  have log := advance_log valid
  rw [advanced] at log
  rcases log with same | ⟨grown, may⟩
  · exact .inl same
  · exact .inr ⟨task, mem_queue.mpr ⟨mem_cons_self, may.not_get⟩, grown, may⟩

theorem step_facts (valid : slave.Valid) (stepped : slave.step action = some (reply, after)) :
    StepFacts slave after ∧
      ∀ sent, reply = some sent -> ∃ rqst, Replies slave after rqst sent := by
  cases moves_of_step stepped with
  | getJob => exact ⟨⟨valid, List.Sublist.refl _, .inl rfl⟩, nofun⟩
  | running advanced =>
    have kept := Memory.advance_invariant valid
    rw [advanced] at kept
    exact ⟨⟨kept, List.Sublist.refl _, log_run valid advanced⟩, nofun⟩
  | died advanced =>
    have kept := Memory.advance_invariant valid
    rw [advanced] at kept
    exact ⟨⟨kept, sublist_cons_self _ _, log_run valid advanced⟩, nofun⟩
  | @replied _ _ task _ _ _ advanced =>
    have kept := Memory.advance_invariant valid
    rw [advanced] at kept
    refine ⟨⟨kept.1, sublist_cons_self _ _, log_run valid advanced⟩, ?_⟩
    rintro sent ⟨rfl⟩
    exact ⟨task.rqst, rfl, ⟨⟨_, kept.1.sound⟩, kept.2.vote, kept.2.decision⟩, kept.1.sound,
      kept.2.value⟩
  | crash =>
    refine ⟨⟨?_, nil_sublist _, .inl rfl⟩, nofun⟩
    rcases valid.log with sound | broken | ⟨task, exec, _, _, decided⟩
    · exact ⟨_, .inl sound⟩
    · exact ⟨_, .inr broken⟩
    · rcases decided.sound_or_broken with sound | broken
      · exact ⟨_, .inl sound⟩
      · exact ⟨_, .inr broken⟩
  | restart rebuilt =>
    rcases valid with ⟨store, sound | broken⟩
    · rcases sound.rebuildServer with ⟨server', done, sameStore, coherent⟩
      rw [rebuilt] at done
      cases done
      exact ⟨⟨⟨rfl, sameStore ▸ sound, coherent⟩, List.Sublist.refl _, .inl rfl⟩, nofun⟩
    · rcases broken.fails with ⟨server', failed, _⟩
      rw [rebuildServer_of_error failed] at rebuilt
      cases rebuilt

/-! ## Steps keep the standing -/

section

variable (facts : StepFacts slave after)

include facts

theorem StepFacts.queue : after.queue.Sublist slave.queue :=
  facts.unfinished.filter _

/-- With nothing of two-phase commit under way, the log stays as it is. -/
theorem StepFacts.of_quiet (quiet : slave.queue = []) :
    after.queue = [] ∧ after.disk = slave.disk := by
  refine ⟨List.sublist_nil.mp (quiet ▸ facts.queue), ?_⟩
  rcases facts.log with same | ⟨task, member, _⟩
  · exact same
  · rw [quiet] at member
    cases member

theorem StepFacts.undecided (meets : slave.Meets store .undecided) :
    after.Meets store .undecided := by
  rcases meets with ⟨noCommit, sound⟩
  refine ⟨fun task member => noCommit task (facts.queue.subset member), ?_⟩
  rcases facts.log with same | ⟨task, member, grown, other, otherSound, may⟩
  · rw [same]; exact sound
  · rw [grown]
    have sameStore := otherSound.unique sound
    subst sameStore
    rcases may with votable | isAbort | ⟨isCommit, _⟩
    · exact sound.append_action votable
    · exact sound.append_abort isAbort
    · exact False.elim (noCommit task member isCommit)

theorem StepFacts.committing (meets : slave.Meets store (.committing exec)) :
    after.Meets store (.committing exec) := by
  rcases meets with ⟨onlyCommit, log⟩
  refine ⟨fun task member => onlyCommit task (facts.queue.subset member), ?_⟩
  rcases facts.log with same | ⟨task, member, grown, may⟩
  · rw [same]; exact log
  · have isCommit := onlyCommit task member
    rcases (may.decision (.inl isCommit)).resolve_left (by rw [isCommit]; nofun) with
      ⟨_, exec', waits⟩
    rw [grown]
    rcases log with ⟨execWaits, sound⟩ | decided
    · exact .inr ⟨slave.disk, task.rqst, rfl, sound, isCommit, execWaits⟩
    · rw [decided.pending] at waits
      cases waits

/-- Whatever a slave does by itself, its standing stays. -/
theorem StepFacts.meets (meets : slave.Meets store standing) : after.Meets store standing := by
  cases standing with
  | undecided => exact facts.undecided meets
  | committing exec => exact facts.committing meets
  | quiet =>
    have same := facts.of_quiet meets.1
    exact ⟨same.1, same.2 ▸ meets.2⟩
  | ready exec | committed exec =>
    have same := facts.of_quiet meets.1
    refine ⟨same.1, ?_⟩
    rw [same.2]
    exact meets.2

end

/-! ## What the standing says about the stored pairs -/

/-- Until COMMIT is under way, a slave holds what it held before. -/
theorem contents_of_undecided (valid : slave.Valid) (meets : slave.Meets store .undecided) :
    slave.contents = store := by
  rcases valid.log with sound | broken | ⟨task, exec, member, isCommit, _⟩
  · exact sound.unique meets.2
  · exact False.elim (broken.not_sound meets.2)
  · exact False.elim (meets.1 task member isCommit)

/-- While COMMIT is under way, a slave holds the old or the new pairs. -/
theorem contents_of_committing (valid : slave.Valid)
    (meets : slave.Meets store (.committing exec)) :
    slave.contents = store ∨ slave.contents = exec.effect store := by
  rcases meets.2 with ⟨waits, sound⟩ | decided
  · rcases valid.log with live | broken | ⟨task, exec', _, _, applying⟩
    · exact .inl (live.unique sound)
    · exact False.elim (broken.not_sound sound)
    · rw [applying.pending] at waits
      cases waits
  · rcases valid.log with live | ⟨exec', broken, _⟩ | ⟨task, exec', _, _, applying⟩
    · rcases decided.sound_or_broken with done | broken
      · exact .inr (live.unique done)
      · exact False.elim (broken.not_sound live)
    · exact .inl (broken.unique decided).1
    · exact .inl (applying.unique decided).1

/-! ## How the standing changes -/

theorem Meets.undecided_of_quiet (meets : slave.Meets store .quiet) :
    slave.Meets store .undecided := by
  refine ⟨?_, meets.2⟩
  intro task member
  rw [meets.1] at member
  cases member

theorem Meets.quiet_of_ready (meets : slave.Meets store (.ready exec)) : slave.Meets store .quiet :=
  ⟨meets.1, meets.2.2⟩

theorem Meets.committing_of_ready (meets : slave.Meets store (.ready exec)) :
    slave.Meets store (.committing exec) := by
  refine ⟨?_, .inl meets.2⟩
  intro task member
  rw [meets.1] at member
  cases member

theorem Meets.committing_of_committed (meets : slave.Meets store (.committed exec)) :
    slave.Meets store (.committing exec) := by
  refine ⟨?_, .inr meets.2.1⟩
  intro task member
  rw [meets.1] at member
  cases member

/-- A slave that has carried out the request is ready for the next one. -/
theorem Meets.quiet_of_committed (meets : slave.Meets store (.committed exec)) :
    slave.Meets (exec.effect store) .quiet :=
  ⟨meets.1, meets.2.1.sound meets.2.2⟩

/-! ## Arriving requests -/

theorem addJob_facts (added : slave.addJob task = some after) :
    (after.Valid <-> slave.Valid) ∧ after.unfinished = slave.unfinished ++ [task] ∧
      after.disk = slave.disk ∧ after.contents = slave.contents := by
  cases slave with
  | down disk => cases added
  | up memory worker tasks =>
    cases added
    refine ⟨?_, (append_assoc _ _ _).symm, rfl, rfl⟩
    cases worker <;> exact Iff.rfl

theorem queue_addJob (added : slave.addJob task = some after) :
    after.queue = slave.queue ++ if task.rqst.msgType ≠ .getReq then [task] else [] := by
  rw [queue, queue, (addJob_facts added).2.1, filter_append]
  by_cases isGet : task.rqst.msgType = .getReq <;> simp [isGet]

/-- What `Meets` reads of a slave. -/
theorem meets_congr (sameQueue : after.queue = slave.queue) (sameDisk : after.disk = slave.disk) :
    after.Meets store standing <-> slave.Meets store standing := by
  cases standing <;> simp only [Meets, sameQueue, sameDisk]

/-- Other requests must be allowed by it. -/
theorem meets_addJob (added : slave.addJob task = some after) (allowed : standing.Allows task.rqst)
    (meets : slave.Meets store standing) : after.Meets store standing := by
  have sameDisk := (addJob_facts added).2.2.1
  have fromQueue : ∀ other, other ∈ after.queue -> other ∈ slave.queue ∨ other = task := by
    intro other member
    rw [mem_queue, (addJob_facts added).2.1, mem_append, mem_singleton] at member
    rcases member with ⟨old | new, notGet⟩
    · exact .inl (mem_queue.mpr ⟨old, notGet⟩)
    · exact .inr new
  cases standing with
  | undecided | committing exec =>
    refine ⟨?_, sameDisk ▸ meets.2⟩
    intro other member
    rcases fromQueue other member with old | rfl
    · exact meets.1 other old
    · exact allowed
  | quiet | ready | committed => cases allowed

end SlaveState

end KVStore
end Codebank
