import Codebank.KVStore.Log

namespace Codebank
namespace KVStore

open Foundation

/-!
# The slave's request handler

`TPCMasterHandler.createJob` is modelled as a little machine with one step for
each action another party could observe: the parsed request is dispatched, the
entry joins the in-memory log, the log is flushed to disk, the request is
carried out on the server, and the reply is sent.  A crash between two of these
steps loses the memory and keeps the disk.

A `KVException` becomes a reply.  Any other exception escapes `run()` and ends
the worker thread without a reply.
-/

/-- What the handler goes on with once the log is on disk. -/
inductive AfterFlush where
  | reply (resp : KVMessage)
  | apply (exec : KVMessage)
  deriving DecidableEq, Repr

/-- Where a job is between two of its steps.  Every entry that a job adds to
the log is the request itself. -/
inductive Pc where
  | parsed
  | add (next : AfterFlush)
  | flush (next : AfterFlush)
  | apply (exec : KVMessage)
  | reply (resp : KVMessage)
  deriving DecidableEq, Repr

def AfterFlush.pc : AfterFlush -> Pc
  | .reply resp => .reply resp
  | .apply exec => .apply exec

/-- What a slave holds: its server, the log in memory, and the log on disk. -/
structure Memory (config : CacheConfig) where
  server : KVServer config
  entries : List KVMessage
  disk : List KVMessage

def Memory.initial {config : CacheConfig} : Memory config := ⟨KVServer.empty, [], []⟩

inductive Progress where
  | running (pc : Pc)
  | replied (resp : KVMessage)
  | died (fault : Fault)
  deriving DecidableEq, Repr

/-- What a branch of `run()` comes to before anything is written. -/
inductive Dispatched where
  | reply (resp : KVMessage)
  | log (next : AfterFlush)
  | died (fault : Fault)
  deriving DecidableEq, Repr

/-- The `catch (KVException e)` of the job; nothing else is caught. -/
def Dispatched.ofFault : Fault -> Dispatched
  | .kv text => .reply (KVMessage.ofError text)
  | fault => .died fault

def Dispatched.progress : Dispatched -> Progress
  | .reply resp => .running (.reply resp)
  | .log next => .running (.add next)
  | .died fault => .died fault

namespace Memory

variable {config : CacheConfig}

/-- The branches of `run()` on the request type, up to the first write. -/
def dispatch (memory : Memory config) (rqst : KVMessage) : Dispatched × Memory config :=
  match rqst.msgType with
  | .getReq =>
    match memory.server.get rqst.key with
    | (.ok value, server) =>
      (.reply { msgType := .resp, key := rqst.key, value := value },
        { memory with server := server })
    | (.error fault, server) => (Dispatched.ofFault fault, { memory with server := server })
  | .putReq =>
    if validateKeyValue rqst.key rqst.value = SUCCESS then
      (.log (.reply { msgType := .ready }), memory)
    else
      (.reply { msgType := .abort, message := some (validateKeyValue rqst.key rqst.value) },
        memory)
  | .delReq =>
    match memory.server.hasKey rqst.key with
    | .error fault => (Dispatched.ofFault fault, memory)
    | .ok true => (.log (.reply { msgType := .ready }), memory)
    | .ok false => (.reply { msgType := .abort, message := some ERROR_NO_SUCH_KEY }, memory)
  | .commit =>
    match memory.entries.getLast? with
    -- `exec` is null and `exec.getMsgType()` throws
    | none => (.died .nullPointer, memory)
    | some exec =>
      if exec.msgType = .putReq ∨ exec.msgType = .delReq then (.log (.apply exec), memory)
      else (.reply { msgType := .ack }, memory)
  | .abort => (.log (.reply { msgType := .ack }), memory)
  | _ => (.reply (KVMessage.ofError ERROR_INVALID_FORMAT), memory)

/-- One step of a job for `rqst`. -/
def advance (memory : Memory config) (rqst : KVMessage) : Pc -> Progress × Memory config
  | .parsed => ((memory.dispatch rqst).1.progress, (memory.dispatch rqst).2)
  | .add next =>
    (.running (.flush next), { memory with entries := memory.entries ++ [rqst] })
  | .flush next => (.running next.pc, { memory with disk := memory.entries })
  | .apply exec =>
    match memory.server.perform exec with
    | (.ok _, server) =>
      (.running (.reply { msgType := .ack }), { memory with server := server })
    | (.error fault, server) =>
      ((Dispatched.ofFault fault).progress, { memory with server := server })
  | .reply resp => (.replied resp, memory)

/-- At most `fuel` steps of a job, stopping early when it ends. -/
def runJob (rqst : KVMessage) : Nat -> Memory config -> Pc -> Progress × Memory config
  | 0, memory, pc => (.running pc, memory)
  | fuel + 1, memory, pc =>
    match memory.advance rqst pc with
    | (.running next, after) => runJob rqst fuel after next
    | done => done

/-- A job from dispatch to its end; no job takes more than five steps. -/
def handle (memory : Memory config) (rqst : KVMessage) : Progress × Memory config :=
  runJob rqst 5 memory .parsed

/-! ## The invariant of a job -/

/-- Between two jobs: the log is on disk, and its replay gives the live store. -/
structure Settled (memory : Memory config) : Prop where
  flushed : memory.entries = memory.disk
  sound : Sound config memory.disk memory.server.dataStore
  coherent : memory.server.Coherent

/-- After COMMIT is on disk and before it is carried out: the live store is
the one of the log without it. -/
structure Applying (memory : Memory config) (rqst exec : KVMessage) : Prop where
  flushed : memory.entries = memory.disk
  before : ∃ earlier, memory.disk = earlier ++ [rqst] ∧
    Sound config earlier memory.server.dataStore ∧ pending earlier = some exec
  isCommit : rqst.msgType = .commit
  coherent : memory.server.Coherent

/-- What a logged request is followed by once it is on disk. -/
def Continues (memory : Memory config) (rqst : KVMessage) : AfterFlush -> Prop
  | .reply resp =>
    (Votable memory.server.dataStore rqst ∧ resp.msgType = .ready) ∨
      (rqst.msgType = .abort ∧ resp.msgType = .ack)
  | .apply exec => rqst.msgType = .commit ∧ pending memory.disk = some exec

/-- What a reply says about the slave that sends it. -/
structure ReplyFacts (memory : Memory config) (rqst resp : KVMessage) : Prop where
  vote : resp.msgType = .ready -> pending memory.disk = some rqst
  decision : rqst.msgType = .commit ∨ rqst.msgType = .abort ->
    resp.msgType = .ack ∧ pending memory.disk = none
  value : rqst.msgType = .getReq -> ∀ value, resp.value = some value ->
    ∃ key, rqst.key = some key ∧ memory.server.dataStore key = some value

def JobInvariant (memory : Memory config) (rqst : KVMessage) : Pc -> Prop
  | .parsed => memory.Settled
  | .add next => memory.Settled ∧ memory.Continues rqst next
  | .flush next =>
    memory.entries = memory.disk ++ [rqst] ∧
      Sound config memory.disk memory.server.dataStore ∧ memory.server.Coherent ∧
      memory.Continues rqst next
  | .apply exec => memory.Applying rqst exec
  | .reply resp => memory.Settled ∧ memory.ReplyFacts rqst resp

/-- A job that died left the slave settled, unless it died carrying out a
`put` whose key selects no list of the cache. -/
def DeadInvariant (memory : Memory config) : Prop :=
  memory.Settled ∨
    ∃ rqst exec, memory.Applying rqst exec ∧ ¬ exec.InRange config

/-- The invariant at whatever point a step leads to. -/
def ProgressInvariant (memory : Memory config) (rqst : KVMessage) : Progress -> Prop
  | .running pc => memory.JobInvariant rqst pc
  | .replied resp => memory.Settled ∧ memory.ReplyFacts rqst resp
  | .died _ => memory.DeadInvariant

theorem settled_initial : (initial : Memory config).Settled :=
  ⟨rfl, Sound.nil, KVServer.coherent_empty⟩

variable {memory : Memory config} {server : KVServer config}

/-- A step that only touches the cache keeps a slave settled. -/
theorem Settled.withServer (settled : memory.Settled)
    (sameStore : server.dataStore = memory.server.dataStore) (coherent : server.Coherent) :
    ({ memory with server := server } : Memory config).Settled :=
  ⟨settled.flushed, by simpa only [sameStore] using settled.sound, coherent⟩

variable {rqst : KVMessage}

/-- A caught exception leads to a reply without a vote or a value. -/
theorem Settled.ofFault (settled : memory.Settled)
    (undecided : rqst.msgType ≠ .commit ∧ rqst.msgType ≠ .abort) (fault : Fault) :
    memory.ProgressInvariant rqst (Dispatched.ofFault fault).progress := by
  cases fault with
  | kv text =>
    refine ⟨settled, ?_, ?_, ?_⟩
    · intro impossible
      cases impossible
    · rintro (isCommit | isAbort)
      · exact False.elim (undecided.1 isCommit)
      · exact False.elim (undecided.2 isAbort)
    · intro _ value impossible
      cases impossible
  | arrayIndexOutOfBounds | noSuchElement | nullPointer => exact .inl settled

/-- Before the first write, a job changes nothing but the cache. -/
theorem dispatch_frame (memory : Memory config) (rqst : KVMessage) :
    ∃ server, (memory.dispatch rqst).2 = { memory with server := server } ∧
      server.dataStore = memory.server.dataStore ∧
      (memory.server.Coherent -> server.Coherent) := by
  have sameMemory : (memory.dispatch rqst).2 = memory ∨
      (memory.dispatch rqst).2 = { memory with server := (memory.server.get rqst.key).2 } := by
    unfold dispatch
    repeat' split
    all_goals simp_all
  rcases sameMemory with same | same
  · exact ⟨memory.server, same, rfl, id⟩
  · exact ⟨_, same, memory.server.get_dataStore rqst.key,
      fun coherent => (memory.server.get_any rqst.key coherent).1⟩

theorem Settled.dispatch (settled : memory.Settled) (rqst : KVMessage) :
    (memory.dispatch rqst).2.Settled := by
  rcases memory.dispatch_frame rqst with ⟨server, same, sameStore, coherent⟩
  rw [same]
  exact settled.withServer sameStore (coherent settled.coherent)

theorem hasKey_true {key : Option JString} (present : server.hasKey key = .ok true) :
    ∃ k value, key = some k ∧ server.dataStore k = some value := by
  cases key with
  | none => cases present
  | some k =>
    cases stored : server.dataStore k with
    | none => simp only [KVServer.hasKey, Store.get, stored] at present; cases present
    | some value => exact ⟨k, value, rfl, stored⟩

/-- Replies that neither vote nor answer a decision nor carry a value. -/
private theorem reply_other {resp : KVMessage} (settled : memory.Settled)
    (noVote : resp.msgType ≠ .ready) (noDecision : rqst.msgType ≠ .commit ∧ rqst.msgType ≠ .abort)
    (noGet : rqst.msgType ≠ .getReq) : memory.JobInvariant rqst (.reply resp) := by
  refine ⟨settled, fun vote => False.elim (noVote vote), ?_, fun get => False.elim (noGet get)⟩
  rintro (isCommit | isAbort)
  · exact False.elim (noDecision.1 isCommit)
  · exact False.elim (noDecision.2 isAbort)

/-- The dispatch keeps the invariant, one case for each request type. -/
theorem dispatch_invariant (settled : memory.Settled) (rqst : KVMessage) :
    (memory.dispatch rqst).2.ProgressInvariant rqst (memory.dispatch rqst).1.progress := by
  cases type : rqst.msgType with
  | getReq =>
    have undecided : rqst.msgType ≠ .commit ∧ rqst.msgType ≠ .abort := by
      rw [type]; exact ⟨nofun, nofun⟩
    have facts := memory.server.get_any rqst.key settled.coherent
    have sameStore := memory.server.get_dataStore rqst.key
    rcases got : memory.server.get rqst.key with ⟨outcome, server⟩
    rw [got] at facts sameStore
    have after := settled.withServer sameStore facts.1
    cases outcome with
    | error fault =>
      simp only [dispatch, type, got]
      exact after.ofFault undecided fault
    | ok value =>
      simp only [dispatch, type, got]
      refine ⟨after, nofun, ?_, ?_⟩
      · rintro (isCommit | isAbort)
        · exact False.elim (undecided.1 isCommit)
        · exact False.elim (undecided.2 isAbort)
      · intro _ found same
        rcases facts.2 found (congrArg Except.ok same) with ⟨k, sameKey, stored⟩
        exact ⟨k, sameKey, by rw [sameStore]; exact stored⟩
  | putReq =>
    simp only [dispatch, type]
    by_cases accepted : validateKeyValue rqst.key rqst.value = SUCCESS
    · rw [if_pos accepted]
      exact ⟨settled, .inl ⟨.inl ⟨type, accepted⟩, rfl⟩⟩
    · rw [if_neg accepted]
      exact reply_other settled nofun (by rw [type]; exact ⟨nofun, nofun⟩)
        (by rw [type]; exact nofun)
  | delReq =>
    have undecided : rqst.msgType ≠ .commit ∧ rqst.msgType ≠ .abort := by
      rw [type]; exact ⟨nofun, nofun⟩
    cases has : memory.server.hasKey rqst.key with
    | error fault =>
      simp only [dispatch, type, has]
      exact settled.ofFault undecided fault
    | ok present =>
      cases present with
      | true =>
        simp only [dispatch, type, has]
        exact ⟨settled, .inl ⟨.inr ⟨type, hasKey_true has⟩, rfl⟩⟩
      | false =>
        simp only [dispatch, type, has]
        exact reply_other settled nofun undecided (by rw [type]; exact nofun)
  | commit =>
    cases last : memory.entries.getLast? with
    | none =>
      simp only [dispatch, type, last]
      exact .inl settled
    | some exec =>
      simp only [dispatch, type, last]
      by_cases action : exec.msgType = .putReq ∨ exec.msgType = .delReq
      · rw [if_pos action]
        refine ⟨settled, type, ?_⟩
        rw [<- settled.flushed, pending_of_getLast last,
          if_pos ((isAction_iff exec).mpr action)]
      · rw [if_neg action]
        refine ⟨settled, nofun, ?_, ?_⟩
        · intro _
          refine ⟨rfl, ?_⟩
          rw [<- settled.flushed, pending_of_getLast last,
            if_neg (fun isAction => action ((isAction_iff exec).mp isAction))]
        · intro impossible
          rw [type] at impossible
          cases impossible
  | abort =>
    simp only [dispatch, type]
    exact ⟨settled, .inr ⟨type, rfl⟩⟩
  | resp | ready | ack =>
    simp only [dispatch, type]
    exact reply_other settled nofun (by rw [type]; exact ⟨nofun, nofun⟩)
      (by rw [type]; exact nofun)

/-- What the flush of the request makes of the log. -/
theorem flush_invariant {next : AfterFlush} (invariant : memory.JobInvariant rqst (.flush next)) :
    (memory.advance rqst (.flush next)).2.JobInvariant rqst next.pc := by
  rcases invariant with ⟨grown, sound, coherent, continues⟩
  cases next with
  | apply exec =>
    exact ⟨rfl, ⟨memory.disk, grown, sound, continues.2⟩, continues.1, coherent⟩
  | reply resp =>
    rcases continues with ⟨votable, isReady⟩ | ⟨isAbort, isAck⟩
    · refine ⟨⟨rfl, ?_, coherent⟩, ?_, ?_, ?_⟩
      · change Sound config memory.entries memory.server.dataStore
        rw [grown]
        exact sound.append_action votable
      · intro _
        change pending memory.entries = some rqst
        rw [grown, pending_append_single, if_pos votable.isAction]
      · intro decision
        rcases (isAction_iff rqst).mp votable.isAction with isPut | isDel
        · rw [isPut] at decision
          rcases decision with impossible | impossible <;> cases impossible
        · rw [isDel] at decision
          rcases decision with impossible | impossible <;> cases impossible
      · intro isGet
        rcases (isAction_iff rqst).mp votable.isAction with isPut | isDel
        · rw [isPut] at isGet; cases isGet
        · rw [isDel] at isGet; cases isGet
    · refine ⟨⟨rfl, ?_, coherent⟩, ?_, ?_, ?_⟩
      · change Sound config memory.entries memory.server.dataStore
        rw [grown]
        exact sound.append_abort isAbort
      · intro isReady
        rw [isAck] at isReady
        cases isReady
      · intro _
        refine ⟨isAck, ?_⟩
        change pending memory.entries = none
        have notAction : rqst.isAction = false := by simp [KVMessage.isAction, isAbort]
        rw [grown, pending_append_single, notAction]
        rfl
      · intro isGet
        rw [isAbort] at isGet
        cases isGet

variable {exec : KVMessage}

/-- Carrying out the committed request brings the live store up to the log. -/
theorem Applying.perform (applying : memory.Applying rqst exec) (inRange : exec.InRange config) :
    ∃ server, memory.server.perform exec = (.ok (), server) ∧
      server.dataStore = exec.effect memory.server.dataStore ∧
      ({ memory with server := server } : Memory config).Settled ∧
      pending memory.disk = none := by
  rcases applying.before with ⟨earlier, grown, sound, waits⟩
  rcases memory.server.perform_votable applying.coherent sound.usable
    (sound.votable exec waits) inRange with ⟨after, performed, effect, coherent⟩
  have notAction : rqst.isAction = false := by
    simp [KVMessage.isAction, applying.isCommit]
  refine ⟨after, performed, effect, ⟨applying.flushed, ?_, coherent⟩, ?_⟩
  · change Sound config memory.disk after.dataStore
    rw [grown, effect]
    exact sound.append_commit applying.isCommit waits inRange
  · rw [grown, pending_append_single, notAction]
    rfl

theorem Applying.perform_outOfRange (applying : memory.Applying rqst exec)
    (outOfRange : ¬ exec.InRange config) :
    memory.server.perform exec = (.error .arrayIndexOutOfBounds, memory.server) := by
  rcases applying.before with ⟨earlier, grown, sound, waits⟩
  exact memory.server.perform_outOfRange sound.usable (sound.votable exec waits) outOfRange

theorem apply_invariant (applying : memory.Applying rqst exec) :
    (memory.advance rqst (.apply exec)).2.ProgressInvariant rqst
      (memory.advance rqst (.apply exec)).1 := by
  by_cases inRange : exec.InRange config
  · rcases applying.perform inRange with ⟨server, performed, _, settled, decided⟩
    simp only [advance, performed]
    refine ⟨settled, nofun, fun _ => ⟨rfl, decided⟩, ?_⟩
    intro isGet
    rw [applying.isCommit] at isGet
    cases isGet
  · simp only [advance, applying.perform_outOfRange inRange]
    exact .inr ⟨rqst, exec, applying, inRange⟩

/-- Every step of a job keeps the invariant. -/
theorem advance_invariant {pc : Pc} (invariant : memory.JobInvariant rqst pc) :
    (memory.advance rqst pc).2.ProgressInvariant rqst (memory.advance rqst pc).1 := by
  cases pc with
  | parsed => exact dispatch_invariant invariant rqst
  | add next =>
    rcases invariant with ⟨settled, continues⟩
    refine ⟨?_, settled.sound, settled.coherent, continues⟩
    exact congrArg (· ++ [rqst]) settled.flushed
  | flush next => exact flush_invariant invariant
  | apply exec => exact apply_invariant invariant
  | reply resp => exact invariant

end Memory

end KVStore
end Codebank
