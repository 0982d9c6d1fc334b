import Codebank.KVStore.Slave

namespace Codebank
namespace KVStore

open List Option

/-!
# What a vote binds a slave to

A slave has voted for a request.  From then on it is sent decisions, the same one again and again
until it is acknowledged, and it may stop and come back at any point.  The log tells it whether
the request still waits, so the request is carried out once, and never after an ABORT.
-/

variable {config : CacheConfig}

/-! ## Jobs that decide -/

namespace Memory

section

variable {memory : Memory config} {rqst : KVMessage}

/-- The job ends with an ACK. -/
def Acknowledges (rqst : KVMessage) (fuel : Nat) (memory : Memory config) (pc : Pc) : Prop :=
  ∃ resp final, runJob rqst fuel memory pc = (.replied resp, final) ∧ resp.msgType = .ack

/-- The key of a request that waits for a COMMIT selects a list of the cache. -/
def MayCommit (memory : Memory config) (rqst : KVMessage) : Prop :=
  rqst.msgType = .commit -> ∀ exec, pending memory.disk = some exec -> exec.InRange config

variable {exec : KVMessage}

theorem Applying.acknowledges (applying : memory.Applying rqst exec) (inRange : exec.InRange config)
    (fuel : Nat) : Acknowledges rqst (fuel + 2) memory (.apply exec) := by
  rcases applying.perform inRange with ⟨server, performed, _⟩
  refine ⟨{ msgType := .ack }, { memory with server := server }, ?_, rfl⟩
  rw [runJob]
  simp only [advance, performed]
  rfl

variable {next : AfterFlush}

/-- A logged decision ends with an ACK, once it is on disk. -/
theorem acknowledges_next (invariant : memory.JobInvariant rqst (.flush next))
    (decision : rqst.msgType = .commit ∨ rqst.msgType = .abort)
    (inRange : memory.MayCommit rqst) (fuel : Nat) :
    Acknowledges rqst (fuel + 3) memory (.flush next) := by
  have flushed := flush_invariant invariant
  rcases invariant with ⟨_, _, _, continues⟩
  cases next with
  | reply resp =>
    refine ⟨resp, _, rfl, ?_⟩
    exact (flushed.2.decision decision).1
  | apply exec => exact Applying.acknowledges flushed (inRange continues.1 exec continues.2) fuel

theorem acknowledges_add (invariant : memory.JobInvariant rqst (.add next))
    (decision : rqst.msgType = .commit ∨ rqst.msgType = .abort)
    (inRange : memory.MayCommit rqst) (fuel : Nat) :
    Acknowledges rqst (fuel + 4) memory (.add next) :=
  acknowledges_next (advance_invariant invariant) decision inRange fuel

theorem acknowledges_parsed (settled : memory.Settled)
    (decision : rqst.msgType = .commit ∨ rqst.msgType = .abort) (logged : memory.disk ≠ [])
    (inRange : memory.MayCommit rqst) : Acknowledges rqst 5 memory .parsed := by
  have invariant := dispatch_invariant settled rqst
  rcases decision with isCommit | isAbort
  · cases last : memory.entries.getLast? with
    | none =>
      rw [settled.flushed, getLast?_eq_none_iff] at last
      exact absurd last logged
    | some exec =>
      simp only [dispatch, isCommit, last] at invariant
      by_cases action : exec.msgType = .putReq ∨ exec.msgType = .delReq
      · rw [if_pos action] at invariant
        have later := acknowledges_add invariant (.inl isCommit) inRange 0
        rw [Acknowledges, runJob]
        simp only [advance, dispatch, isCommit, last, if_pos action]
        exact later
      · refine ⟨{ msgType := .ack }, memory, ?_, rfl⟩
        rw [runJob]
        simp only [advance, dispatch, isCommit, last, if_neg action]
        rfl
  · simp only [dispatch, isAbort] at invariant
    have later := acknowledges_add invariant (.inr isAbort) inRange 0
    rw [Acknowledges, runJob]
    simp only [advance, dispatch, isAbort]
    exact later

/-- Wherever the job of a decision is, it ends with an ACK. -/
theorem JobInvariant.acknowledges {pc : Pc} (invariant : memory.JobInvariant rqst pc)
    (decision : rqst.msgType = .commit ∨ rqst.msgType = .abort) (logged : memory.disk ≠ [])
    (inRange : memory.MayCommit rqst) (applied : ∀ exec, pc = .apply exec -> exec.InRange config) :
    Acknowledges rqst 5 memory pc := by
  cases pc with
  | parsed => exact acknowledges_parsed invariant decision logged inRange
  | add next => exact acknowledges_add invariant decision inRange 1
  | flush next => exact acknowledges_next invariant decision inRange 2
  | reply resp => exact ⟨resp, memory, rfl, (invariant.2.decision decision).1⟩
  | apply exec => exact Applying.acknowledges invariant (applied exec rfl) 3

theorem progress_ne_apply (dispatched : Dispatched) (exec : KVMessage) :
    dispatched.progress ≠ .running (.apply exec) := by
  cases dispatched <;> simp [Dispatched.progress]

theorem advance_apply {pc : Pc} {after : Memory config} (invariant : memory.JobInvariant rqst pc)
    (advanced : memory.advance rqst pc = (.running (.apply exec), after)) :
    rqst.msgType = .commit ∧ after.disk = memory.disk ++ [rqst] := by
  cases pc with
  | parsed => exact absurd (congrArg Prod.fst advanced) (progress_ne_apply _ exec)
  | add next | reply resp => cases advanced
  | apply exec' =>
    simp only [advance] at advanced
    split at advanced
    · cases advanced
    · exact absurd (congrArg Prod.fst advanced) (progress_ne_apply _ exec)
  | flush next =>
    rcases invariant with ⟨grown, _, _, continues⟩
    cases next with
    | reply resp => cases advanced
    | apply exec' =>
      cases advanced
      exact ⟨continues.1, grown⟩

end

end Memory

/-! ## Runs of a slave -/

/-- A request arrives, or the slave takes a step of its own. -/
inductive SlaveEvent where
  | deliver (task : Task)
  | act (action : SlaveAction)

namespace SlaveState

variable {slave : SlaveState config} {events : List SlaveEvent} {decisions : List MsgType}

def react (slave : SlaveState config) : SlaveEvent -> Option (SlaveState config)
  | .deliver task => slave.addJob task
  | .act action => (slave.step action).map Prod.snd

def afterEvents (events : List SlaveEvent) (slave : SlaveState config) :
    Option (SlaveState config) :=
  events.foldlM react slave

variable {Invariant : SlaveState config -> Prop}

/-- What every event keeps, every run keeps. -/
theorem afterEvents_invariant {Admissible : SlaveEvent -> Prop}
    (kept : ∀ {slave event after}, Invariant slave -> Admissible event ->
      react slave event = some after -> Invariant after) {final : SlaveState config}
    (start : Invariant slave) (admissible : ∀ event, event ∈ events -> Admissible event)
    (run : slave.afterEvents events = some final) : Invariant final := by
  induction events generalizing slave with
  | nil =>
    cases run
    exact start
  | cons event events ih =>
    rw [afterEvents, foldlM_cons] at run
    rcases bind_eq_some_iff.mp run with ⟨middle, first, later⟩
    exact ih (kept start (admissible event mem_cons_self) first)
      (fun other member => admissible other (mem_cons_of_mem _ member)) later

variable {after : SlaveState config} {action : SlaveAction}

/-- The job starts to carry out a COMMIT when it has written it to the log. -/
theorem step_applying {reply : Option Task} (valid : slave.Valid)
    (stepped : slave.step action = some (reply, after)) (applies : after.applying = true) :
    ∃ entry, entry.msgType = .commit ∧ after.disk = slave.disk ++ [entry] := by
  cases moves_of_step stepped with
  | getJob | replied | died | crash | restart => cases applies
  | @running _ _ task _ newPc _ advanced =>
    cases newPc with
    | apply exec => exact ⟨task.rqst, Memory.advance_apply valid advanced⟩
    | parsed | add | flush | reply => cases applies

theorem step_reply_idle {sent : Task} (stepped : slave.step action = some (some sent, after)) :
    after.applying = false := by
  cases moves_of_step stepped
  rfl

/-- Everything an event does that matters here. -/
structure ReactFacts (slave : SlaveState config) (event : SlaveEvent) (after : SlaveState config) :
    Prop where
  valid : after.Valid
  unfinished : ∀ task, task ∈ after.unfinished ->
    task ∈ slave.unfinished ∨ event = .deliver task
  log : after.disk = slave.disk ∨
    ∃ task, task ∈ slave.queue ∧ after.disk = slave.disk ++ [task.rqst] ∧
      MayAppend config slave.disk task.rqst
  applying : after.applying = true -> slave.applying = true ∨
    ∃ entry, entry.msgType = .commit ∧ after.disk = slave.disk ++ [entry]

variable {event : SlaveEvent}

theorem react_facts (valid : slave.Valid) (reacted : slave.react event = some after) :
    ReactFacts slave event after := by
  cases event with
  | deliver task =>
    rcases addJob_facts reacted with ⟨sameValid, unfinished, disk, _⟩
    refine ⟨sameValid.mpr valid, fun other member => ?_, .inl disk, fun applies => .inl ?_⟩
    · rw [unfinished, mem_append, mem_singleton] at member
      exact member.imp_right fun same => by rw [same]
    · cases slave with
      | down disk => cases reacted
      | up memory worker tasks =>
        cases reacted
        exact applies
  | act action =>
    rcases map_eq_some_iff.mp reacted with ⟨⟨reply, final⟩, stepped, rfl⟩
    have facts := (step_facts valid stepped).1
    exact ⟨facts.valid, fun task member => .inl (facts.unfinished.subset member), facts.log,
      fun applies => .inr (step_applying valid stepped applies)⟩

theorem valid_afterEvents (run : (initial : SlaveState config).afterEvents events = some slave) :
    slave.Valid :=
  @afterEvents_invariant config _ _ Valid (fun _ => True)
    (fun valid _ reacted => (react_facts valid reacted).valid) _ valid_initial
    (fun _ _ => trivial) run

/-! ## What is delivered -/

/-- The request is one of the decisions, or a GET. -/
def OneOf (decisions : List MsgType) (rqst : KVMessage) : Prop :=
  rqst.msgType ∈ decisions ∨ rqst.msgType = .getReq

/-- The events deliver nothing else. -/
def Bring (decisions : List MsgType) (events : List SlaveEvent) : Prop :=
  ∀ task, SlaveEvent.deliver task ∈ events -> OneOf decisions task.rqst

/-- Nothing else is under way. -/
def Awaits (slave : SlaveState config) (decisions : List MsgType) : Prop :=
  ∀ task, task ∈ slave.unfinished -> OneOf decisions task.rqst

theorem Awaits.queue (awaits : slave.Awaits decisions) {task : Task} (member : task ∈ slave.queue) :
    task.rqst.msgType ∈ decisions := by
  rw [mem_queue] at member
  exact (awaits task member.1).resolve_right member.2

theorem ReactFacts.awaits (facts : ReactFacts slave event after) (awaits : slave.Awaits decisions)
    (brings : ∀ task, event = .deliver task -> OneOf decisions task.rqst) :
    after.Awaits decisions := by
  intro task member
  rcases facts.unfinished task member with old | delivered
  · exact awaits task old
  · exact brings task delivered

/-- What every event with such deliveries keeps, every run with such deliveries keeps. -/
theorem afterEvents_bring (kept : ∀ {slave event after}, Invariant slave ->
      (∀ task, event = .deliver task -> OneOf decisions task.rqst) ->
      react slave event = some after -> Invariant after) {final : SlaveState config}
    (start : Invariant slave) (bring : Bring decisions events)
    (run : slave.afterEvents events = some final) : Invariant final :=
  afterEvents_invariant kept start
    (fun _ member task is => bring task (by rw [<- is]; exact member)) run

/-! ## Answers and restarts -/

/-- The job under way, if it is one of the decisions, ends with an ACK. -/
def AnswersAck (slave : SlaveState config) (decisions : List MsgType) : Prop :=
  ∀ memory task pc tasks, slave = .up memory (.busy task pc) tasks ->
    task.rqst.msgType ∈ decisions -> Memory.Acknowledges task.rqst 5 memory pc

/-- A slave that has stopped can come back. -/
def Restarts (slave : SlaveState config) : Prop :=
  ∀ disk, slave = .down disk -> ∃ next, slave.step .restart = some (none, next)

theorem restarts_of_sound {store : Store} (sound : Sound config slave.disk store) :
    slave.Restarts := by
  rintro disk rfl
  rcases Sound.rebuildServer sound with ⟨server, done, _⟩
  refine ⟨.up ⟨server, disk, disk⟩ .waiting [], ?_⟩
  simp only [step]
  rw [show rebuildServer config disk = _ from done]

/-- Nothing waits for a decision once one is logged. -/
theorem pending_decision {log : List KVMessage} {decision : KVMessage}
    (isDecision : decision.msgType = .commit ∨ decision.msgType = .abort) :
    pending (log ++ [decision]) = none := by
  have notAction : decision.isAction = false := by
    rcases isDecision with isCommit | isAbort
    · simp [KVMessage.isAction, isCommit]
    · simp [KVMessage.isAction, isAbort]
  rw [pending_append_single, notAction]
  rfl

/-! ## COMMIT -/

section

variable {log : List KVMessage} {store : Store} {exec : KVMessage}
  {slave after : SlaveState config} {event : SlaveEvent}

/-- The slave has voted with this log, and only COMMIT can have been added since. -/
structure Committing (log : List KVMessage) (slave : SlaveState config) : Prop where
  valid : slave.Valid
  awaits : slave.Awaits [.commit]
  log : slave.disk = log ∨
    ∃ decision, decision.msgType = .commit ∧ slave.disk = log ++ [decision]

section

variable (committing : Committing log slave)

include committing

theorem Committing.pending (decided : slave.disk ≠ log) : pending slave.disk = none := by
  rcases committing.log with same | ⟨decision, isCommit, grown⟩
  · exact absurd same decided
  · rw [grown]
    exact pending_decision (.inl isCommit)

/-- A COMMIT is added to a log that waits for it, so only once. -/
theorem Committing.appends {task : Task} (member : task ∈ slave.queue)
    (may : MayAppend config slave.disk task.rqst) :
    slave.disk = log ∧ task.rqst.msgType = .commit := by
  have isCommit := mem_singleton.mp (committing.awaits.queue member)
  refine ⟨?_, isCommit⟩
  by_contra decided
  have none_ := committing.pending decided
  rcases may.decision (.inl isCommit) with isAbort | ⟨_, exec, waits⟩
  · rw [isCommit] at isAbort; cases isAbort
  · rw [none_] at waits; cases waits

theorem Committing.react (brings : ∀ task, event = .deliver task -> OneOf [.commit] task.rqst)
    (reacted : slave.react event = some after) : Committing log after := by
  have facts := react_facts committing.valid reacted
  refine ⟨facts.valid, facts.awaits committing.awaits brings, ?_⟩
  rcases facts.log with same | ⟨task, member, grown, may⟩
  · rw [same]
    exact committing.log
  · rcases committing.appends member may with ⟨same, isCommit⟩
    exact .inr ⟨task.rqst, isCommit, by rw [grown, same]⟩

/-- Once it is decided and carried out, no event changes the log or begins to carry it out. -/
theorem Committing.stable (decided : slave.disk ≠ log) (idle : slave.applying = false)
    (reacted : slave.react event = some after) :
    after.disk = slave.disk ∧ after.applying = false := by
  have facts := react_facts committing.valid reacted
  have same : after.disk = slave.disk := by
    rcases facts.log with same | ⟨task, member, _, may⟩
    · exact same
    · exact absurd (committing.appends member may).1 decided
  refine ⟨same, ?_⟩
  by_contra applies
  rcases facts.applying (Bool.eq_true_of_not_eq_false applies) with before | ⟨entry, _, grown⟩
  · rw [idle] at before
    cases before
  · rw [same] at grown
    exact cons_ne_nil _ _ (self_eq_append_right.mp grown)

end

/-- The request is decided and carried out, and the log is this one. -/
structure Carried (log disk : List KVMessage) (slave : SlaveState config) : Prop where
  committing : Committing log slave
  disk : slave.disk = disk
  idle : slave.applying = false

theorem Carried.react {disk : List KVMessage} (carried : Carried log disk slave)
    (decided : disk ≠ log)
    (brings : ∀ task, event = .deliver task -> OneOf [.commit] task.rqst)
    (reacted : slave.react event = some after) : Carried log disk after := by
  have grown : slave.disk ≠ log := by
    rw [carried.disk]
    exact decided
  rcases carried.committing.stable grown carried.idle reacted with ⟨same, idle⟩
  exact ⟨carried.committing.react brings reacted, same.trans carried.disk, idle⟩

section

variable (committing : Committing log slave)

include committing

theorem Committing.contents_waiting (sound : Sound config log store)
    (waits : KVStore.pending log = some exec) (same : slave.disk = log) :
    slave.contents = store := by
  cases applies : slave.applying with
  | false =>
    rw [<- same] at sound
    rcases committing.valid.log_idle applies with live | broken
    · exact live.unique sound
    · exact absurd sound broken.not_sound
  | true =>
    rcases committing.valid.log_applying applies with ⟨_, _, _, _, decided⟩
    have none_ := decided.pending
    rw [same, waits] at none_
    cases none_

theorem Committing.contents_decided (sound : Sound config log store)
    (waits : KVStore.pending log = some exec) (inRange : exec.InRange config) {decision : KVMessage}
    (isCommit : decision.msgType = .commit) (grown : slave.disk = log ++ [decision]) :
    slave.contents = if slave.applying then store else exec.effect store := by
  have decided : Decided config slave.disk store exec :=
    ⟨log, decision, grown, sound, isCommit, waits⟩
  cases applies : slave.applying with
  | false =>
    rcases committing.valid.log_idle applies with live | broken
    · exact live.unique (decided.sound inRange)
    · exact absurd (decided.sound inRange) broken.not_sound
  | true =>
    rcases committing.valid.log_applying applies with ⟨_, _, _, _, live⟩
    exact (live.unique decided).1

theorem Committing.sound (sound : Sound config log store) (waits : KVStore.pending log = some exec)
    (inRange : exec.InRange config) : ∃ current, Sound config slave.disk current := by
  rcases committing.log with same | ⟨decision, isCommit, grown⟩
  · exact ⟨store, by rw [same]; exact sound⟩
  · exact ⟨exec.effect store, by rw [grown]; exact sound.append_commit isCommit waits inRange⟩

theorem Committing.answersAck (waits : KVStore.pending log = some exec)
    (inRange : exec.InRange config) : slave.AnswersAck [.commit] := by
  rintro memory task pc tasks rfl decision
  have isCommit := mem_singleton.mp decision
  have nonempty : log ≠ [] := by
    rintro rfl
    cases waits
  have log : memory.disk = log ∨ ∃ decision, decision.msgType = .commit ∧
      memory.disk = log ++ [decision] := committing.log
  refine Memory.JobInvariant.acknowledges committing.valid (.inl isCommit) ?_ ?_ ?_
  · rcases log with same | ⟨_, _, grown⟩
    · rw [same]
      exact nonempty
    · rw [grown]
      exact append_ne_nil_of_right_ne_nil _ (cons_ne_nil _ _)
  · intro _ other waiting
    rcases log with same | ⟨decision, isDecision, grown⟩
    · rw [same, waits] at waiting
      cases waiting
      exact inRange
    · rw [grown, pending_decision (.inl isDecision)] at waiting
      cases waiting
  · rintro other rfl
    rcases Memory.Applying.before committing.valid with ⟨earlier, ends, _, waiting⟩
    rcases log with same | ⟨decision, _, grown⟩
    · rw [<- same, ends, pending_decision (.inl isCommit)] at waits
      cases waits
    · rw [ends] at grown
      rw [(append_inj' grown rfl).1, waits] at waiting
      cases waiting
      exact inRange

end

end

/-! ## ABORT -/

section

variable {log : List KVMessage} {store : Store} {slave after : SlaveState config}
  {event : SlaveEvent}

/-- The slave has voted with this log, and only ABORT can have been added since. -/
structure Aborting (log : List KVMessage) (store : Store) (slave : SlaveState config) : Prop where
  valid : slave.Valid
  awaits : slave.Awaits [.abort]
  sound : Sound config slave.disk store
  logged : slave.disk ≠ []
  log : slave.disk = log ∨ pending slave.disk = none

/-- No request waits for a decision, and only decisions are under way. -/
structure Aborted (store : Store) (slave : SlaveState config) : Prop where
  valid : slave.Valid
  awaits : slave.Awaits [.commit, .abort]
  idle : slave.applying = false
  sound : Sound config slave.disk store
  logged : slave.disk ≠ []
  none : pending slave.disk = none

theorem contents_of_sound (valid : slave.Valid) (idle : slave.applying = false)
    (sound : Sound config slave.disk store) : slave.contents = store := by
  rcases valid.log_idle idle with live | broken
  · exact live.unique sound
  · exact absurd sound broken.not_sound

theorem Aborting.idle (aborting : Aborting log store slave) : slave.applying = false := by
  by_contra applies
  rcases aborting.valid.log_applying (Bool.eq_true_of_not_eq_false applies) with
    ⟨task, _, member, isCommit, _⟩
  have isAbort := mem_singleton.mp (aborting.awaits.queue member)
  rw [isCommit] at isAbort
  cases isAbort

theorem Aborting.react (aborting : Aborting log store slave)
    (brings : ∀ task, event = .deliver task -> OneOf [.abort] task.rqst)
    (reacted : slave.react event = some after) : Aborting log store after := by
  have facts := react_facts aborting.valid reacted
  have awaits := facts.awaits aborting.awaits brings
  rcases facts.log with same | ⟨task, member, grown, _⟩
  · exact ⟨facts.valid, awaits, same ▸ aborting.sound, same ▸ aborting.logged,
      same ▸ aborting.log⟩
  · have isAbort := mem_singleton.mp (aborting.awaits.queue member)
    refine ⟨facts.valid, awaits, ?_, ?_, .inr ?_⟩
    · rw [grown]
      exact aborting.sound.append_abort isAbort
    · rw [grown]
      exact append_ne_nil_of_right_ne_nil _ (cons_ne_nil _ _)
    · rw [grown]
      exact pending_decision (.inr isAbort)

theorem Aborting.aborted (aborting : Aborting log store slave) (decided : slave.disk ≠ log) :
    Aborted store slave where
  valid := aborting.valid
  awaits task member := (aborting.awaits task member).imp_left (mem_cons_of_mem _)
  idle := aborting.idle
  sound := aborting.sound
  logged := aborting.logged
  none := aborting.log.resolve_left decided

/-- With nothing waiting, neither decision changes what is stored. -/
theorem Aborted.react (aborted : Aborted store slave)
    (brings : ∀ task, event = .deliver task -> OneOf [.commit, .abort] task.rqst)
    (reacted : slave.react event = some after) : Aborted store after := by
  have facts := react_facts aborted.valid reacted
  have awaits := facts.awaits aborted.awaits brings
  -- what is added to the log, if anything, is an ABORT
  have log : after.disk = slave.disk ∨
      ∃ entry, entry.msgType = .abort ∧ after.disk = slave.disk ++ [entry] := by
    rcases facts.log with same | ⟨task, member, grown, may⟩
    · exact .inl same
    · rcases may.decision (by simpa using aborted.awaits.queue member) with isAbort | ⟨_, _, waits⟩
      · exact .inr ⟨task.rqst, isAbort, grown⟩
      · rw [aborted.none] at waits
        cases waits
  have idle : after.applying = false := by
    by_contra applies
    rcases facts.applying (Bool.eq_true_of_not_eq_false applies) with
      before | ⟨entry, isCommit, grown⟩
    · rw [aborted.idle] at before
      cases before
    · rcases log with same | ⟨other, isAbort, grownToo⟩
      · rw [same] at grown
        exact cons_ne_nil _ _ (self_eq_append_right.mp grown)
      · rw [grownToo] at grown
        have sameEntry := append_inj_right' grown rfl
        rw [(List.cons.inj sameEntry).1, isCommit] at isAbort
        cases isAbort
  rcases log with same | ⟨entry, isAbort, grown⟩
  · exact ⟨facts.valid, awaits, idle, same ▸ aborted.sound, same ▸ aborted.logged,
      same ▸ aborted.none⟩
  · refine ⟨facts.valid, awaits, idle, ?_, ?_, ?_⟩
    · rw [grown]
      exact aborted.sound.append_abort isAbort
    · rw [grown]
      exact append_ne_nil_of_right_ne_nil _ (cons_ne_nil _ _)
    · rw [grown]
      exact pending_decision (.inr isAbort)

theorem answersAck_of_idle {decisions : List MsgType}
    (decide_ : ∀ type, type ∈ decisions -> type = .commit ∨ type = .abort)
    (valid : slave.Valid) (idle : slave.applying = false) (logged : slave.disk ≠ [])
    (settled : MsgType.commit ∈ decisions -> pending slave.disk = none) :
    slave.AnswersAck decisions := by
  rintro memory task pc tasks rfl decision
  refine Memory.JobInvariant.acknowledges valid (decide_ _ decision) logged ?_ ?_
  · intro isCommit exec waits
    rw [isCommit] at decision
    rw [show pending memory.disk = none from settled decision] at waits
    cases waits
  · rintro exec rfl
    cases idle

/-- The slave has just answered READY to `exec`, after any history. -/
def Voted (slave : SlaveState config) (exec : KVMessage) : Prop :=
  ∃ events before sent, (initial : SlaveState config).afterEvents events = some before ∧
    before.step .run = some (some sent, slave) ∧
    before.unfinished = ⟨sent.conn, exec⟩ :: slave.unfinished ∧ sent.rqst.msgType = .ready

variable {next : SlaveState config} {sent : Task}

theorem Replies.eq {rqst other : KVMessage} (replies : Replies slave next rqst sent)
    (oldest : slave.unfinished = ⟨sent.conn, other⟩ :: next.unfinished) : rqst = other := by
  have same := replies.oldest.symm.trans oldest
  exact (Task.mk.inj (List.cons.inj same).1).2

theorem Voted.facts {exec : KVMessage} (voted : Voted slave exec) :
    slave.Valid ∧ pending slave.disk = some exec ∧ Sound config slave.disk slave.contents := by
  rcases voted with ⟨events, before, sent, run, stepped, oldest, isReady⟩
  rcases step_facts (valid_afterEvents run) stepped with ⟨facts, replied⟩
  rcases replied sent rfl with ⟨rqst, replies⟩
  refine ⟨facts.valid, ?_, replies.log⟩
  rw [replies.answered.vote isReady, replies.eq oldest]

/-- The reply to a decision is an ACK, and nothing waits in the log then. -/
theorem answered_decision {action : SlaveAction} {rqst : KVMessage} (valid : slave.Valid)
    (stepped : slave.step action = some (some sent, next))
    (oldest : slave.unfinished = ⟨sent.conn, rqst⟩ :: next.unfinished)
    (decision : rqst.msgType = .commit ∨ rqst.msgType = .abort) :
    sent.rqst.msgType = .ack ∧ pending next.disk = none := by
  rcases (step_facts valid stepped).2 sent rfl with ⟨other, replies⟩
  rw [<- replies.eq oldest] at decision
  exact replies.answered.decision decision

end

/-- What COMMITs do to a slave that has voted for `exec` and has reached a state. -/
structure CommitsOnce (slave : SlaveState config) (exec : KVMessage) (after : SlaveState config) :
    Prop where
  answers : after.AnswersAck [.commit]
  restarts : after.Restarts
  /-- at most one COMMIT is in the log, and the request has been carried out as often -/
  once : (after.disk = slave.disk ∧ after.contents = slave.contents) ∨
    ∃ decision, decision.msgType = .commit ∧ after.disk = slave.disk ++ [decision] ∧
      after.contents = if after.applying then slave.contents else exec.effect slave.contents
  answered : ∀ action sent next rqst, after.step action = some (some sent, next) ->
    after.unfinished = ⟨sent.conn, rqst⟩ :: next.unfinished -> rqst.msgType = .commit ->
    sent.rqst.msgType = .ack ∧ next.disk ≠ slave.disk ∧ next.applying = false
  /-- what follows changes neither the log nor the store -/
  stable : after.disk ≠ slave.disk -> after.applying = false -> ∀ later final,
    Bring [.commit] later -> after.afterEvents later = some final ->
    final.disk = after.disk ∧ final.contents = after.contents

/-- What ABORTs do to it. -/
structure AbortsForGood (slave after : SlaveState config) : Prop where
  answers : after.AnswersAck [.abort]
  restarts : after.Restarts
  contents : after.contents = slave.contents
  answered : ∀ action sent next rqst, after.step action = some (some sent, next) ->
    after.unfinished = ⟨sent.conn, rqst⟩ :: next.unfinished -> rqst.msgType = .abort ->
    sent.rqst.msgType = .ack ∧ next.disk ≠ slave.disk
  /-- COMMITs that come later find nothing to carry out -/
  stable : after.disk ≠ slave.disk -> ∀ later final,
    Bring [.commit, .abort] later -> after.afterEvents later = some final ->
    final.contents = slave.contents ∧ final.AnswersAck [.commit, .abort] ∧ final.Restarts

section

variable {slave : SlaveState config} {exec : KVMessage} {after : SlaveState config}

theorem Voted.commitsOnce (voted : Voted slave exec) (inRange : exec.InRange config)
    (committing : Committing slave.disk after) : CommitsOnce slave exec after := by
  rcases voted.facts with ⟨_, waits, sound⟩
  have decided : after.disk ≠ slave.disk -> ∃ decision, decision.msgType = .commit ∧
      after.disk = slave.disk ++ [decision] := committing.log.resolve_left
  refine ⟨committing.answersAck waits inRange, ?_, ?_, ?_, ?_⟩
  · rcases committing.sound sound waits inRange with ⟨current, soundNow⟩
    exact restarts_of_sound soundNow
  · rcases committing.log with same | ⟨decision, isCommit, grown⟩
    · exact .inl ⟨same, committing.contents_waiting sound waits same⟩
    · exact .inr ⟨decision, isCommit, grown,
        committing.contents_decided sound waits inRange isCommit grown⟩
  · intro action sent next rqst stepped oldest isCommit
    rcases answered_decision committing.valid stepped oldest (.inl isCommit) with
      ⟨isAck, none_⟩
    refine ⟨isAck, ?_, step_reply_idle stepped⟩
    intro same
    rw [same, waits] at none_
    cases none_
  · intro grown idle later final bring run
    have kept : Carried slave.disk after.disk final :=
      afterEvents_bring (fun holds brings reacted => holds.react grown brings reacted)
        ⟨committing, rfl, idle⟩ bring run
    rcases decided grown with ⟨decision, isCommit, ends⟩
    refine ⟨kept.disk, ?_⟩
    rw [committing.contents_decided sound waits inRange isCommit ends,
      kept.committing.contents_decided sound waits inRange isCommit (kept.disk.trans ends), idle,
      kept.idle]

theorem Voted.abortsForGood (voted : Voted slave exec)
    (aborting : Aborting slave.disk slave.contents after) : AbortsForGood slave after := by
  rcases voted.facts with ⟨_, waits, sound⟩
  refine ⟨?_, restarts_of_sound aborting.sound,
    contents_of_sound aborting.valid aborting.idle aborting.sound, ?_, ?_⟩
  · refine answersAck_of_idle (fun type member => .inr (mem_singleton.mp member))
      aborting.valid aborting.idle aborting.logged fun impossible => ?_
    exact absurd impossible (by decide)
  · intro action sent next rqst stepped oldest isAbort
    rcases answered_decision aborting.valid stepped oldest (.inr isAbort) with ⟨isAck, none_⟩
    refine ⟨isAck, ?_⟩
    intro same
    rw [same, waits] at none_
    cases none_
  · intro decided later final bring run
    have aborted : Aborted slave.contents final :=
      afterEvents_bring (fun holds brings reacted => holds.react brings reacted)
        (aborting.aborted decided) bring run
    refine ⟨contents_of_sound aborted.valid aborted.idle aborted.sound, ?_,
      restarts_of_sound aborted.sound⟩
    refine answersAck_of_idle (fun type member => ?_) aborted.valid aborted.idle aborted.logged
      fun _ => aborted.none
    simpa using member

/-- From the vote on, over every sequence of deliveries, steps, crashes and restarts: with COMMITs
the request is carried out once, with ABORTs never, and every decision is acknowledged. -/
theorem vote_binds_once (voted : Voted slave exec) (inRange : exec.InRange config) :
    (slave.Awaits [.commit] -> ∀ events after, Bring [.commit] events ->
      slave.afterEvents events = some after -> CommitsOnce slave exec after) ∧
    (slave.Awaits [.abort] -> ∀ events after, Bring [.abort] events ->
      slave.afterEvents events = some after -> AbortsForGood slave after) := by
  rcases voted.facts with ⟨valid, waits, sound⟩
  refine ⟨fun awaits events after bring run => ?_, fun awaits events after bring run => ?_⟩
  · refine voted.commitsOnce inRange ?_
    exact afterEvents_bring (fun holds brings reacted => holds.react brings reacted)
      ⟨valid, awaits, .inl rfl⟩ bring run
  · refine voted.abortsForGood ?_
    have logged : slave.disk ≠ [] := by
      intro empty
      rw [empty] at waits
      cases waits
    exact afterEvents_bring (fun holds brings reacted => holds.react brings reacted)
      ⟨valid, awaits, sound, logged, .inl rfl⟩ bring run

end

def sampleVote : List SlaveEvent :=
  [.deliver ⟨0, { msgType := .putReq, key := some (.ofAscii "k"), value := some (.ofAscii "v") }⟩,
    .act .getJob, .act .run, .act .run, .act .run]

/-- The slave stops with the COMMIT on disk, and gets it again. -/
def sampleCommit : List SlaveEvent :=
  [.deliver ⟨1, { msgType := .commit }⟩, .act .getJob, .act .run, .act .run, .act .run, .act .crash,
    .act .restart, .deliver ⟨2, { msgType := .commit }⟩, .act .getJob]

theorem vote_binds_once_sample :
    ∃ (slave after : SlaveState sampleSlaveCache) (exec : KVMessage),
      slave.afterEvents sampleCommit = some after ∧ CommitsOnce slave exec after := by
  have seen : ((initial : SlaveState sampleSlaveCache).afterEvents sampleVote).bind (fun before =>
      (before.step .run).bind fun result => (result.2.afterEvents sampleCommit).map fun _ =>
        (before.unfinished, result.1, result.2.unfinished)) =
      some ([⟨0, { msgType := .putReq, key := some (.ofAscii "k"), value := some (.ofAscii "v") }⟩],
        some ⟨0, { msgType := .ready }⟩, []) := by
    decide +kernel
  rcases bind_eq_some_iff.mp seen with ⟨before, reached, seen⟩
  rcases bind_eq_some_iff.mp seen with ⟨⟨reply, slave⟩, stepped, seen⟩
  rcases map_eq_some_iff.mp seen with ⟨after, run, same⟩
  simp only [Prod.mk.injEq] at same
  rcases same with ⟨oldest, rfl, nothing⟩
  refine ⟨slave, after, _, run, (vote_binds_once ⟨sampleVote, before, _, reached, stepped,
    oldest.trans (congrArg _ nothing.symm), rfl⟩ (by decide +kernel)).1 ?_ sampleCommit
      after ?_ run⟩
  · intro task member
    rw [nothing] at member
    cases member
  · intro task member
    have isCommit : task.rqst.msgType = .commit := by
      simp only [sampleCommit, mem_cons, SlaveEvent.deliver.injEq, reduceCtorEq,
        not_mem_nil, or_false, false_or] at member
      rcases member with rfl | rfl <;> rfl
    exact .inl (mem_singleton.mpr isCommit)

end SlaveState

end KVStore
end Codebank
