import Codebank.KVStore.Slave

namespace Codebank
namespace KVStore

open List

/-!
# The slaves and the connections to them

Every request travels on a connection of its own, numbered in the order in which
the master opens them, and the reply comes back on it.  A request may get lost;
a lost reply is one that the master never reads.  Slaves are indexed by an
arbitrary type.

`Consistent` ties what the slaves do to what the master waits for.  The key
fact is in `Awaits.reply`: once the connection the master waits for has its
reply, nothing of two-phase commit is under way at that slave any more, because
the worker takes the requests in order and this one was the last.
-/

structure Network (config : CacheConfig) (Slave : Type) where
  slaves : Slave -> SlaveState config
  replies : Nat -> Option KVMessage
  nextConn : Nat

/-- The request on connection `conn` to `slave`, from the master's side. -/
structure Awaited (Slave : Type) where
  conn : Nat
  slave : Slave
  rqst : KVMessage

namespace Network

variable {config : CacheConfig} {Slave : Type}

def initial : Network config Slave := ⟨fun _ => SlaveState.initial, fun _ => none, 0⟩

open Function (update update_of_ne update_self)

/-- `connectHost` and `sendMessage`, which need a running slave; the request
may still fail to arrive. -/
def send [DecidableEq Slave] (net : Network config Slave) (slave : Slave) (rqst : KVMessage)
    (arrives : Bool) : Option (Network config Slave) :=
  match (net.slaves slave).addJob ⟨net.nextConn, rqst⟩ with
  | none => none
  | some after =>
    some { net with
      slaves := if arrives then update net.slaves slave after else net.slaves
      nextConn := net.nextConn + 1 }

/-- A step of one slave; its reply waits on the connection. -/
def slaveStep [DecidableEq Slave] (net : Network config Slave) (slave : Slave)
    (action : SlaveAction) : Option (Network config Slave) :=
  match (net.slaves slave).step action with
  | none => none
  | some (none, after) => some { net with slaves := update net.slaves slave after }
  | some (some reply, after) =>
    some { net with
      slaves := update net.slaves slave after
      replies := update net.replies reply.conn (some reply.rqst) }

/-- The order of connections, whatever the master waits for. -/
structure Ordered (net : Network config Slave) : Prop where
  valid : ∀ slave, (net.slaves slave).Valid
  fresh : ∀ slave task, task ∈ (net.slaves slave).unfinished -> task.conn < net.nextConn
  freshReplies : ∀ conn resp, net.replies conn = some resp -> conn < net.nextConn
  fifo : ∀ slave, (net.slaves slave).queue.Pairwise (fun a b => a.conn < b.conn)

/-- Requests on the connection of `awaited` are this request to this slave. -/
structure Opened (net : Network config Slave) (awaited : Awaited Slave) : Prop where
  conn_lt : awaited.conn < net.nextConn
  home : ∀ slave task, task ∈ (net.slaves slave).unfinished ->
    task.conn = awaited.conn -> slave = awaited.slave ∧ task.rqst = awaited.rqst

/-- The master waits for the reply to a request of two-phase commit. -/
structure Awaits (net : Network config Slave) (awaited : Awaited Slave) : Prop
    extends Opened net awaited where
  notGet : awaited.rqst.msgType ≠ .getReq
  latest : ∀ task, task ∈ (net.slaves awaited.slave).queue -> task.conn <= awaited.conn
  reply : ∀ resp, net.replies awaited.conn = some resp ->
    (net.slaves awaited.slave).queue = [] ∧
      SlaveState.Answered config (net.slaves awaited.slave).disk awaited.rqst resp

/-- All slaves stand as the master believes, with `stores` what they held
before the current request. -/
structure Consistent (net : Network config Slave) (awaited : Option (Awaited Slave))
    (stores : Slave -> Store) (standing : Slave -> Standing) : Prop where
  ordered : net.Ordered
  awaits : ∀ waiting, awaited = some waiting -> net.Awaits waiting
  meets : ∀ slave, (net.slaves slave).Meets (stores slave) (standing slave)

theorem consistent_initial :
    (initial : Network config Slave).Consistent none (fun _ => Store.empty) (fun _ => .quiet) where
  ordered :=
    { valid := fun _ => SlaveState.valid_initial
      fresh := fun _ _ impossible => by cases impossible
      freshReplies := fun _ _ impossible => by cases impossible
      fifo := fun _ => List.Pairwise.nil }
  awaits := nofun
  meets := fun _ => ⟨rfl, Sound.nil⟩

/-! ## Steps of a slave -/

section

variable {net next : Network config Slave} {slave : Slave} {action : SlaveAction}

/-- Everything a step of a slave does to the network. -/
structure SlaveStepFacts (net next : Network config Slave) (slave : Slave) : Prop where
  sameConn : next.nextConn = net.nextConn
  facts : SlaveState.StepFacts (net.slaves slave) (next.slaves slave)
  others : ∀ other, other ≠ slave -> next.slaves other = net.slaves other
  replies : ∀ conn resp, next.replies conn = some resp -> net.replies conn = some resp ∨
    ∃ rqst, SlaveState.Replies (net.slaves slave) (next.slaves slave) rqst ⟨conn, resp⟩

theorem slaveStep_facts [DecidableEq Slave] (valid : (net.slaves slave).Valid)
    (stepped : net.slaveStep slave action = some next) : SlaveStepFacts net next slave := by
  unfold slaveStep at stepped
  cases stepLocal : (net.slaves slave).step action with
  | none => rw [stepLocal] at stepped; cases stepped
  | some result =>
    rcases result with ⟨reply, after⟩
    have facts := SlaveState.step_facts valid stepLocal
    rw [stepLocal] at stepped
    cases reply with
    | none =>
      cases stepped
      refine ⟨rfl, ?_, fun other different => update_of_ne different _ _, ?_⟩
      · simpa only [update_self] using facts.1
      · exact fun _ _ same => .inl same
    | some sent =>
      cases stepped
      refine ⟨rfl, ?_, fun other different => update_of_ne different _ _, ?_⟩
      · simpa only [update_self] using facts.1
      · intro conn resp found
        by_cases same : conn = sent.conn
        · subst same
          simp only [update_self, Option.some.injEq] at found
          subst found
          rcases facts.2 sent rfl with ⟨rqst, replied⟩
          exact .inr ⟨rqst, by simpa only [update_self] using replied⟩
        · simp only [update_of_ne same] at found
          exact .inl found

section

variable (facts : SlaveStepFacts net next slave)

include facts

theorem SlaveStepFacts.unfinished (other : Slave) :
    (next.slaves other).unfinished.Sublist (net.slaves other).unfinished := by
  by_cases same : other = slave
  · subst same
    exact facts.facts.unfinished
  · rw [facts.others other same]

theorem SlaveStepFacts.queue (other : Slave) :
    (next.slaves other).queue.Sublist (net.slaves other).queue :=
  (facts.unfinished other).filter _

theorem SlaveStepFacts.ordered (ordered : net.Ordered) : next.Ordered where
  valid := by
    intro other
    by_cases same : other = slave
    · subst same
      exact facts.facts.valid
    · rw [facts.others other same]
      exact ordered.valid other
  fresh := by
    intro other task member
    rw [facts.sameConn]
    exact ordered.fresh other task ((facts.unfinished other).subset member)
  freshReplies := by
    intro conn resp found
    rw [facts.sameConn]
    rcases facts.replies conn resp found with old | ⟨rqst, replied⟩
    · exact ordered.freshReplies conn resp old
    · refine ordered.fresh slave ⟨conn, rqst⟩ ?_
      rw [replied.oldest]
      exact mem_cons_self
  fifo := fun other => (ordered.fifo other).sublist (facts.queue other)

end

variable {awaited : Awaited Slave}

theorem SlaveStepFacts.opened (facts : SlaveStepFacts net next slave)
    (opened : net.Opened awaited) : next.Opened awaited where
  conn_lt := by
    rw [facts.sameConn]
    exact opened.conn_lt
  home := fun other task member =>
    opened.home other task ((facts.unfinished other).subset member)

/-- When the awaited reply is sent, no request of two-phase commit is left. -/
theorem SlaveStepFacts.last_reply (facts : SlaveStepFacts net next slave) (ordered : net.Ordered)
    (awaits : net.Awaits awaited) {rqst resp : KVMessage}
    (replied : SlaveState.Replies (net.slaves slave) (next.slaves slave) rqst
      ⟨awaited.conn, resp⟩) :
    slave = awaited.slave ∧ rqst = awaited.rqst ∧ (next.slaves slave).queue = [] := by
  have member : (⟨awaited.conn, rqst⟩ : Task) ∈ (net.slaves slave).unfinished := by
    rw [replied.oldest]
    exact mem_cons_self
  rcases awaits.home slave _ member rfl with ⟨sameSlave, sameRqst⟩
  refine ⟨sameSlave, sameRqst, ?_⟩
  have fifo := ordered.fifo slave
  have notGet : rqst.msgType ≠ .getReq := by
    change rqst = awaited.rqst at sameRqst
    rw [sameRqst]
    exact awaits.notGet
  have split : (net.slaves slave).queue =
      ⟨awaited.conn, rqst⟩ :: (next.slaves slave).queue := by
    simp only [SlaveState.queue, replied.oldest]
    exact filter_cons_of_pos (by simpa using notGet)
  rw [split, pairwise_cons] at fifo
  rw [eq_nil_iff_forall_not_mem]
  intro task later
  have newer := fifo.1 task later
  have older := awaits.latest task (sameSlave ▸ (facts.queue slave).subset later)
  exact absurd newer (Nat.not_lt.mpr older)

theorem SlaveStepFacts.awaits (facts : SlaveStepFacts net next slave) (ordered : net.Ordered)
    (awaits : net.Awaits awaited) : next.Awaits awaited where
  toOpened := facts.opened awaits.toOpened
  notGet := awaits.notGet
  latest := fun task member => awaits.latest task ((facts.queue awaited.slave).subset member)
  reply := by
    intro resp found
    rcases facts.replies awaited.conn resp found with old | ⟨rqst, replied⟩
    · have before := awaits.reply resp old
      by_cases same : awaited.slave = slave
      · subst same
        have kept := facts.facts.of_quiet before.1
        exact ⟨kept.1, kept.2 ▸ before.2⟩
      · rw [facts.others awaited.slave same]
        exact before
    · rcases facts.last_reply ordered awaits replied with ⟨sameSlave, sameRqst, empty⟩
      subst sameSlave sameRqst
      exact ⟨empty, replied.answered⟩

theorem SlaveStepFacts.meets (facts : SlaveStepFacts net next slave) {other : Slave}
    {store : Store} {standing : Standing} (meets : (net.slaves other).Meets store standing) :
    (next.slaves other).Meets store standing := by
  by_cases same : other = slave
  · subst same
    exact facts.facts.meets meets
  · rw [facts.others other same]
    exact meets

theorem SlaveStepFacts.consistent (facts : SlaveStepFacts net next slave)
    {awaited : Option (Awaited Slave)} {stores : Slave -> Store} {standing : Slave -> Standing}
    (consistent : net.Consistent awaited stores standing) :
    next.Consistent awaited stores standing where
  ordered := facts.ordered consistent.ordered
  awaits := fun waiting same => facts.awaits consistent.ordered (consistent.awaits waiting same)
  meets := fun other => facts.meets (consistent.meets other)

end

/-! ## Sending -/

section

variable {net next : Network config Slave} {slave : Slave} {rqst : KVMessage} {arrives : Bool}

/-- What sending does to the network: the request joins the slave's jobs, or
is lost. -/
structure SendFacts (net next : Network config Slave) (slave : Slave) (rqst : KVMessage) :
    Prop where
  sameReplies : next.replies = net.replies
  nextConn : next.nextConn = net.nextConn + 1
  others : ∀ other, other ≠ slave -> next.slaves other = net.slaves other
  arrival : next.slaves slave = net.slaves slave ∨
    (net.slaves slave).addJob ⟨net.nextConn, rqst⟩ = some (next.slaves slave)

theorem send_facts [DecidableEq Slave] (sent : net.send slave rqst arrives = some next) :
    SendFacts net next slave rqst := by
  unfold send at sent
  cases added : (net.slaves slave).addJob ⟨net.nextConn, rqst⟩ with
  | none => rw [added] at sent; cases sent
  | some after =>
    rw [added] at sent
    cases sent
    cases arrives with
    | false => exact ⟨rfl, rfl, fun _ _ => rfl, .inl rfl⟩
    | true =>
      refine ⟨rfl, rfl, fun other different => update_of_ne different _ _, ?_⟩
      exact .inr (by simpa only [if_true, update_self] using added)

section

variable (facts : SendFacts net next slave rqst)

include facts

theorem SendFacts.unfinished {other : Slave} {task : Task}
    (member : task ∈ (next.slaves other).unfinished) :
    task ∈ (net.slaves other).unfinished ∨ (other = slave ∧ task = ⟨net.nextConn, rqst⟩) := by
  by_cases same : other = slave
  · subst same
    rcases facts.arrival with lost | added
    · rw [lost] at member
      exact .inl member
    · rw [(SlaveState.addJob_facts added).2.1, mem_append, mem_singleton] at member
      exact member.imp_right (fun new => ⟨rfl, new⟩)
  · rw [facts.others other same] at member
    exact .inl member

theorem SendFacts.disk (other : Slave) : (next.slaves other).disk = (net.slaves other).disk := by
  by_cases same : other = slave
  · subst same
    rcases facts.arrival with lost | added
    · rw [lost]
    · exact (SlaveState.addJob_facts added).2.2.1
  · rw [facts.others other same]

theorem SendFacts.ordered (ordered : net.Ordered) : next.Ordered where
  valid := by
    intro other
    by_cases same : other = slave
    · subst same
      rcases facts.arrival with lost | added
      · rw [lost]
        exact ordered.valid other
      · exact (SlaveState.addJob_facts added).1.mpr (ordered.valid other)
    · rw [facts.others other same]
      exact ordered.valid other
  fresh := by
    intro other task member
    rw [facts.nextConn]
    rcases facts.unfinished member with old | ⟨_, new⟩
    · exact Nat.lt_succ_of_lt (ordered.fresh other task old)
    · rw [new]
      exact Nat.lt_succ_self _
  freshReplies := by
    intro conn resp found
    rw [facts.nextConn]
    rw [facts.sameReplies] at found
    exact Nat.lt_succ_of_lt (ordered.freshReplies conn resp found)
  fifo := by
    intro other
    by_cases same : other = slave
    · subst same
      rcases facts.arrival with lost | added
      · rw [lost]
        exact ordered.fifo other
      · rw [SlaveState.queue_addJob added]
        refine List.pairwise_append.mpr ⟨ordered.fifo other, ?_, ?_⟩
        · split
          · exact pairwise_singleton _ _
          · exact List.Pairwise.nil
        · intro task old new newMember
          have sameTask : new = ⟨net.nextConn, rqst⟩ := by
            split at newMember
            · exact List.mem_singleton.mp newMember
            · cases newMember
          rw [sameTask]
          exact ordered.fresh other task (SlaveState.mem_queue.mp old).1
    · rw [facts.others other same]
      exact ordered.fifo other

/-- Connections opened earlier are not touched. -/
theorem SendFacts.opened {awaited : Awaited Slave} (opened : net.Opened awaited) :
    next.Opened awaited where
  conn_lt := by
    rw [facts.nextConn]
    exact Nat.lt_succ_of_lt opened.conn_lt
  home := by
    intro other task member sameConn
    rcases facts.unfinished member with old | ⟨_, new⟩
    · exact opened.home other task old sameConn
    · rw [new] at sameConn
      exact absurd sameConn (Nat.ne_of_gt opened.conn_lt)

/-- The new connection carries the sent request and has no reply yet. -/
theorem SendFacts.opened_new (ordered : net.Ordered) :
    next.Opened ⟨net.nextConn, slave, rqst⟩ ∧ next.replies net.nextConn = none := by
  refine ⟨⟨?_, ?_⟩, ?_⟩
  · rw [facts.nextConn]
    exact Nat.lt_succ_self _
  · intro other task member sameConn
    rcases facts.unfinished member with old | ⟨sameSlave, new⟩
    · exact absurd sameConn (Nat.ne_of_lt (ordered.fresh other task old))
    · exact ⟨sameSlave, by rw [new]⟩
  · rw [facts.sameReplies]
    cases found : net.replies net.nextConn with
    | none => rfl
    | some resp => exact absurd (ordered.freshReplies _ resp found) (Nat.lt_irrefl _)

end

variable {standing : Slave -> Standing} {stores : Slave -> Store}

/-- The master sends a request of two-phase commit and waits for its reply. -/
theorem SendFacts.consistent (facts : SendFacts net next slave rqst)
    (consistent : net.Consistent none stores standing) (notGet : rqst.msgType ≠ .getReq)
    (allowed : (standing slave).Allows rqst) :
    next.Consistent (some ⟨net.nextConn, slave, rqst⟩) stores standing where
  ordered := facts.ordered consistent.ordered
  awaits := by
    rintro waiting ⟨rfl⟩
    have opened := facts.opened_new consistent.ordered
    refine ⟨opened.1, notGet, ?_, ?_⟩
    · intro task member
      rcases facts.unfinished (SlaveState.mem_queue.mp member).1 with old | ⟨_, new⟩
      · exact Nat.le_of_lt (consistent.ordered.fresh slave task old)
      · rw [new]
    · intro resp found
      rw [opened.2] at found
      cases found
  meets := by
    intro other
    by_cases same : other = slave
    · subst same
      rcases facts.arrival with lost | added
      · rw [lost]
        exact consistent.meets other
      · exact SlaveState.meets_addJob added allowed (consistent.meets other)
    · rw [facts.others other same]
      exact consistent.meets other

/-- A GET on a new connection changes nothing the master relies on. -/
theorem SendFacts.consistent_get (facts : SendFacts net next slave rqst)
    {awaited : Option (Awaited Slave)} (consistent : net.Consistent awaited stores standing)
    (isGet : rqst.msgType = .getReq) : next.Consistent awaited stores standing := by
  have sameQueue : ∀ other, (next.slaves other).queue = (net.slaves other).queue := by
    intro other
    by_cases same : other = slave
    · subst same
      rcases facts.arrival with lost | added
      · rw [lost]
      · rw [SlaveState.queue_addJob added, if_neg (not_not.mpr isGet), append_nil]
    · rw [facts.others other same]
  refine ⟨facts.ordered consistent.ordered, ?_, ?_⟩
  · intro waiting same
    have before := consistent.awaits waiting same
    refine ⟨facts.opened before.toOpened, before.notGet, ?_, ?_⟩
    · rw [sameQueue]
      exact before.latest
    · rw [sameQueue, facts.disk, facts.sameReplies]
      exact before.reply
  · intro other
    exact (SlaveState.meets_congr (sameQueue other) (facts.disk other)).mpr
      (consistent.meets other)

end

/-! ## What the master learns -/

section

variable {net : Network config Slave} {awaited : Option (Awaited Slave)} {waiting : Awaited Slave}
  {resp : KVMessage} {stores : Slave -> Store} {standing : Slave -> Standing}

/-- The master stops waiting, and may believe less than before. -/
theorem Consistent.restand (consistent : net.Consistent awaited stores standing)
    {stores' : Slave -> Store} {standing' : Slave -> Standing}
    (weaker : ∀ slave, (net.slaves slave).Meets (stores slave) (standing slave) ->
      (net.slaves slave).Meets (stores' slave) (standing' slave)) :
    net.Consistent none stores' standing' :=
  ⟨consistent.ordered, nofun, fun slave => weaker slave (consistent.meets slave)⟩

section

variable (consistent : net.Consistent (some waiting) stores standing)

include consistent

/-- A slave that answered a vote request with READY waits for the decision. -/
theorem Consistent.voted (undecided : standing waiting.slave = .undecided)
    (found : net.replies waiting.conn = some resp) (isReady : resp.msgType = .ready) :
    (net.slaves waiting.slave).Meets (stores waiting.slave) (.ready waiting.rqst) := by
  rcases (consistent.awaits waiting rfl).reply resp found with ⟨empty, answered⟩
  have meets := consistent.meets waiting.slave
  rw [undecided] at meets
  exact ⟨empty, answered.vote isReady, meets.2⟩

/-- A slave that answered ABORT has nothing under way. -/
theorem Consistent.aborted (undecided : standing waiting.slave = .undecided)
    (found : net.replies waiting.conn = some resp) :
    (net.slaves waiting.slave).Meets (stores waiting.slave) .quiet := by
  have meets := consistent.meets waiting.slave
  rw [undecided] at meets
  exact ⟨((consistent.awaits waiting rfl).reply resp found).1, meets.2⟩

/-- A slave that answered COMMIT acknowledged it and has carried out the request. -/
theorem Consistent.committed {exec : KVMessage}
    (committing : standing waiting.slave = .committing exec)
    (isCommit : waiting.rqst.msgType = .commit) (found : net.replies waiting.conn = some resp) :
    resp.msgType = .ack ∧
      (net.slaves waiting.slave).Meets (stores waiting.slave) (.committed exec) := by
  rcases (consistent.awaits waiting rfl).reply resp found with ⟨empty, answered⟩
  rcases answered.decision (.inl isCommit) with ⟨isAck, decided⟩
  have meets := consistent.meets waiting.slave
  rw [committing] at meets
  rcases meets.2 with ⟨waits, _⟩ | done
  · rw [decided] at waits
    cases waits
  · refine ⟨isAck, empty, done, ?_⟩
    rcases answered.sound with ⟨store, sound⟩
    by_contra outOfRange
    exact Broken.not_sound ⟨exec, done, outOfRange⟩ sound

end

end

end Network

end KVStore
end Codebank
