import Codebank.KVStore.Master

namespace Codebank
namespace KVStore

open Foundation List

/-!
# Two-phase commit is atomic

Abstractly, the system is one map: a request that commits has its effect on it,
and nothing else changes it.  Concretely, every slave holds the part of the map
that the ring assigns to it, between two requests exactly, and during a request
as far as its standing says.  `Agrees` states this, every step keeps it, and the
properties of `handleTPCRequest` are read off.
-/

variable {cluster : Cluster}

/-- The part of the map `spec` that `slave` is to hold. -/
def held (cluster : Cluster) (spec : Store) (slave : cluster.ring.Slave) : Store :=
  fun key => if slave ∈ cluster.ring.slaves key then spec key else none

/-- The map after an event. -/
def record (spec : Store) : Option Event -> Store
  | some (.returned request) => request.msg.effect spec
  | some (.flushFailed request _) => request.msg.effect spec
  | _ => spec

/-- The map after a sequence of events. -/
def history (events : List (Option Event)) : Store :=
  events.foldl record Store.empty

@[simp] theorem history_append_single (events : List (Option Event)) (event : Option Event) :
    history (events ++ [event]) = record (history events) event := by
  simp [history]

/-! ## A request and its effect -/

/-- A `put` carries the new value, and a `del` carries none. -/
theorem TPCRequest.effect_key (request : TPCRequest) (store : Store) :
    request.msg.effect store request.key = request.msg.value := by
  rcases request.cases.2 with ⟨isPut, value, sameValue⟩ | ⟨isDel, noValue⟩
  · simp only [KVMessage.effect, isPut, request.sameKey, sameValue, Store.put,
      Function.update_self]
  · simp only [KVMessage.effect, isDel, request.sameKey, noValue, Function.update_self]

theorem TPCRequest.effect_of_ne (request : TPCRequest) (store : Store) {key : JString}
    (different : key ≠ request.key) : request.msg.effect store key = store key := by
  apply KVStore.effect_of_ne
  rw [request.sameKey]
  intro same
  exact different (Option.some.inj same).symm

variable {slave : cluster.ring.Slave}

theorem held_effect_of_mem (request : TPCRequest) (spec : Store)
    (member : slave ∈ cluster.ring.slaves request.key) :
    held cluster (request.msg.effect spec) slave =
      request.msg.effect (held cluster spec slave) := by
  funext key
  by_cases same : key = request.key
  · subst same
    rw [held, if_pos member, request.effect_key, request.effect_key]
  · rw [held, request.effect_of_ne _ same, request.effect_of_ne _ same, held]

theorem held_effect_of_not_mem (request : TPCRequest) (spec : Store)
    (other : slave ∉ cluster.ring.slaves request.key) :
    held cluster (request.msg.effect spec) slave = held cluster spec slave := by
  funext key
  by_cases same : key = request.key
  · subst same
    rw [held, held, if_neg other, if_neg other]
  · rw [held, held, request.effect_of_ne _ same]

/-! ## What the master believes about the slaves -/

namespace MasterPc

/-- Before the decision: who has answered READY so far. -/
def voteStanding (request : TPCRequest) (votes : Votes) (index : Nat)
    (slave : cluster.ring.Slave) : Standing :=
  if slave ∈ (cluster.ring.slaves request.key).take index ∧ votes.globalAbort = false then
    .ready request.msg
  else if slave ∈ cluster.ring.slaves request.key then .undecided
  else .quiet

/-- After the decision: who has acknowledged it so far. -/
def decisionStanding (request : TPCRequest) (votes : Votes) (index : Nat)
    (slave : cluster.ring.Slave) : Standing :=
  if slave ∉ cluster.ring.slaves request.key then .quiet
  else if votes.globalAbort then
    if slave ∈ (cluster.ring.slaves request.key).drop index then .undecided else .quiet
  else
    if slave ∈ (cluster.ring.slaves request.key).drop index then .committing request.msg
    else .committed request.msg

def standing (pc : MasterPc cluster) (slave : cluster.ring.Slave) : Standing :=
  match pc with
  | .idle => .quiet
  | .phase1 request votes index => voteStanding request votes index slave
  | .waitVote request votes index currSlave _ =>
    if slave = currSlave then .undecided else voteStanding request votes index slave
  | .phase2 request votes index _ sent =>
    if sent = true ∨ votes.globalAbort = true then decisionStanding request votes index slave
    else if slave ∈ cluster.ring.slaves request.key then .ready request.msg
    else .quiet
  | .waitAck request votes index _ _ _ => decisionStanding request votes index slave
  | .lock request _ | .flush request _ =>
    if slave ∈ cluster.ring.slaves request.key then .committed request.msg else .quiet

def awaited : MasterPc cluster -> Option (Awaited cluster.ring.Slave)
  | .waitVote request _ _ currSlave conn => some ⟨conn, currSlave, request.msg⟩
  | .waitAck _ votes _ _ currSlave conn => some ⟨conn, currSlave, votes.phase2Msg⟩
  | _ => none

/-- What the local variables of the call satisfy. -/
def Facts : MasterPc cluster -> Prop
  | .waitVote request _ index currSlave _ =>
    (cluster.ring.slaves request.key)[index]? = some currSlave
  | .phase2 _ votes index invalidFormat sent =>
    (votes.globalAbort = false -> invalidFormat = false) ∧ (sent = false -> index = 0)
  | .waitAck request votes index invalidFormat currSlave _ =>
    (cluster.ring.slaves request.key)[index]? = some currSlave ∧
      (votes.globalAbort = false -> invalidFormat = false)
  | _ => True

end MasterPc

/-- The slaves hold their parts of the map `spec`, up to the current request. -/
structure Agrees (spec : Store) (state : State cluster) : Prop where
  facts : state.master.Facts
  consistent : state.net.Consistent state.master.awaited (held cluster spec)
    state.master.standing

theorem agrees_initial : Agrees Store.empty (State.initial : State cluster) where
  facts := trivial
  consistent := by
    have empty : held cluster Store.empty = fun _ => Store.empty := by
      funext slave key
      rw [held]
      split <;> rfl
    rw [empty]
    exact Network.consistent_initial

/-! ## The call, step by step -/

section

variable {state : State cluster} {spec : Store} {request : TPCRequest} {votes : Votes}
  {invalidFormat sent : Bool} {conn : Nat} {slaves : List cluster.ring.Slave} {config : CacheConfig}
  {store : Store} {net : Network cluster.slaveCache cluster.ring.Slave} {index : Nat}
  {slave : cluster.ring.Slave}

theorem drop_of_current (current : slaves[index]? = some slave) :
    slaves.drop index = slave :: slaves.drop (index + 1) := by
  rcases List.getElem?_eq_some_iff.mp current with ⟨inside, same⟩
  rw [drop_eq_getElem_cons inside, same]

theorem mem_of_current (current : slaves[index]? = some slave) : slave ∈ slaves :=
  mem_of_getElem? current

variable {other : cluster.ring.Slave}

theorem take_of_current (current : slaves[index]? = some slave) :
    other ∈ slaves.take (index + 1) <-> other ∈ slaves.take index ∨ other = slave := by
  rw [take_add_one, current, mem_append]
  simp

variable {state' : SlaveState config}

/-- Whatever the votes, a slave in phase 1 stands at least as without them. -/
theorem SlaveState.Meets.of_vote
    (meets : state'.Meets store (MasterPc.voteStanding request votes index slave)) :
    (slave ∈ cluster.ring.slaves request.key -> state'.Meets store .undecided) ∧
      (slave ∉ cluster.ring.slaves request.key -> state'.Meets store .quiet) := by
  unfold MasterPc.voteStanding at meets
  by_cases ready : slave ∈ (cluster.ring.slaves request.key).take index ∧
      votes.globalAbort = false
  · rw [if_pos ready] at meets
    refine ⟨fun _ => meets.quiet_of_ready.undecided_of_quiet, ?_⟩
    intro other
    exact False.elim (other (mem_of_mem_take ready.1))
  · rw [if_neg ready] at meets
    by_cases member : slave ∈ cluster.ring.slaves request.key
    · rw [if_pos member] at meets
      exact ⟨fun _ => meets, fun other => False.elim (other member)⟩
    · rw [if_neg member] at meets
      exact ⟨fun inside => False.elim (member inside), fun _ => meets⟩

theorem voteStanding_of_abort (text : Option String) :
    MasterPc.voteStanding request ⟨true, text⟩ index slave =
      if slave ∈ cluster.ring.slaves request.key then .undecided else .quiet := by
  simp [MasterPc.voteStanding]

/-- One vote against the request: nothing is relied on any more. -/
theorem SlaveState.Meets.refused (text : Option String)
    (inside : slave ∈ cluster.ring.slaves request.key -> state'.Meets store .undecided)
    (outside : slave ∉ cluster.ring.slaves request.key -> state'.Meets store .quiet) :
    state'.Meets store (MasterPc.voteStanding request ⟨true, text⟩ index slave) := by
  rw [voteStanding_of_abort]
  by_cases member : slave ∈ cluster.ring.slaves request.key
  · rw [if_pos member]
    exact inside member
  · rw [if_neg member]
    exact outside member

section

variable (agrees : Agrees spec state)

include agrees

theorem Agrees.begun (idle : state.master = .idle) :
    Agrees spec { state with master := .phase1 request Votes.initial 0 } := by
  refine ⟨trivial, agrees.consistent.restand ?_⟩
  intro other meets
  rw [idle] at meets
  change _ at meets
  simp only [MasterPc.standing, MasterPc.voteStanding, take_zero, not_mem_nil,
    false_and, if_false] at meets ⊢
  by_cases member : other ∈ cluster.ring.slaves request.key
  · rw [if_pos member]
    exact meets.undecided_of_quiet
  · rw [if_neg member]
    exact meets

theorem Agrees.askVote (here : state.master = .phase1 request votes index)
    (current : (cluster.ring.slaves request.key)[index]? = some slave)
    (sent : Network.SendFacts state.net net slave request.msg) :
    Agrees spec { state with
      net := net
      master := .waitVote request votes index slave state.net.nextConn } := by
  have consistent := agrees.consistent
  rw [here] at consistent
  have isAction : request.msg.msgType ≠ .getReq ∧ request.msg.msgType ≠ .commit := by
    rcases request.cases.2 with ⟨isPut, _⟩ | ⟨isDel, _⟩
    · rw [isPut]; exact ⟨nofun, nofun⟩
    · rw [isDel]; exact ⟨nofun, nofun⟩
  refine ⟨current, sent.consistent (consistent.restand ?_) isAction.1 ?_⟩
  · intro other meets
    by_cases same : other = slave
    · subst same
      simp only [MasterPc.standing, if_true]
      exact meets.of_vote.1 (mem_of_current current)
    · simp only [MasterPc.standing, if_neg same]
      exact meets
  · simp only [MasterPc.standing, if_true]
    exact isAction.2

theorem Agrees.noConnection (text : Option String)
    (here : state.master = .phase1 request votes index) :
    Agrees spec { state with master := .phase1 request ⟨true, text⟩ (index + 1) } := by
  refine ⟨trivial, agrees.consistent.restand ?_⟩
  intro other meets
  rw [here] at meets
  exact SlaveState.Meets.refused text meets.of_vote.1 meets.of_vote.2

/-- What the slaves that are not waited for stand for. -/
theorem Agrees.others (here : state.master = .waitVote request votes index slave conn)
    (different : other ≠ slave) :
    (state.net.slaves other).Meets (held cluster spec other)
      (MasterPc.voteStanding request votes index other) := by
  have meets := agrees.consistent.meets other
  rw [here] at meets
  simpa only [MasterPc.standing, if_neg different] using meets

theorem Agrees.current (here : state.master = .waitVote request votes index slave conn) :
    (state.net.slaves slave).Meets (held cluster spec slave) .undecided ∧
      (cluster.ring.slaves request.key)[index]? = some slave := by
  have meets := agrees.consistent.meets slave
  have facts := agrees.facts
  rw [here] at meets facts
  exact ⟨by simpa only [MasterPc.standing, if_true] using meets, facts⟩

theorem Agrees.noVote (text : Option String)
    (here : state.master = .waitVote request votes index slave conn) :
    Agrees spec { state with master := .phase1 request ⟨true, text⟩ (index + 1) } := by
  refine ⟨trivial, agrees.consistent.restand ?_⟩
  intro other _
  rcases agrees.current here with ⟨undecided, current⟩
  by_cases same : other = slave
  · subst same
    exact SlaveState.Meets.refused text (fun _ => undecided)
      (fun outside => False.elim (outside (mem_of_current current)))
  · have meets := agrees.others here same
    exact SlaveState.Meets.refused text meets.of_vote.1 meets.of_vote.2

end

variable {resp : KVMessage}

theorem Agrees.vote (agrees : Agrees spec state)
    (here : state.master = .waitVote request votes index slave conn)
    (found : state.net.replies conn = some resp) :
    Agrees spec { state with master := .phase1 request (votes.count resp) (index + 1) } := by
  by_cases isReady : resp.msgType = .ready
  · rcases agrees.current here with ⟨_, current⟩
    have consistent := agrees.consistent
    rw [here] at consistent
    have voted := consistent.voted (by simp only [MasterPc.standing, if_true]) found isReady
    refine ⟨trivial, agrees.consistent.restand ?_⟩
    intro other _
    rw [Votes.count, if_pos isReady]
    simp only [MasterPc.standing, MasterPc.voteStanding, take_of_current current]
    by_cases same : other = slave
    · subst same
      by_cases agreed : votes.globalAbort = false
      · rw [if_pos ⟨.inr rfl, agreed⟩]
        exact voted
      · rw [if_neg (fun both => agreed both.2), if_pos (mem_of_current current)]
        exact voted.quiet_of_ready.undecided_of_quiet
    · have meets := agrees.others here same
      simp only [MasterPc.voteStanding] at meets
      simpa only [or_iff_left same] using meets
  · rw [Votes.count, if_neg isReady]
    exact agrees.noVote resp.message here

theorem Agrees.decided (agrees : Agrees spec state)
    (here : state.master = .phase1 request votes index)
    (finished : (cluster.ring.slaves request.key).length <= index) :
    Agrees spec { state with master := .phase2 request votes 0 false false } := by
  refine ⟨⟨fun _ => rfl, fun _ => rfl⟩, agrees.consistent.restand ?_⟩
  intro other meets
  rw [here] at meets
  simp only [MasterPc.standing, MasterPc.voteStanding, MasterPc.decisionStanding,
    take_of_length_le finished, drop_zero] at meets ⊢
  by_cases member : other ∈ cluster.ring.slaves request.key
  · cases agreed : votes.globalAbort <;> simpa [member, agreed] using meets
  · simpa [member] using meets

/-- The standing of the slaves while the decision is sent around. -/
theorem Agrees.deciding (agrees : Agrees spec state)
    (here : state.master = .phase2 request votes index invalidFormat sent)
    (other : cluster.ring.Slave) :
    (state.net.slaves other).Meets (held cluster spec other)
      (MasterPc.decisionStanding request votes index other) := by
  have meets := agrees.consistent.meets other
  have facts := agrees.facts
  rw [here] at meets facts
  by_cases known : sent = true ∨ votes.globalAbort = true
  · simpa only [MasterPc.standing, if_pos known] using meets
  · have agreed : votes.globalAbort = false := by
      simpa using fun abort => known (.inr abort)
    have atStart : index = 0 := facts.2 (by simpa using fun isSent => known (.inl isSent))
    simp only [MasterPc.standing, if_neg known] at meets
    simp only [MasterPc.decisionStanding, agreed, atStart, drop_zero]
    by_cases member : other ∈ cluster.ring.slaves request.key
    · simp only [if_pos member] at meets
      simpa [member] using meets.committing_of_ready
    · simpa [member] using meets

theorem decisionStanding_allows (current : (cluster.ring.slaves request.key)[index]? = some slave) :
    (MasterPc.decisionStanding request votes index slave).Allows votes.phase2Msg := by
  have inDrop : slave ∈ (cluster.ring.slaves request.key).drop index := by
    rw [drop_of_current current]
    exact mem_cons_self
  simp only [MasterPc.decisionStanding, not_not.mpr (mem_of_current current), if_false,
    if_pos inDrop]
  cases agreed : votes.globalAbort with
  | true | false => simp [Standing.Allows, Votes.phase2Msg, agreed]

theorem Agrees.sendDecision (agrees : Agrees spec state)
    (here : state.master = .phase2 request votes index invalidFormat sent)
    (current : (cluster.ring.slaves request.key)[index]? = some slave)
    (facts : Network.SendFacts state.net net slave votes.phase2Msg) :
    Agrees spec { state with
      net := net
      master := .waitAck request votes index invalidFormat slave state.net.nextConn } := by
  have locals := agrees.facts
  rw [here] at locals
  have notGet : votes.phase2Msg.msgType ≠ .getReq := by
    simp only [Votes.phase2Msg]
    split <;> nofun
  exact ⟨⟨current, locals.1⟩,
    facts.consistent (agrees.consistent.restand (fun other _ => agrees.deciding here other)) notGet
      (decisionStanding_allows current)⟩

theorem Agrees.noAck (agrees : Agrees spec state)
    (here : state.master = .waitAck request votes index invalidFormat slave conn) :
    Agrees spec { state with master := .phase2 request votes index invalidFormat true } := by
  have locals := agrees.facts
  rw [here] at locals
  refine ⟨⟨locals.2, nofun⟩, agrees.consistent.restand ?_⟩
  intro other meets
  rw [here] at meets
  simpa only [MasterPc.standing, true_or, if_true] using meets

/-- The loop of phase 2 goes on to the next slave. -/
theorem SlaveState.Meets.next_slave
    (current : (cluster.ring.slaves request.key)[index]? = some slave)
    (acked : other = slave -> if votes.globalAbort then state'.Meets store .quiet
      else state'.Meets store (.committed request.msg))
    (meets : state'.Meets store (MasterPc.decisionStanding request votes index other)) :
    state'.Meets store (MasterPc.decisionStanding request votes (index + 1) other) := by
  have split := drop_of_current current
  by_cases same : other = slave
  · subst same
    have done := acked rfl
    simp only [MasterPc.decisionStanding, not_not.mpr (mem_of_current current), if_false]
    by_cases again : other ∈ (cluster.ring.slaves request.key).drop (index + 1)
    · cases agreed : votes.globalAbort with
      | true =>
        simp only [agreed, if_true] at done
        simpa only [if_pos again, if_true] using done.undecided_of_quiet
      | false =>
        simp only [agreed, Bool.false_eq_true, if_false] at done
        simpa only [if_pos again, Bool.false_eq_true, if_false] using
          done.committing_of_committed
    · cases agreed : votes.globalAbort with
      | true =>
        simp only [agreed, if_true] at done
        simpa only [if_neg again, if_true] using done
      | false =>
        simp only [agreed, Bool.false_eq_true, if_false] at done
        simpa only [if_neg again, Bool.false_eq_true, if_false] using done
  · simpa only [MasterPc.decisionStanding, split, mem_cons, same, false_or] using meets

section

variable (agrees : Agrees spec state)

include agrees

theorem Agrees.acked (here : state.master = .waitAck request votes index invalidFormat slave conn)
    (found : state.net.replies conn = some resp) :
    Agrees spec { state with
      master := .phase2 request votes (index + 1)
        (invalidFormat || resp.msgType != .ack) true } := by
  have locals := agrees.facts
  have consistent := agrees.consistent
  rw [here] at locals consistent
  rcases locals with ⟨current, noInvalid⟩
  have inDrop : slave ∈ (cluster.ring.slaves request.key).drop index := by
    rw [drop_of_current current]
    exact mem_cons_self
  have member := mem_of_current current
  -- The reply to ABORT or COMMIT settles the slave that sent it.
  have settled : (votes.globalAbort = false -> resp.msgType = .ack) ∧
      if votes.globalAbort then (state.net.slaves slave).Meets (held cluster spec slave) .quiet
      else (state.net.slaves slave).Meets (held cluster spec slave) (.committed request.msg) := by
    cases agreed : votes.globalAbort with
    | true =>
      refine ⟨nofun, ?_⟩
      exact consistent.aborted
        (by simp [MasterPc.standing, MasterPc.decisionStanding, member, inDrop, agreed]) found
    | false =>
      have committed := consistent.committed
        (by simp [MasterPc.standing, MasterPc.decisionStanding, member, inDrop, agreed]; rfl)
        (by simp [Votes.phase2Msg, agreed]) found
      exact ⟨fun _ => committed.1, committed.2⟩
  refine ⟨⟨?_, nofun⟩, consistent.restand ?_⟩
  · intro agreed
    simp [noInvalid agreed, settled.1 agreed]
  · intro other meets
    simp only [MasterPc.standing, true_or, if_true] at meets ⊢
    refine SlaveState.Meets.next_slave current ?_ meets
    rintro rfl
    exact settled.2

section

variable (here : state.master = .phase2 request votes index invalidFormat sent)

include here

/-- Phase 2 is done: every slave has acknowledged the decision. -/
theorem Agrees.finished (finished : (cluster.ring.slaves request.key).length <= index)
    (other : cluster.ring.Slave) :
    (state.net.slaves other).Meets (held cluster spec other)
      (if other ∈ cluster.ring.slaves request.key ∧ votes.globalAbort = false then
        .committed request.msg else .quiet) := by
  have meets := agrees.deciding here other
  simp only [MasterPc.decisionStanding, drop_of_length_le finished, not_mem_nil,
    if_false] at meets
  by_cases member : other ∈ cluster.ring.slaves request.key
  · cases agreed : votes.globalAbort <;> simpa [member, agreed] using meets
  · simpa [member] using meets

theorem Agrees.threw (finished : (cluster.ring.slaves request.key).length <= index)
    (refused : votes.globalAbort = true ∨ invalidFormat = true) :
    votes.globalAbort = true ∧ Agrees spec { state with master := .idle } := by
  have locals := agrees.facts
  rw [here] at locals
  have aborted : votes.globalAbort = true := by
    cases agreed : votes.globalAbort with
    | true => rfl
    | false =>
      rw [agreed, locals.1 agreed] at refused
      rcases refused with impossible | impossible <;> cases impossible
  refine ⟨aborted, trivial, agrees.consistent.restand ?_⟩
  intro other _
  have meets := agrees.finished here finished other
  rw [if_neg (fun both => by rw [aborted] at both; cases both.2)] at meets
  exact meets

theorem Agrees.getLock {lock : Fin cluster.masterCache.numSets}
    (finished : (cluster.ring.slaves request.key).length <= index)
    (agreed : votes.globalAbort = false) :
    Agrees spec { state with master := .lock request lock } := by
  refine ⟨trivial, agrees.consistent.restand ?_⟩
  intro other _
  have meets := agrees.finished here finished other
  simp only [agreed, and_true] at meets
  exact meets

end

end

/-- With the request carried out everywhere, the map has its effect. -/
theorem consistent_of_committed (consistent : net.Consistent none (held cluster spec)
      (fun other => if other ∈ cluster.ring.slaves request.key then .committed request.msg
        else .quiet)) :
    net.Consistent none (held cluster (request.msg.effect spec)) (fun _ => .quiet) := by
  refine consistent.restand ?_
  intro other meets
  by_cases member : other ∈ cluster.ring.slaves request.key
  · rw [if_pos member] at meets
    rw [held_effect_of_mem request spec member]
    exact meets.quiet_of_committed
  · rw [if_neg member] at meets
    rw [held_effect_of_not_mem request spec member]
    exact meets

end

variable {state after : State cluster}

theorem State.flushCache_frame (state : State cluster) (request : TPCRequest)
    (lock : Fin cluster.masterCache.numSets) (spec : Store) :
    (state.flushCache request lock).2.net = state.net ∧
      (state.flushCache request lock).2.master = .idle ∧
      record spec (some (state.flushCache request lock).1) = request.msg.effect spec := by
  unfold State.flushCache
  split <;> exact ⟨rfl, rfl, rfl⟩

variable {spec : Store}

/-- Every step of the call keeps the slaves in agreement with the map. -/
theorem Agrees.callStep {event : Option Event} (agrees : Agrees spec state)
    (stepped : state.CallStep event after) : Agrees (record spec event) after := by
  cases stepped with
  | begun request idle => exact agrees.begun idle
  | askVote here current sent => exact agrees.askVote here current sent
  | noConnection text here inside => exact agrees.noConnection (some text) here
  | noVote text here => exact agrees.noVote (some text) here
  | vote here found => exact agrees.vote here found
  | decided here finished => exact agrees.decided here finished
  | sendDecision here current facts => exact agrees.sendDecision here current facts
  | rejected text idle | retryConnect => exact agrees
  | noAck here => exact agrees.noAck here
  | acked here found => exact agrees.acked here found
  | threw text here finished refused => exact (agrees.threw here finished refused).2
  | noLock here finished agreed outOfRange =>
    refine ⟨trivial, consistent_of_committed (agrees.consistent.restand ?_)⟩
    intro other _
    simpa only [agreed, and_true] using agrees.finished here finished other
  | getLock here finished agreed selected => exact agrees.getLock here finished agreed
  | @lock request _ here free =>
    have consistent := agrees.consistent
    rw [here] at consistent
    exact ⟨trivial, consistent⟩
  | @flush request lock here =>
    rcases state.flushCache_frame request lock spec with ⟨sameNet, idle, effect⟩
    have consistent := agrees.consistent
    rw [here] at consistent
    refine ⟨by rw [idle]; trivial, ?_⟩
    rw [sameNet, idle, effect]
    exact consistent_of_committed consistent

/-- A client does not touch the call, and sends nothing but GET. -/
theorem State.ClientStep.frame {client : Nat} {event : Option Event}
    (stepped : state.ClientStep client event after) (spec : Store) :
    after.master = state.master ∧ record spec event = spec ∧
      (after.net = state.net ∨
        ∃ slave key, Network.SendFacts state.net after.net slave (State.getMsg key)) := by
  cases stepped with
  | ask here sent => exact ⟨rfl, rfl, .inr ⟨_, _, sent⟩⟩
  | threw holding quiet =>
    refine ⟨rfl, ?_, .inl rfl⟩
    rcases quiet with ⟨text, rfl⟩ | ⟨fault, rfl, _⟩ <;> rfl
  | _ => exact ⟨rfl, rfl, .inl rfl⟩

theorem Agrees.step {event : Option Event} (agrees : Agrees spec state)
    (stepped : State.Step state event after) : Agrees (record spec event) after := by
  cases State.step_cases stepped with
  | call moved => exact agrees.callStep moved
  | slave moved =>
    have facts := Network.slaveStep_facts (agrees.consistent.ordered.valid _) moved
    exact ⟨agrees.facts, facts.consistent agrees.consistent⟩
  | client moved =>
    rcases moved.frame spec with ⟨sameMaster, sameSpec, net⟩
    rw [sameSpec]
    refine ⟨by rw [sameMaster]; exact agrees.facts, ?_⟩
    rw [sameMaster]
    rcases net with sameNet | ⟨slave, key, sent⟩
    · rw [sameNet]
      exact agrees.consistent
    · exact sent.consistent_get agrees.consistent rfl

variable {events : List (Option Event)}

/-- In every run, the slaves agree with the map of the requests that took effect. -/
theorem agrees_of_run (run : Run State.Step State.initial events state) :
    Agrees (history events) state := by
  induction run with
  | nil => exact agrees_initial
  | snoc _ last ih =>
    rw [history_append_single]
    exact ih.step last

/-! ## What the events of a run say about the current call -/

/-- The map, the map when the current call began, and whether the call has
decided to commit. -/
structure Trace where
  map : Store
  atBegin : Store
  committed : Bool

def Trace.record (trace : Trace) : Option Event -> Trace
  | some (.begun _) => { trace with atBegin := trace.map, committed := false }
  | some (.decided false) => { trace with committed := true }
  | event => { trace with map := KVStore.record trace.map event }

def trace (events : List (Option Event)) : Trace :=
  events.foldl Trace.record ⟨Store.empty, Store.empty, false⟩

@[simp] theorem trace_append_single (events : List (Option Event)) (event : Option Event) :
    trace (events ++ [event]) = (trace events).record event := by
  simp [trace]

theorem trace_map (events : List (Option Event)) : (trace events).map = history events := by
  induction events using List.reverseRecOn with
  | nil => rfl
  | append_singleton events event ih =>
    rw [trace_append_single, history_append_single, <- ih]
    unfold Trace.record
    split <;> rfl

theorem Trace.record_of_not_begun (trace : Trace) {event : Option Event}
    (notBegun : ∀ request, event ≠ some (.begun request)) :
    (trace.record event).atBegin = trace.atBegin ∧
      (trace.committed = true -> (trace.record event).committed = true) := by
  unfold Trace.record
  split
  · next request => exact False.elim (notBegun request rfl)
  · exact ⟨rfl, fun _ => rfl⟩
  · exact ⟨rfl, id⟩

/-- Until the next call begins, its beginning and its decision stay known. -/
theorem trace_during {before during : List (Option Event)}
    (noCall : ∀ request, some (Event.begun request) ∉ during) :
    (trace (before ++ during)).atBegin = (trace before).atBegin ∧
      ((trace before).committed = true -> (trace (before ++ during)).committed = true) := by
  induction during using List.reverseRecOn with
  | nil => simp
  | append_singleton during event ih =>
    have earlier := ih (fun request member => noCall request (mem_append_left _ member))
    have notBegun : ∀ request, event ≠ some (.begun request) := by
      rintro request rfl
      exact noCall request (mem_append_right _ mem_cons_self)
    have last := (trace (before ++ during)).record_of_not_begun notBegun
    rw [<- append_assoc, trace_append_single]
    exact ⟨last.1.trans earlier.1, fun committed => last.2 (earlier.2 committed)⟩

namespace MasterPc

/-- The request of the current call. -/
def request? : MasterPc cluster -> Option TPCRequest
  | .idle => none
  | .phase1 request _ _ | .waitVote request _ _ _ _ | .phase2 request _ _ _ _
  | .waitAck request _ _ _ _ _ | .lock request _ | .flush request _ => some request

/-- The current call has not decided to commit. -/
def NotCommitted : MasterPc cluster -> Prop
  | .phase1 _ _ _ | .waitVote _ _ _ _ _ => True
  | .phase2 _ votes _ _ _ | .waitAck _ votes _ _ _ _ => votes.globalAbort = true
  | _ => False

end MasterPc

/-- What the events say about the call the master is in. -/
structure CallFacts (events : List (Option Event)) (pc : MasterPc cluster) : Prop where
  begun : ∀ request, pc.request? = some request -> some (Event.begun request) ∈ events
  unchanged : pc.request? ≠ none -> (trace events).map = (trace events).atBegin
  notCommitted : pc.NotCommitted -> (trace events).committed = false

theorem callFacts_idle (events : List (Option Event)) :
    CallFacts events (.idle : MasterPc cluster) :=
  ⟨nofun, fun impossible => False.elim (impossible rfl), nofun⟩

variable {pc : MasterPc cluster}

/-- A step inside the call that callers do not observe. -/
theorem CallFacts.inside {after : MasterPc cluster} {event : Option Event}
    (facts : CallFacts events pc) (silent : (trace events).record event = trace events)
    (sameRequest : after.request? = pc.request?)
    (notCommitted : after.NotCommitted -> pc.NotCommitted) :
    CallFacts (events ++ [event]) after := by
  refine ⟨?_, ?_, ?_⟩
  · intro request same
    rw [sameRequest] at same
    exact mem_append_left _ (facts.begun request same)
  · rw [trace_append_single, silent, sameRequest]
    exact facts.unchanged
  · rw [trace_append_single, silent]
    exact fun undecided => facts.notCommitted (notCommitted undecided)

variable {state : State cluster}

theorem CallFacts.callStep {after : State cluster} {event : Option Event}
    (facts : CallFacts events state.master) (stepped : state.CallStep event after) :
    CallFacts (events ++ [event]) after.master := by
  cases stepped with
  | rejected text idle => rw [idle]; exact callFacts_idle _
  | begun request idle =>
    refine ⟨?_, ?_, ?_⟩
    · rintro other ⟨rfl⟩
      exact mem_append_right _ mem_cons_self
    · intro _
      rw [trace_append_single]
      rfl
    · intro _
      rw [trace_append_single]
      rfl
  | @decided request votes index here finished =>
    rw [here] at facts
    cases agreed : votes.globalAbort with
    | true => exact facts.inside rfl rfl (fun _ => trivial)
    | false =>
      refine ⟨?_, ?_, ?_⟩
      · rintro other ⟨rfl⟩
        exact mem_append_left _ (facts.begun request rfl)
      · intro _
        rw [trace_append_single]
        exact facts.unchanged nofun
      · intro impossible
        exact False.elim (Bool.false_ne_true (agreed.symm.trans impossible))
  | askVote here | noConnection _ here | noVote _ here | vote here =>
    rw [here] at facts
    exact facts.inside rfl rfl (fun _ => trivial)
  | sendDecision here | noAck here | acked here =>
    rw [here] at facts
    exact facts.inside rfl rfl id
  | retryConnect => exact facts.inside rfl rfl id
  | getLock here | lock here =>
    rw [here] at facts
    exact facts.inside rfl rfl nofun
  | threw | noLock => exact callFacts_idle _
  | @flush request lock here =>
    rw [(state.flushCache_frame request lock Store.empty).2.1]
    exact callFacts_idle _

theorem State.ClientStep.silent {after : State cluster} {client : Nat} {event : Option Event}
    (stepped : state.ClientStep client event after) (trace : Trace) :
    trace.record event = trace := by
  cases stepped with
  | threw holding quiet => rcases quiet with ⟨text, rfl⟩ | ⟨fault, rfl, _⟩ <;> rfl
  | _ => rfl

theorem callFacts_of_run (run : Run State.Step State.initial events state) :
    CallFacts events state.master := by
  induction run with
  | nil => exact callFacts_idle []
  | snoc _ last ih =>
    cases State.step_cases last with
    | call moved => exact ih.callStep moved
    | slave moved => exact ih.inside rfl rfl id
    | client moved =>
      rw [(moved.frame Store.empty).1]
      exact ih.inside (moved.silent _) rfl id

/-! ## The call as a whole -/

/-- The pairs a slave holds. -/
def State.contents (state : State cluster) (slave : cluster.ring.Slave) : Store :=
  (state.net.slaves slave).contents

/-- The request that some slave was told to commit, until the master's cache
has it too. -/
def MasterPc.window : MasterPc cluster -> Option TPCRequest
  | .phase2 request votes _ _ sent =>
    if sent = true ∧ votes.globalAbort = false then some request else none
  | .waitAck request votes _ _ _ _ => if votes.globalAbort = false then some request else none
  | .lock request _ | .flush request _ => some request
  | _ => none

theorem MasterPc.NotCommitted.window (undecided : pc.NotCommitted) : pc.window = none := by
  cases pc with
  | phase2 _ votes _ _ sent | waitAck _ votes _ _ _ _ =>
    have aborted : votes.globalAbort = true := undecided
    simp [MasterPc.window, aborted]
  | _ => first | rfl | cases undecided

theorem MasterPc.NotCommitted.inCall (undecided : pc.NotCommitted) : pc.request? ≠ none := by
  cases pc with
  | idle => cases undecided
  | _ => nofun

/-- As long as no slave was told to commit, no COMMIT is under way. -/
theorem Agrees.undecided (agrees : Agrees spec state) (noWindow : state.master.window = none)
    (slave : cluster.ring.Slave) :
    (state.net.slaves slave).Meets (held cluster spec slave) .undecided := by
  have meets := agrees.consistent.meets slave
  have ofVote : ∀ {request : TPCRequest} {votes : Votes} {index : Nat},
      (state.net.slaves slave).Meets (held cluster spec slave)
        (MasterPc.voteStanding request votes index slave) ->
      (state.net.slaves slave).Meets (held cluster spec slave) .undecided := by
    intro request votes index meets
    by_cases member : slave ∈ cluster.ring.slaves request.key
    · exact meets.of_vote.1 member
    · exact (meets.of_vote.2 member).undecided_of_quiet
  have ofAbort : ∀ {request : TPCRequest} {votes : Votes} {index : Nat},
      votes.globalAbort = true ->
      (state.net.slaves slave).Meets (held cluster spec slave)
        (MasterPc.decisionStanding request votes index slave) ->
      (state.net.slaves slave).Meets (held cluster spec slave) .undecided := by
    intro request votes index aborted meets
    simp only [MasterPc.decisionStanding, aborted, if_true] at meets
    split at meets
    · exact meets.undecided_of_quiet
    · split at meets
      · exact meets
      · exact meets.undecided_of_quiet
  cases here : state.master with
  | idle =>
    rw [here] at meets
    exact SlaveState.Meets.undecided_of_quiet meets
  | phase1 request votes index =>
    rw [here] at meets
    exact ofVote meets
  | waitVote request votes index currSlave conn =>
    by_cases same : slave = currSlave
    · subst same
      exact (agrees.current here).1
    · exact ofVote (agrees.others here same)
  | phase2 request votes index invalidFormat sent =>
    rw [here] at meets noWindow
    simp only [MasterPc.window, ite_eq_right_iff, reduceCtorEq, imp_false, not_and,
      Bool.not_eq_false] at noWindow
    simp only [MasterPc.standing] at meets
    split at meets
    · next known => exact ofAbort (known.elim noWindow id) meets
    · split at meets
      · exact meets.quiet_of_ready.undecided_of_quiet
      · exact meets.undecided_of_quiet
  | waitAck request votes index invalidFormat currSlave conn =>
    rw [here] at meets noWindow
    simp only [MasterPc.window, ite_eq_right_iff, reduceCtorEq, imp_false,
      Bool.not_eq_false] at noWindow
    exact ofAbort noWindow meets
  | lock request lock | flush request lock => rw [here] at noWindow; cases noWindow

/-- As long as no slave was told to commit, every slave holds its part of the map. -/
theorem Agrees.contents (agrees : Agrees spec state) (noWindow : state.master.window = none)
    (slave : cluster.ring.Slave) : state.contents slave = held cluster spec slave :=
  SlaveState.contents_of_undecided (agrees.consistent.ordered.valid slave)
    (agrees.undecided noWindow slave)

theorem flushTo_ok {config : CacheConfig} (request : TPCRequest) (cache : KVCache config)
    (inRange : InRange config request.key) :
    ∃ after, State.flushTo request cache = .ok after := by
  have nonempty := request.cases.1
  unfold State.flushTo
  rw [request.sameKey]
  split
  · rcases request.cases.2 with ⟨_, value, sameValue⟩ | ⟨_, noValue⟩
    · rw [sameValue]
      by_cases empty : value.length = 0
      · exact ⟨cache, by simp only [KVCache.put, empty, or_true, if_true]⟩
      · rcases cache.put_spec nonempty empty inRange with ⟨after, done, _⟩
        exact ⟨after, done⟩
    · rw [noValue]
      exact ⟨cache, rfl⟩
  · rcases cache.del_spec nonempty inRange with ⟨after, done, _⟩
    exact ⟨after, done⟩

/-- An exception that leaves `handleTPCRequest` after the request was found valid. -/
def Event.Throws : Event -> Prop
  | .threw _ | .flushFailed _ _ => True
  | _ => False

/-- The events of a call as its callers see it. -/
def Event.OfCall : Event -> Prop
  | .begun _ | .returned _ | .threw _ | .flushFailed _ _ => True
  | _ => False

theorem callStep_of_event {after : State cluster} {event : Event}
    (stepped : State.Step state (some event) after) (ofCall : event.OfCall) :
    state.CallStep (some event) after := by
  generalize observed : some event = label at stepped ⊢
  cases State.step_cases stepped with
  | call moved => exact moved
  | slave moved => cases observed
  | client moved =>
    cases moved with
    | threw _ quiet =>
      cases observed
      rcases quiet with ⟨text, rfl⟩ | ⟨fault, rfl, _⟩ <;> cases ofCall
    | refused | noLock | begun | returned => cases observed; cases ofCall
    | lock | hit | miss | ask | noConnection | noAnswer | answer | fill => cases observed

/-- The end of a call: only an aborted one throws, if the master's cache can
select a list for the key. -/
theorem step_throws {after : State cluster} {event : Event} (agrees : Agrees (history events) state)
    (facts : CallFacts events state.master)
    (inRange : ∀ request, some (Event.begun request) ∈ events ->
      InRange cluster.masterCache request.key) (stepped : State.Step state (some event) after)
    (throws : event.Throws) :
    (∃ text, event = .threw text) ∧ after.master = .idle ∧ state.master.NotCommitted := by
  have moved := callStep_of_event stepped (by cases event <;> trivial)
  generalize observed : some event = label at moved
  cases moved with
  | threw text here finished refused =>
    have aborted := (agrees.threw here finished refused).1
    cases observed
    rw [here]
    exact ⟨⟨text, rfl⟩, rfl, aborted⟩
  | noLock here finished agreed outOfRange =>
    refine False.elim (outOfRange (inRange _ (facts.begun _ ?_)))
    rw [here]
    rfl
  | @flush request lock here =>
    have keyInRange := inRange request (facts.begun request (by rw [here]; rfl))
    rcases flushTo_ok request state.masterCache keyInRange with ⟨cache, done⟩
    simp only [State.flushCache, done] at observed
    cases observed
    cases throws
  | rejected | begun | decided => cases observed; cases throws
  | askVote | noConnection | noVote | vote | sendDecision | retryConnect | noAck | acked
  | getLock | lock => cases observed

variable {request : TPCRequest}

theorem step_returned {after : State cluster}
    (stepped : State.Step state (some (.returned request)) after) : after.master = .idle := by
  have moved := callStep_of_event stepped trivial
  generalize observed : some (Event.returned request) = label at moved
  cases moved with
  | @flush other lock here => exact (state.flushCache_frame other lock Store.empty).2.1
  | _ => cases observed

/-- What callers of `handleTPCRequest` rely on, in a run with these events that
ends in `state`. -/
structure Atomic (cluster : Cluster) (events : List (Option Event)) (state : State cluster) :
    Prop where
  /-- A call that returns has stored its value, or removed the key, at both replicas. -/
  returned : ∀ earlier request, events = earlier ++ [some (.returned request)] ->
    ∀ slave, slave ∈ cluster.ring.slaves request.key ->
      state.contents slave request.key =
        if request.msg.msgType = .putReq then request.msg.value else none
  /-- A call that throws leaves every slave with what it held when the call began. -/
  threw : ∀ before start request during event,
    events = before ++ (some (.begun request) :: during ++ [some event]) ->
    Run State.Step State.initial before start ->
    Run State.Step start (some (.begun request) :: during ++ [some event]) state ->
    (∀ other, some (Event.begun other) ∉ during) -> event.Throws ->
    ∀ slave, state.contents slave = start.contents slave
  /-- So does any call as long as it has not decided to commit. -/
  undecided : ∀ before start request during,
    events = before ++ (some (.begun request) :: during) ->
    Run State.Step State.initial before start ->
    Run State.Step start (some (.begun request) :: during) state ->
    (∀ other, some (Event.begun other) ∉ during) -> state.master.NotCommitted ->
    ∀ slave, state.contents slave = start.contents slave
  /-- A call that has decided to commit does not throw. -/
  committed : ∀ before during event,
    events = before ++ some (.decided false) :: during ++ [some event] -> event.Throws ->
    ∃ request, some (Event.begun request) ∈ during
  /-- Between two calls, both replicas of every key hold the same. -/
  agree : state.master = .idle -> ∀ key,
    state.contents (cluster.ring.findFirstReplica key) key =
      state.contents (cluster.ring.findSuccessor (cluster.ring.findFirstReplica key)) key

/-- A call begins between two calls. -/
theorem step_begun {after : State cluster}
    (stepped : State.Step state (some (.begun request)) after) : state.master = .idle := by
  have moved := callStep_of_event stepped trivial
  generalize observed : some (Event.begun request) = label at moved
  cases moved with
  | begun _ idle => exact idle
  | @flush other lock here =>
    unfold State.flushCache at observed
    split at observed <;> cases observed
  | _ => cases observed

/-- Inside a call, the map is the one the call began with. -/
theorem history_during {before during : List (Option Event)}
    (facts : CallFacts (before ++ some (.begun request) :: during) pc) (inCall : pc.request? ≠ none)
    (noCall : ∀ other, some (Event.begun other) ∉ during) :
    history (before ++ some (.begun request) :: during) = history before := by
  have same := facts.unchanged inCall
  have split : before ++ some (.begun request) :: during =
      (before ++ [some (.begun request)]) ++ during := by
    rw [append_assoc, singleton_append]
  rw [<- trace_map, same, split, (trace_during noCall).1, trace_append_single, <- trace_map]
  rfl

theorem contents_at_begin {before later : List (Option Event)} {start : State cluster}
    (first : Run State.Step State.initial before start)
    (rest : Run State.Step start (some (.begun request) :: later) state)
    (slave : cluster.ring.Slave) : start.contents slave = held cluster (history before) slave := by
  rcases rest.head with ⟨after, begun, _⟩
  have idle := step_begun begun
  exact (agrees_of_run first).contents (by rw [idle]; rfl) slave

/-- Two-phase commit is atomic, whatever gets lost and whichever slave crashes,
for keys that the master's cache can select a list for. -/
theorem handleTPCRequest_atomic (cluster : Cluster) {events : List (Option Event)}
    {state : State cluster} (run : Run State.Step State.initial events state)
    (inRange : ∀ request, some (Event.begun request) ∈ events ->
      InRange cluster.masterCache request.key) : Atomic cluster events state := by
  have agrees := agrees_of_run run
  constructor
  · intro earlier request same slave member
    subst same
    rcases run.last with ⟨previous, _, stepped⟩
    have idle := step_returned stepped
    rw [agrees.contents (by rw [idle]; rfl), held, if_pos member, history_append_single]
    change request.msg.effect _ request.key = _
    rw [request.effect_key]
    rcases request.cases.2 with ⟨isPut, _⟩ | ⟨isDel, noValue⟩
    · rw [if_pos isPut]
    · rw [if_neg (by rw [isDel]; nofun), noValue]
  · intro before start request during event same first rest noCall throws slave
    rcases rest.last with ⟨previous, inside, stepped⟩
    have whole := first.trans inside
    have facts := callFacts_of_run whole
    have inRangeBefore : ∀ other,
        some (Event.begun other) ∈ before ++ some (.begun request) :: during ->
          InRange cluster.masterCache other.key := by
      intro other member
      apply inRange other
      rw [same, <- append_assoc]
      exact mem_append_left _ member
    rcases step_throws (agrees_of_run whole) facts inRangeBefore stepped throws with
      ⟨⟨text, rfl⟩, idle, undecided⟩
    have sameMap : history events = history before := by
      rw [same, <- append_assoc, history_append_single]
      exact history_during facts undecided.inCall noCall
    rw [agrees.contents (by rw [idle]; rfl), sameMap, contents_at_begin first rest]
  · intro before start request during same first rest noCall undecided slave
    have facts := callFacts_of_run run
    rw [same] at facts
    rw [agrees.contents undecided.window, same, history_during facts undecided.inCall noCall,
      contents_at_begin first rest]
  · intro before during event same throws
    by_contra noCall
    rw [same] at run
    rcases run.last with ⟨previous, earlier, stepped⟩
    have facts := callFacts_of_run earlier
    have inRangeBefore : ∀ other,
        some (Event.begun other) ∈ before ++ some (.decided false) :: during ->
          InRange cluster.masterCache other.key := by
      intro other member
      apply inRange other
      rw [same]
      exact mem_append_left _ member
    have undecided := (step_throws (agrees_of_run earlier) facts inRangeBefore stepped throws).2.2
    have decided : (trace (before ++ [some (.decided false)])).committed = true := by
      rw [trace_append_single]
      rfl
    have stillDecided := (trace_during (fun other member => noCall ⟨other, member⟩)).2 decided
    rw [append_assoc, singleton_append, facts.notCommitted undecided] at stillDecided
    cases stillDecided
  · intro idle key
    have contents := agrees.contents (by rw [idle]; rfl)
    rw [contents, contents, held, held, if_pos cluster.ring.first_mem_slaves,
      if_pos cluster.ring.successor_mem_slaves]

/-- Two slaves and caches with a single list. -/
def sampleCluster : Cluster where
  ring := ⟨[0#64, 1#64], by decide, by decide⟩
  masterCache := ⟨1, 1, by decide, by decide⟩
  slaveCache := ⟨1, 1, by decide, by decide⟩

/-- The slave reads a request and works on it for `steps` steps. -/
def serve (slave : sampleCluster.ring.Slave) (steps : Nat) : List (Action sampleCluster) :=
  .slave slave .getJob :: replicate steps (.slave slave .run)

/-- A `put` for which the second slave votes, crashes, and restarts; its first
ACK is lost. -/
def samplePut : List (Action sampleCluster) :=
  let first : sampleCluster.ring.Slave := ⟨0#64, by decide⟩
  let second : sampleCluster.ring.Slave := ⟨1#64, by decide⟩
  let msg : KVMessage :=
    { msgType := .putReq, key := some (JString.ofAscii "k"), value := some (JString.ofAscii "v") }
  [.call msg, .connect true] ++ serve first 4 ++ [.receive, .connect true] ++ serve second 4 ++
    [.receive, .slave second .crash, .decide, .connect true] ++ serve first 5 ++
    [.receive, .slave second .restart, .connect true] ++ serve second 5 ++
    [.fail ERROR_SOCKET_TIMEOUT, .connect true] ++ serve second 2 ++
    [.receive, .conclude, .lock, .flush]

theorem handleTPCRequest_atomic_sample :
    ∃ events state, execute State.next State.initial samplePut = some (events, state) ∧
      Atomic sampleCluster events state := by
  have possible : (execute State.next (State.initial : State sampleCluster) samplePut).isSome =
      true := by decide +kernel
  rcases Option.isSome_iff_exists.mp possible with ⟨⟨events, state⟩, done⟩
  refine ⟨events, state, done, handleTPCRequest_atomic sampleCluster (run_of_execute done) ?_⟩
  intro request _
  simp [InRange, setIndex?, setIndex, sampleCluster]

end KVStore
end Codebank
