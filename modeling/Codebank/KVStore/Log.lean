import Codebank.KVStore.Server

namespace Codebank
namespace KVStore

open List Function

/-!
# The two-phase-commit log of a slave and its replay

`TPCLog` keeps the requests a slave voted for and the decisions it carried
out.  After a crash, `rebuildServer` walks over the log with a variable
`lastAction` and repeats the committed requests on a fresh `KVServer`.

The live handler decides from the *last entry* of the log instead.  `Sound`
states that both views agree: the replay of the log succeeds, gives a given
store, and ends with a `lastAction` that is exactly the last entry when that
entry still waits for its decision.  The lemmas below say how `Sound` changes
with each entry the handler can append.
-/

/-- What both `rebuildServer` and the handler's COMMIT branch do with a logged
request. -/
def KVServer.perform {config : CacheConfig} (server : KVServer config) (exec : KVMessage) :
    Except Fault Unit × KVServer config :=
  match exec.msgType with
  | .putReq => server.put exec.key exec.value
  | .delReq => server.del exec.key
  | _ => (.ok (), server)

/-- The loop state of `rebuildServer`: the server built so far and `lastAction`. -/
abbrev Replay (config : CacheConfig) := KVServer config × Option KVMessage

/-- One iteration of `rebuildServer`.  An exception ends the loop and leaves
the server as it then is. -/
def rebuildEntry {config : CacheConfig} (replay : Replay config) (entry : KVMessage) :
    Except (Fault × KVServer config) (Replay config) :=
  match entry.msgType with
  | .putReq | .delReq | .getReq => .ok (replay.1, some entry)
  | .abort => .ok (replay.1, none)
  | .commit =>
    match replay.2 with
    | none => .ok replay
    | some action =>
      match replay.1.perform action with
      | (.error fault, server) => .error (fault, server)
      | (.ok _, server) => .ok (server, none)
  | _ => .ok replay

def replayLog (config : CacheConfig) (entries : List KVMessage) :
    Except (Fault × KVServer config) (Replay config) :=
  entries.foldlM rebuildEntry (KVServer.empty, none)

/-- `rebuildServer` on a fresh server: whether it threw, and the server it left. -/
def rebuildServer (config : CacheConfig) (entries : List KVMessage) :
    Except Fault Unit × KVServer config :=
  match replayLog config entries with
  | .ok replay => (.ok (), replay.1)
  | .error (fault, server) => (.error fault, server)

/-- A request that waits for its decision. -/
def KVMessage.isAction (entry : KVMessage) : Bool :=
  entry.msgType == .putReq || entry.msgType == .delReq

/-- The last entry of the log, if it is such a request. -/
def pending (entries : List KVMessage) : Option KVMessage :=
  entries.getLast?.filter KVMessage.isAction

/-- The change a committed request makes to the stored pairs. -/
def KVMessage.effect (exec : KVMessage) (store : Store) : Store :=
  match exec.msgType, exec.key, exec.value with
  | .putReq, some key, some value => store.put key value
  | .delReq, some key, _ => update store key none
  | _, _, _ => store

/-- The request's key selects a list of the slave's cache. -/
def KVMessage.InRange (config : CacheConfig) (message : KVMessage) : Prop :=
  ∀ key, key ∈ message.key -> KVStore.InRange config key

instance (config : CacheConfig) (message : KVMessage) :
    Decidable (message.InRange config) :=
  inferInstanceAs (Decidable (∀ key, key ∈ message.key -> KVStore.InRange config key))

/-- A request that a slave holding `store` votes for: a `put` that passes the
checks, or a `del` of a stored key. -/
def Votable (store : Store) (exec : KVMessage) : Prop :=
  (exec.msgType = .putReq ∧ validateKeyValue exec.key exec.value = SUCCESS) ∨
    (exec.msgType = .delReq ∧ ∃ key value, exec.key = some key ∧ store key = some value)

/-- The replay of a log yields `store` and waits for the log's last request. -/
structure Sound (config : CacheConfig) (log : List KVMessage) (store : Store) : Prop where
  replay : ∃ rebuilt : KVServer config,
    replayLog config log = .ok (rebuilt, pending log) ∧ rebuilt.dataStore = store ∧
      rebuilt.Coherent
  usable : ∀ key value, store key = some value ->
    key.length ≠ 0 ∧ KVStore.InRange config key
  votable : ∀ exec, pending log = some exec -> Votable store exec

variable {config : CacheConfig} {exec : KVMessage} {log : List KVMessage}

theorem isAction_iff (entry : KVMessage) :
    entry.isAction = true <-> entry.msgType = .putReq ∨ entry.msgType = .delReq := by
  simp [KVMessage.isAction]

theorem Votable.isAction {store : Store} (votable : Votable store exec) : exec.isAction = true := by
  rw [isAction_iff]
  rcases votable with ⟨isPut, _⟩ | ⟨isDel, _⟩
  · exact .inl isPut
  · exact .inr isDel

theorem pending_of_getLast {entry : KVMessage} (last : log.getLast? = some entry) :
    pending log = if entry.isAction then some entry else none := by
  simp [pending, last, Option.filter]

@[simp] theorem pending_append_single (log : List KVMessage) (entry : KVMessage) :
    pending (log ++ [entry]) = if entry.isAction then some entry else none :=
  pending_of_getLast (by simp)

theorem isAction_of_pending (waits : pending log = some exec) : exec.isAction = true := by
  rw [pending, Option.filter_eq_some_iff] at waits
  exact waits.2

theorem getLast_of_pending (waits : pending log = some exec) : log.getLast? = some exec := by
  rw [pending, Option.filter_eq_some_iff] at waits
  exact waits.1

theorem replayLog_append_single (log : List KVMessage) (entry : KVMessage) :
    replayLog config (log ++ [entry]) =
      (replayLog config log).bind (fun replay => rebuildEntry replay entry) := by
  simp only [replayLog, foldlM_append, foldlM_cons, foldlM_nil, bind_pure]
  rfl

/-- A failed replay stays failed whatever is appended. -/
theorem replayLog_error_append {failure : Fault × KVServer config}
    (failed : replayLog config log = .error failure) (later : List KVMessage) :
    replayLog config (log ++ later) = .error failure := by
  unfold replayLog at failed ⊢
  rw [foldlM_append, failed]
  rfl

theorem rebuildServer_of_ok {replay : Replay config} (done : replayLog config log = .ok replay) :
    rebuildServer config log = (.ok (), replay.1) := by
  rw [rebuildServer, done]

theorem rebuildServer_of_error {fault : Fault} {server : KVServer config}
    (failed : replayLog config log = .error (fault, server)) :
    rebuildServer config log = (.error fault, server) := by
  rw [rebuildServer, failed]

/-! ## Carrying out a voted request -/

/-- On a server that holds the store the vote was given for, carrying out the
request succeeds and has its effect. -/
theorem KVServer.perform_votable (server : KVServer config) (coherent : server.Coherent)
    (usable : ∀ key value, server.dataStore key = some value ->
      key.length ≠ 0 ∧ KVStore.InRange config key) (votable : Votable server.dataStore exec)
    (inRange : exec.InRange config) :
    ∃ after : KVServer config, server.perform exec = (.ok (), after) ∧
      after.dataStore = exec.effect server.dataStore ∧ after.Coherent := by
  rcases votable with ⟨isPut, accepted⟩ | ⟨isDel, key, value, sameKey, stored⟩
  · rcases (validateKeyValue_eq_success_iff _ _).mp accepted with
      ⟨key, value, sameKey, sameValue, acceptable⟩
    rcases server.put_accepted acceptable (inRange key sameKey) coherent with
      ⟨cache, done, after⟩
    refine ⟨_, ?_, ?_, after⟩
    · simp only [KVServer.perform, isPut, sameKey, sameValue, done]
    · simp only [KVMessage.effect, isPut, sameKey, sameValue]
  · have facts := usable key value stored
    rcases server.del_present facts.1 facts.2 stored coherent with ⟨cache, done, after⟩
    refine ⟨_, ?_, ?_, after⟩
    · simp only [KVServer.perform, isDel, sameKey, done]
    · simp only [KVMessage.effect, isDel, sameKey]

/-- The only voted request that cannot be carried out is a `put` whose key
selects no list of the cache.  It throws before anything is written. -/
theorem KVServer.perform_outOfRange (server : KVServer config)
    (usable : ∀ key value, server.dataStore key = some value ->
      key.length ≠ 0 ∧ KVStore.InRange config key) (votable : Votable server.dataStore exec)
    (outOfRange : ¬ exec.InRange config) :
    server.perform exec = (.error .arrayIndexOutOfBounds, server) := by
  rcases votable with ⟨isPut, accepted⟩ | ⟨isDel, key, value, sameKey, stored⟩
  · rcases (validateKeyValue_eq_success_iff _ _).mp accepted with
      ⟨key, value, sameKey, sameValue, acceptable⟩
    have keyOutOfRange : ¬ KVStore.InRange config key := by
      intro keyInRange
      apply outOfRange
      intro other same
      exact Option.some.inj (sameKey.symm.trans same) ▸ keyInRange
    simp only [KVServer.perform, isPut, sameKey, sameValue,
      server.put_outOfRange acceptable keyOutOfRange]
  · refine False.elim (outOfRange ?_)
    intro other same
    exact Option.some.inj (sameKey.symm.trans same) ▸ (usable key value stored).2

/-- A request only touches its own key. -/
theorem effect_of_ne {key : JString} (different : exec.key ≠ some key) (store : Store) :
    exec.effect store key = store key := by
  rcases exec with ⟨type, execKey, value, message⟩
  cases execKey with
  | none => cases type <;> rfl
  | some k =>
    have keyNe : key ≠ k := fun same => different (congrArg some same.symm)
    cases type with
    | putReq =>
      cases value with
      | none => rfl
      | some v => exact update_of_ne keyNe _ _
    | delReq => exact update_of_ne keyNe _ _
    | _ => rfl

/-! ## How the log may grow -/

namespace Sound

variable {log : List KVMessage} {store : Store} {entry : KVMessage}

theorem nil : Sound config [] Store.empty where
  replay := ⟨KVServer.empty, rfl, rfl, KVServer.coherent_empty⟩
  usable := fun _ _ impossible => by cases impossible
  votable := fun _ impossible => by cases impossible

section

variable (sound : Sound config log store)

include sound

/-- A voted request joins the log without changing the store. -/
theorem append_action (votable : Votable store entry) : Sound config (log ++ [entry]) store := by
  have isAction := votable.isAction
  rcases sound.replay with ⟨rebuilt, replayed, sameStore, coherent⟩
  refine ⟨⟨rebuilt, ?_, sameStore, coherent⟩, sound.usable, ?_⟩
  · rw [replayLog_append_single, replayed, pending_append_single, if_pos isAction]
    rcases votable with ⟨isPut, _⟩ | ⟨isDel, _⟩
    · simp only [Except.bind, rebuildEntry, isPut]
    · simp only [Except.bind, rebuildEntry, isDel]
  · intro exec waits
    rw [pending_append_single, if_pos isAction] at waits
    exact Option.some.inj waits ▸ votable

theorem append_abort (isAbort : entry.msgType = .abort) : Sound config (log ++ [entry]) store := by
  have notAction : entry.isAction = false := by simp [KVMessage.isAction, isAbort]
  rcases sound.replay with ⟨rebuilt, replayed, sameStore, coherent⟩
  refine ⟨⟨rebuilt, ?_, sameStore, coherent⟩, sound.usable, ?_⟩
  · rw [replayLog_append_single, replayed, pending_append_single, notAction]
    simp only [Except.bind, rebuildEntry, isAbort, Bool.false_eq_true, if_false]
  · intro exec waits
    rw [pending_append_single, notAction] at waits
    cases waits

/-- Committing the waiting request: the replay carries it out as well. -/
theorem append_commit (isCommit : entry.msgType = .commit) (waits : pending log = some exec)
    (inRange : exec.InRange config) : Sound config (log ++ [entry]) (exec.effect store) := by
  have notAction : entry.isAction = false := by simp [KVMessage.isAction, isCommit]
  have votable := sound.votable exec waits
  rcases sound.replay with ⟨rebuilt, replayed, sameStore, coherent⟩
  subst sameStore
  rcases rebuilt.perform_votable coherent sound.usable votable inRange with
    ⟨after, performed, effect, afterCoherent⟩
  refine ⟨⟨after, ?_, effect, afterCoherent⟩, ?_, ?_⟩
  · rw [replayLog_append_single, replayed, pending_append_single, notAction, waits]
    simp only [Except.bind, rebuildEntry, isCommit, performed, Bool.false_eq_true, if_false]
  · intro key value stored
    by_cases sameKey : exec.key = some key
    · rcases votable with ⟨isPut, accepted⟩ | ⟨isDel, k, v, execKey, _⟩
      · rcases (validateKeyValue_eq_success_iff _ _).mp accepted with
          ⟨k, v, execKey, _, acceptable⟩
        have same : k = key := Option.some.inj (execKey.symm.trans sameKey)
        subst same
        exact ⟨acceptable.1, inRange k execKey⟩
      · simp only [KVMessage.effect, isDel, sameKey, Function.update_self] at stored
        cases stored
    · rw [effect_of_ne sameKey] at stored
      exact sound.usable key value stored
  · intro other impossible
    rw [pending_append_single, notAction] at impossible
    cases impossible

/-- Committing a `put` that selects no list of the cache breaks the replay. -/
theorem append_commit_outOfRange (isCommit : entry.msgType = .commit)
    (waits : pending log = some exec) (outOfRange : ¬ exec.InRange config) :
    ∃ rebuilt : KVServer config,
      replayLog config (log ++ [entry]) = .error (.arrayIndexOutOfBounds, rebuilt) ∧
        rebuilt.dataStore = store := by
  rcases sound.replay with ⟨rebuilt, replayed, sameStore, coherent⟩
  subst sameStore
  have performed := rebuilt.perform_outOfRange sound.usable (sound.votable exec waits) outOfRange
  refine ⟨rebuilt, ?_, rfl⟩
  rw [replayLog_append_single, replayed, waits]
  simp only [Except.bind, rebuildEntry, isCommit, performed]

theorem rebuildServer :
    ∃ rebuilt : KVServer config, KVStore.rebuildServer config log = (.ok (), rebuilt) ∧
      rebuilt.dataStore = store ∧ rebuilt.Coherent := by
  rcases sound.replay with ⟨rebuilt, replayed, sameStore, coherent⟩
  exact ⟨rebuilt, rebuildServer_of_ok replayed, sameStore, coherent⟩

end

end Sound

end KVStore
end Codebank
