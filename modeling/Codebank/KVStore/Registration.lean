import Codebank.KVStore.Registry

namespace Codebank
namespace KVStore

open Option

/-!
# The handler of registrations

`TPCRegistrationHandler` makes a `TPCSlaveInfo` of the text of a request, hands it to
`registerSlave`, which returns nothing, and answers that the slave is registered.  A request
that cannot be read or parsed is answered with the text of the exception.
-/

/-- The fields of a `TPCSlaveInfo`. -/
structure SlaveInfo where
  slaveID : BitVec 64
  hostname : JString
  port : BitVec 32
  deriving DecidableEq

/-! ## The text of a registration -/

def isDigit (unit : UInt16) : Bool :=
  48 <= unit && unit <= 57

/-- `([0-9])+` -/
def isNumeral (text : JString) : Bool :=
  !text.isEmpty && text.all isDigit

/-- `\s` -/
def isSpace (unit : UInt16) : Bool :=
  unit == 32 || (9 <= unit && unit <= 13)

/-- `[^\s@:]+` -/
def isHostname (text : JString) : Bool :=
  !text.isEmpty && text.all fun unit => !isSpace unit && unit != 64 && unit != 58

/-- The number a numeral stands for. -/
def numeralValue (text : JString) : Nat :=
  text.foldl (fun value unit => 10 * value + (unit.toNat - 48)) 0

/-- `-{0,1}([0-9])+` -/
def isLongText (text : JString) : Bool :=
  match text with
  | 45 :: digits => isNumeral digits
  | _ => isNumeral text

/-- `Long.parseLong` of such a text; a number out of range is an exception. -/
def parseLong (text : JString) : Option (BitVec 64) :=
  match text with
  | 45 :: digits =>
    if numeralValue digits <= 0x8000000000000000 then
      some (-(BitVec.ofNat 64 (numeralValue digits)))
    else
      none
  | _ =>
    if numeralValue text < 0x8000000000000000 then
      some (BitVec.ofNat 64 (numeralValue text))
    else
      none

/-- `Integer.parseInt` of a numeral. -/
def parsePort (text : JString) : Option (BitVec 32) :=
  if numeralValue text < 0x80000000 then some (BitVec.ofNat 32 (numeralValue text)) else none

/-- `info.split("[@:]")` of a text of the right form: the parts before the first `@`, from
there to the first `:`, and after it. -/
def tokens (info : JString) : JString × JString × JString :=
  let afterId := (info.dropWhile fun unit => unit != 64).drop 1
  (info.takeWhile fun unit => unit != 64, afterId.takeWhile fun unit => unit != 58,
    (afterId.dropWhile fun unit => unit != 58).drop 1)

/-- `info.matches("^-{0,1}([0-9])+@([^\\s@:]+):([0-9])+$")` -/
def matchesFormat (info : JString) : Bool :=
  let parts := tokens info
  isLongText parts.1 && isHostname parts.2.1 && isNumeral parts.2.2 &&
    info == parts.1 ++ 64 :: parts.2.1 ++ 58 :: parts.2.2

/-- The constructor of `TPCSlaveInfo`; `none` is the exception with `ERROR_INVALID_FORMAT`. -/
def SlaveInfo.new (info : Option JString) : Option SlaveInfo :=
  match info with
  | none => none
  | some info =>
    if info.length < 5 then none
    else if matchesFormat info then
      (parseLong (tokens info).1).bind fun slaveID =>
        (parsePort (tokens info).2.2).map fun port => ⟨slaveID, (tokens info).2.1, port⟩
    else none

/-! ## The handler -/

/-- A `TPCSlaveInfo` object: the number of the request it was made for tells it from others
with the same fields. -/
structure SlaveObject where
  number : Nat
  info : SlaveInfo
  deriving DecidableEq

def SlaveObject.getSlaveID (slave : SlaveObject) : BitVec 64 :=
  slave.info.slaveID

/-- What arrives on the socket. -/
inductive RegistrationRequest where
  /-- the message cannot be read; the text of the exception -/
  | unreadable (text : String)
  /-- whether the type is `REGISTER`, and the message -/
  | message (isRegister : Bool) (text : Option JString)

structure RegistrationState where
  master : Registry SlaveObject
  /-- the number of requests handled -/
  handled : Nat

/-- `"Successfully registered " + info` -/
def registeredText (info : JString) : JString :=
  JString.ofAscii "Successfully registered " ++ info

namespace RegistrationState

def new (numSlaves : Int) : RegistrationState where
  master := Registry.new numSlaves
  handled := 0

/-- The reply and the state after `createJob(...).run()`. -/
def handle (state : RegistrationState) (request : RegistrationRequest) :
    Option (JString × RegistrationState) :=
  match request with
  | .unreadable text =>
    some (JString.ofAscii text, { state with handled := state.handled + 1 })
  | .message isRegister text =>
    if isRegister then
      match SlaveInfo.new text with
      | none =>
        some (JString.ofAscii ERROR_INVALID_FORMAT, { state with handled := state.handled + 1 })
      | some info =>
        (state.master.registerSlave SlaveObject.getSlaveID
          (some ⟨state.handled, info⟩)).map fun master =>
            (registeredText (text.getD []), { master := master, handled := state.handled + 1 })
    else
      some (JString.ofAscii ERROR_INVALID_FORMAT, { state with handled := state.handled + 1 })

/-- The state after some requests, one after the other. -/
def afterRequests (numSlaves : Int) (requests : List RegistrationRequest) :
    Option RegistrationState :=
  requests.foldlM (fun state request => (state.handle request).map Prod.snd) (new numSlaves)

/-- The master will not drop the slave: it knows the ID or expects another slave. -/
def mayRegister (state : RegistrationState) (info : SlaveInfo) : Bool :=
  (state.master.getSlave info.slaveID).isSome ||
    decide (state.master.numRegistered < state.master.numSlaves)

/-- The master of the state keeps its slaves together. -/
def Valid (state : RegistrationState) : Prop :=
  ∃ entries, state.master.Sound SlaveObject.getSlaveID entries

variable {state after : RegistrationState} {reply : JString}

theorem valid_new (numSlaves : Int) : (new numSlaves).Valid :=
  ⟨[], Registry.sound_new numSlaves⟩

theorem Valid.handle (valid : state.Valid) (request : RegistrationRequest) :
    ∃ reply after, state.handle request = some (reply, after) ∧ after.Valid := by
  cases request with
  | unreadable text => exact ⟨_, _, rfl, valid⟩
  | message isRegister text =>
    cases isRegister with
    | false => exact ⟨_, _, rfl, valid⟩
    | true =>
      cases parsed : SlaveInfo.new text with
      | none =>
        refine ⟨JString.ofAscii ERROR_INVALID_FORMAT,
          { state with handled := state.handled + 1 }, ?_, valid⟩
        simp only [RegistrationState.handle, if_true, parsed]
      | some info =>
        rcases valid with ⟨entries, sound⟩
        rcases sound.registerSlave (some ⟨state.handled, info⟩) with
          ⟨master, changed, done, kept, _⟩
        refine ⟨registeredText (text.getD []),
          { master := master, handled := state.handled + 1 }, ?_, changed, kept⟩
        simp only [RegistrationState.handle, if_true, parsed, done, map_some]

/-- Every history of requests leads to a valid state. -/
theorem valid_afterRequests (numSlaves : Int) (requests : List RegistrationRequest) :
    ∃ state, afterRequests numSlaves requests = some state ∧ state.Valid := by
  induction requests using List.reverseRecOn with
  | nil => exact ⟨new numSlaves, rfl, valid_new numSlaves⟩
  | append_singleton requests request ih =>
    rcases ih with ⟨state, done, valid⟩
    rcases valid.handle request with ⟨reply, after, step, kept⟩
    refine ⟨after, ?_, kept⟩
    rw [afterRequests, List.foldlM_append]
    rw [afterRequests] at done
    rw [done]
    simp [step]

/-- A slave that the master does not drop is the one it has for the ID afterwards. -/
theorem getSlave_of_mayRegister {registry next : Registry SlaveObject}
    {entries : List (Nat × SlaveObject)} {slave : SlaveObject}
    (sound : registry.Sound SlaveObject.getSlaveID entries)
    (done : registry.registerSlave SlaveObject.getSlaveID (some slave) = some next)
    (may : (registry.getSlave slave.getSlaveID).isSome = true ∨
      registry.numRegistered < registry.numSlaves) :
    next.getSlave slave.getSlaveID = some slave := by
  rcases sound.registerSlave (some slave) with ⟨other, changed, step, kept, _, change⟩
  rw [done] at step
  cases step
  cases change with
  | dropped absent full =>
    rcases may with known | room
    · rcases isSome_iff_exists.mp known with ⟨old, found⟩
      rcases (sound.ids _ _).mp found with ⟨same, node, inside⟩
      exact absurd same (absent (node, old) inside)
    · rw [sound.count] at room
      omega
  | @replaced _ entry left right _ =>
    exact (kept.ids _ _).mpr ⟨rfl, entry.1, mem_middle.mpr (.inl rfl)⟩
  | @added _ node left right _ _ =>
    exact (kept.ids _ _).mpr ⟨rfl, node, mem_middle.mpr (.inl rfl)⟩

/-- A slave with a new ID is dropped when there is no room. -/
theorem registerSlave_full {registry : Registry SlaveObject} {entries : List (Nat × SlaveObject)}
    {slave : SlaveObject} (sound : registry.Sound SlaveObject.getSlaveID entries)
    (unknown : registry.getSlave slave.getSlaveID = none)
    (full : registry.numSlaves <= registry.numRegistered) :
    registry.registerSlave SlaveObject.getSlaveID (some slave) = some registry := by
  have noRoom : registry.numSlaves <= registry.slaveList.size := by
    rw [sound.list.size, <- sound.count]
    exact full
  rw [Registry.getSlave] at unknown
  simp only [Registry.registerSlave, unknown, if_pos noRoom]

/-- The text of an error is not the text of a success. -/
theorem invalidFormat_ne (info : JString) :
    JString.ofAscii ERROR_INVALID_FORMAT ≠ registeredText info := by
  intro same
  have first := congrArg List.head? same
  have error : (JString.ofAscii ERROR_INVALID_FORMAT).head? = some 88 := by decide
  have success : (JString.ofAscii "Successfully registered ").head? = some 83 := by decide
  rw [registeredText, List.head?_append, error, success] at first
  simp at first

/-- After every history of requests, a slave that is told that it is registered, and whose ID
the master knew or had room for, is the one that the master has for its ID; a request with
another reply leaves the master as it was.  Every other slave is dropped and told that it is
registered. -/
theorem registered_when_told (numSlaves : Int) (requests : List RegistrationRequest) :
    ∃ state, afterRequests numSlaves requests = some state ∧
      (∀ isRegister info,
        (∀ parsed, SlaveInfo.new (some info) = some parsed ->
          state.mayRegister parsed = true) ->
        ∃ reply after, state.handle (.message isRegister (some info)) = some (reply, after) ∧
          (reply = registeredText info -> ∃ parsed,
            SlaveInfo.new (some info) = some parsed ∧
              after.master.getSlave parsed.slaveID = some ⟨state.handled, parsed⟩) ∧
          (reply ≠ registeredText info -> after.master = state.master)) ∧
      ∀ info parsed, SlaveInfo.new (some info) = some parsed -> state.mayRegister parsed = false ->
        ∃ after, state.handle (.message true (some info)) = some (registeredText info, after) ∧
          after.master = state.master ∧ after.master.getSlave parsed.slaveID = none := by
  rcases valid_afterRequests numSlaves requests with ⟨state, done, entries, sound⟩
  refine ⟨state, done, fun isRegister info may => ?_, fun info slave parsed mayNot => ?dropped⟩
  case dropped =>
    rw [mayRegister, Bool.or_eq_false_iff, isSome_eq_false_iff, isNone_iff_eq_none,
      decide_eq_false_iff_not, not_lt] at mayNot
    refine ⟨{ state with handled := state.handled + 1 }, ?_, rfl, mayNot.1⟩
    have dropped : state.master.registerSlave SlaveObject.getSlaveID (some ⟨state.handled, slave⟩) =
        some state.master := registerSlave_full sound mayNot.1 mayNot.2
    simp only [RegistrationState.handle, if_true, parsed, dropped, map_some, getD_some]
  cases isRegister with
  | false =>
    exact ⟨_, _, rfl, fun same => absurd same (invalidFormat_ne info), fun _ => rfl⟩
  | true =>
    cases parsed : SlaveInfo.new (some info) with
    | none =>
      refine ⟨JString.ofAscii ERROR_INVALID_FORMAT,
        { state with handled := state.handled + 1 }, ?_,
        fun same => absurd same (invalidFormat_ne info), fun _ => rfl⟩
      simp only [RegistrationState.handle, if_true, parsed]
    | some slave =>
      rcases sound.registerSlave (some ⟨state.handled, slave⟩) with
        ⟨master, changed, step, _⟩
      refine ⟨registeredText info, { master := master, handled := state.handled + 1 }, ?_,
        fun _ => ⟨slave, rfl, ?_⟩, fun different => absurd rfl different⟩
      · simp only [RegistrationState.handle, if_true, parsed, step, map_some,
          getD_some]
      · have room := may slave parsed
        rw [mayRegister, Bool.or_eq_true, decide_eq_true_eq] at room
        exact getSlave_of_mayRegister sound step room

/-- A request to register with a text. -/
def register (text : String) : RegistrationRequest :=
  .message true (some (JString.ofAscii text))

/-- The slave comes back under another address. -/
theorem registered_when_told_again :
    ∃ state reply after, afterRequests 1 [register "1@a:1"] = some state ∧
      state.handle (register "1@b:2") = some (reply, after) ∧
      reply = registeredText (JString.ofAscii "1@b:2") ∧
      ∃ parsed, SlaveInfo.new (some (JString.ofAscii "1@b:2")) = some parsed ∧
        after.master.getSlave parsed.slaveID = some ⟨1, parsed⟩ := by
  have observed : (afterRequests 1 [register "1@a:1"]).bind (fun state =>
      (state.handle (register "1@b:2")).map fun result =>
        (state.handled, (SlaveInfo.new (some (JString.ofAscii "1@b:2"))).map state.mayRegister,
          result.1)) = some (1, some true, registeredText (JString.ofAscii "1@b:2")) := by
    decide +kernel
  rcases registered_when_told 1 [register "1@a:1"] with ⟨state, done, told, _⟩
  rw [done, bind_some, map_eq_some_iff] at observed
  rcases observed with ⟨⟨reply, after⟩, step, same⟩
  simp only [Prod.mk.injEq] at same
  rcases same with ⟨handled, may, text⟩
  rcases told true (JString.ofAscii "1@b:2") (fun parsed is => by simpa [is] using may) with
    ⟨other, next, again, success, _⟩
  have both : (reply, after) = (other, next) := some.inj (step.symm.trans again)
  rcases Prod.mk.inj both with ⟨rfl, rfl⟩
  rw [handled] at success
  exact ⟨state, reply, after, done, step, text, success text⟩

/-- A master that expects one slave tells a second one that it is registered. -/
theorem dropped_slave_told :
    ∃ state reply after, afterRequests 1 [register "1@a:1"] = some state ∧
      state.handle (register "2@b:2") = some (reply, after) ∧
      reply = registeredText (JString.ofAscii "2@b:2") ∧ after.master.getSlave 2 = none := by
  have observed : (afterRequests 1 [register "1@a:1"]).bind (fun state =>
      (state.handle (register "2@b:2")).map fun result =>
        (result.1, result.2.master.getSlave 2)) =
          some (registeredText (JString.ofAscii "2@b:2"), none) := by
    decide +kernel
  rcases bind_eq_some_iff.mp observed with ⟨state, done, handled⟩
  rcases map_eq_some_iff.mp handled with ⟨⟨reply, after⟩, step, same⟩
  simp only [Prod.mk.injEq] at same
  exact ⟨state, reply, after, done, step, same⟩

end RegistrationState

end KVStore
end Codebank
