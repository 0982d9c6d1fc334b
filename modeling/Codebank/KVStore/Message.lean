import Mathlib.Data.BitVec

namespace Codebank
namespace KVStore

/-!
# Strings, error texts and messages of the key-value store

Java strings are sequences of UTF-16 code units, and both `length()` and
`hashCode()` count those units, so a string is modelled as a list of 16-bit
words rather than as a Lean `String`.  Error texts are never inspected beyond
equality with the `SUCCESS` constant and stay ordinary `String`s.

Java distinguishes the checked `KVException`, which the handlers turn into a
reply, from runtime exceptions, which escape the handler and end the worker
thread.  Both are values of `Fault`, because which of the two is raised decides
whether a reply is sent at all.
-/

/-- A Java string: its UTF-16 code units. -/
abbrev JString := List UInt16

namespace JString

/-- `String.hashCode()`: a polynomial in 31 over 32-bit wrap-around arithmetic. -/
def hashCode (string : JString) : BitVec 32 :=
  string.foldl (fun hash unit => 31 * hash + unit.toBitVec.zeroExtend 32) 0

/-- The code units of an ASCII literal. -/
def ofAscii (literal : String) : JString :=
  literal.toList.map (fun c => c.toNat.toUInt16)

end JString

/-- `Math.abs(int)`.  The minimal `int` has no positive counterpart: its
negation wraps around to itself. -/
def mathAbs (value : BitVec 32) : BitVec 32 :=
  if value.toInt < 0 then -value else value

def SUCCESS : String := "Success"
def ERROR_SOCKET_TIMEOUT : String := "Network Error: Socket timeout"
def ERROR_INVALID_FORMAT : String := "XML Error: Message format incorrect"
def ERROR_NO_SUCH_KEY : String := "Data Error: Key does not exist"
def ERROR_OVERSIZED_KEY : String := "Data Error: Oversized key"
def ERROR_OVERSIZED_VALUE : String := "Data Error: Oversized value"
def ERROR_INVALID_KEY : String := "Data Error: Null or empty key"
def ERROR_INVALID_VALUE : String := "Data Error: Null or empty value"

/-- What a Java call can throw here.  Only `kv` is caught by the handlers. -/
inductive Fault where
  | kv (message : String)
  | arrayIndexOutOfBounds
  | noSuchElement
  | nullPointer
  deriving DecidableEq, Repr

/-- The message types that `KVConstants` names and the 2PC code compares with. -/
inductive MsgType where
  | getReq
  | putReq
  | delReq
  | resp
  | ready
  | abort
  | commit
  | ack
  deriving DecidableEq, Repr

/-- A `KVMessage`; `none` is Java's `null`. -/
structure KVMessage where
  msgType : MsgType
  key : Option JString := none
  value : Option JString := none
  message : Option String := none
  deriving DecidableEq, Repr

/-- `new KVException(text).getKVMessage()`: the reply a handler sends for it. -/
def KVMessage.ofError (text : String) : KVMessage :=
  { msgType := .resp, message := some text }

end KVStore
end Codebank
