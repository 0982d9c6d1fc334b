import Codebank.Pintos.Descriptors

namespace Codebank
namespace Pintos
namespace UserMemory

open Foundation

/-!
# Accesses of system calls to the memory of the process

`syscall_handler` takes its arguments from the stack of the process and hands
pointers on to functions that read a name or fill a buffer.  `valid_user_addr`
looks up the page of one byte.  The model stops at the first access that is not to
a mapped page of the process, and at a failing assertion.
-/

/-- `PHYS_BASE` -/
def physBase : Nat := 0xC0000000

/-- `PGSIZE` -/
def pageSize : Nat := 4096

/-- The page directory and the memory of a process. -/
structure Space where
  /-- the page with this number is present -/
  present : Nat -> Bool
  memory : BitVec 32 -> BitVec 8

/-- What the functions that get a pointer depend on besides the memory. -/
structure Surroundings where
  /-- the slots of the descriptor table that hold an open file -/
  openAt : Nat -> Bool
  /-- `palloc_get_page` in `process_execute` succeeds -/
  pageFree : Bool
  /-- how much of a name the file system looks at, at most -/
  nameReads : Nat
  /-- how much a file can give or take -/
  available : Nat

/-- How much of a name `process_execute` measures: all of it, when it has a page to copy it to. -/
def Surroundings.execReads (env : Surroundings) : Nat :=
  if env.pageFree then 0x100000000 else 0

/-- How much is moved between a buffer and the console or a file.  `file_read` and `file_write`
take the size as a signed number. -/
def Surroundings.transfers (env : Surroundings) (console fd size : BitVec 32) : Nat :=
  if fd = console then size.toNat
  else if Descriptors.Process.outsideShifted fd then 0
  else if env.openAt (fd - 2).toNat then min size.toInt.toNat env.available
  else 0

/-- How much of the position `syscall_seek` reads. -/
def Surroundings.seekReads (env : Surroundings) (fd : BitVec 32) : Nat :=
  if Descriptors.Process.outside fd then 0
  else if env.openAt (fd - 2).toNat then 4
  else 0

/-- How a system call may end besides returning. -/
inductive Ending where
  | forceExit
  | threadExit
  | powerOff
  /-- an assertion of the kernel fails -/
  | assertion
  /-- an access to an address that is not in a mapped page of the process -/
  | stray (addr : BitVec 32)
  deriving DecidableEq

abbrev Kernel := Except Ending

namespace Space

/-- `pagedir_get_page` -/
def pagedirGetPage (space : Space) (uaddr : BitVec 32) : Kernel Bool :=
  if uaddr.toNat < physBase then
    .ok (space.present (uaddr.toNat / pageSize))
  else
    .error .assertion

/-- `valid_user_addr`; the sum wraps around. -/
def validUserAddr (space : Space) (uaddr : BitVec 32) : Kernel Bool :=
  if uaddr = 0 ∨ physBase < (uaddr + 4).toNat then
    .ok false
  else
    space.pagedirGetPage uaddr

/-- `if (!valid_user_addr (uaddr)) force_exit (f)` -/
def check (space : Space) (uaddr : BitVec 32) : Kernel Unit := do
  let valid <- space.validUserAddr uaddr
  if valid then pure () else throw .forceExit

/-- The byte is in a mapped page of the process. -/
def Mapped (space : Space) (addr : BitVec 32) : Prop :=
  addr.toNat < physBase ∧ space.present (addr.toNat / pageSize) = true

instance (space : Space) (addr : BitVec 32) : Decidable (space.Mapped addr) :=
  inferInstanceAs (Decidable (_ ∧ _))

/-- An access to one byte. -/
def touch (space : Space) (addr : BitVec 32) : Kernel Unit :=
  if space.Mapped addr then pure () else throw (.stray addr)

/-- The word at an address, least significant byte first. -/
def word (space : Space) (addr : BitVec 32) : BitVec 32 :=
  space.memory (addr + 3) ++ space.memory (addr + 2) ++ space.memory (addr + 1) ++
    space.memory addr

/-- The bytes from an address on. -/
def touchBytes (space : Space) : BitVec 32 -> Nat -> Kernel Unit
  | _, 0 => pure ()
  | addr, count + 1 => do
      space.touch addr
      space.touchBytes (addr + 1) count

/-- The bytes of a name with its null character, but not more than the limit. -/
def nameBytes (space : Space) : BitVec 32 -> Nat -> Nat
  | _, 0 => 0
  | addr, limit + 1 => if space.memory addr = 0 then 1 else space.nameBytes (addr + 1) limit + 1

def touchName (space : Space) (name : BitVec 32) (limit : Nat) : Kernel Unit :=
  space.touchBytes name (space.nameBytes name limit)

def readWord (space : Space) (addr : BitVec 32) : Kernel (BitVec 32) := do
  space.touchBytes addr 4
  pure (space.word addr)

/-! ## System calls -/

variable (space : Space) (env : Surroundings) (args : BitVec 32)

def syscallHalt : Kernel Unit :=
  throw .powerOff

def syscallExit : Kernel Unit := do
  space.check (args + 4)
  let _ <- space.readWord (args + 4)
  throw .threadExit

/-- A call that takes a name: `syscall_exec`, `syscall_remove` and `syscall_open`. -/
def syscallName (limit : Nat) : Kernel Unit := do
  space.check (args + 4)
  let name <- space.readWord (args + 4)
  space.check name
  space.touchName name limit

def syscallExec : Kernel Unit := space.syscallName args env.execReads

/-- A call that reads its first argument only: `syscall_wait`, `syscall_filesize`,
`syscall_tell`, `syscall_close` and `syscall_null`. -/
def syscallOneWord : Kernel Unit := do
  space.check (args + 4)
  let _ <- space.readWord (args + 4)

def syscallWait : Kernel Unit := space.syscallOneWord args

def syscallCreate : Kernel Unit := do
  space.check (args + 4)
  let name <- space.readWord (args + 4)
  space.check name
  space.check (args + 8)
  let _ <- space.readWord (args + 8)
  space.touchName name env.nameReads

def syscallRemove : Kernel Unit := space.syscallName args env.nameReads

def syscallOpen : Kernel Unit := space.syscallName args env.nameReads

def syscallFilesize : Kernel Unit := space.syscallOneWord args

/-- A transfer between a buffer and the console or a file. -/
def syscallTransfer (console : BitVec 32) : Kernel Unit := do
  space.check (args + 4)
  space.check (args + 8)
  let buffer <- space.readWord (args + 8)
  space.check buffer
  space.check (args + 12)
  let fd <- space.readWord (args + 4)
  let size <- space.readWord (args + 12)
  space.touchBytes buffer (env.transfers console fd size)

/-- `syscall_read`; the keyboard fills the whole buffer. -/
def syscallRead : Kernel Unit := space.syscallTransfer env args 0

/-- `syscall_write`; `putbuf` reads the whole buffer. -/
def syscallWrite : Kernel Unit := space.syscallTransfer env args 1

def syscallSeek : Kernel Unit := do
  space.check (args + 4)
  space.check (args + 8)
  let fd <- space.readWord (args + 4)
  space.touchBytes (args + 8) (env.seekReads fd)

def syscallTell : Kernel Unit := space.syscallOneWord args

def syscallClose : Kernel Unit := space.syscallOneWord args

def syscallNull : Kernel Unit := space.syscallOneWord args

end Space

/-- The system calls, in the order of their numbers. -/
inductive Call where
  | halt
  | exit
  | exec
  | wait
  | create
  | remove
  | open_
  | filesize
  | read
  | write
  | seek
  | tell
  | close
  | null
  deriving DecidableEq

namespace Space

variable (space : Space) (env : Surroundings) (args : BitVec 32)

def perform : Call -> Kernel Unit
  | .halt => syscallHalt
  | .exit => space.syscallExit args
  | .exec => space.syscallExec env args
  | .wait => space.syscallWait args
  | .create => space.syscallCreate env args
  | .remove => space.syscallRemove env args
  | .open_ => space.syscallOpen env args
  | .filesize => space.syscallFilesize args
  | .read => space.syscallRead env args
  | .write => space.syscallWrite env args
  | .seek => space.syscallSeek env args
  | .tell => space.syscallTell args
  | .close => space.syscallClose args
  | .null => space.syscallNull args

end Space

/-! ## Objects in memory -/

/-- Every page that an object reaches into after its first one is a mapped page of the process. -/
def Fits (space : Space) (start : BitVec 32) (length : Nat) : Prop :=
  ∀ boundary, start.toNat < boundary -> boundary < start.toNat + length ->
    boundary % pageSize = 0 -> boundary < physBase ∧ space.present (boundary / pageSize) = true

/-- The address is not one of the last four, for which the sum in `valid_user_addr` wraps around. -/
def Low (addr : BitVec 32) : Prop :=
  addr.toNat + 4 < 0x100000000

/-- The address passes the test: a word below `PHYS_BASE` with its first byte in a mapped page. -/
def Passes (space : Space) (addr : BitVec 32) : Prop :=
  addr ≠ 0 ∧ addr.toNat + 4 <= physBase ∧ space.present (addr.toNat / pageSize) = true

/-- What is asked of an address that is tested: behind the test, that the rest is met. -/
def Tested (space : Space) (addr : BitVec 32) (rest : Prop) : Prop :=
  Low addr ∧ (Passes space addr -> rest)

variable {space : Space} {env : Surroundings} {addr start : BitVec 32}

theorem Passes.mapped (passes : Passes space addr) : space.Mapped addr := by
  rcases passes with ⟨_, below, present⟩
  exact ⟨by omega, present⟩

variable (mapped : space.Mapped start) (count : Nat)

include mapped

omit mapped

/-! ## What a call is given -/

/-- What is asked of a name that is tested and read. -/
def Name (space : Space) (start : BitVec 32) (limit : Nat) : Prop :=
  Tested space start (Fits space start (space.nameBytes start limit))

variable {args : BitVec 32}

end UserMemory
end Pintos
end Codebank
