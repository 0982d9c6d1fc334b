import Codebank.Foundation.Links
import Codebank.Foundation.Machine
import Mathlib.Data.List.Count

namespace Codebank
namespace Pintos

open Foundation
open Function (update)

/-!
# Processes that wait for each other and exit

A parent and a child share a `wait_status`, which hangs in the parent's list of
children and to which the child has a pointer.  Each step below is one access to
shared data; between two steps any other thread may run.  A freed `wait_status`
keeps its contents, and the calls of `free` are recorded, so that a run goes on
after an access to freed memory and the access can be seen.

The handshake of `process_execute` with `start_process` is one step here.  The
`wait_status` that it makes is named by the thread identifier of the child, unless
`malloc` hands out a block that was freed: then it keeps the name of the block.
-/

/-- A `tid_t`, as the number without sign that has the same bits. -/
abbrev Tid := Nat

/-- The elements of the lists of children: the two ends of each list, and the
`child_elem` of a `wait_status`. -/
inductive Elem where
  | head (owner : Tid)
  | tail (owner : Tid)
  | entry (child : Tid)
  deriving DecidableEq

structure WaitStatus where
  /-- the holder of `count_lock` -/
  holder : Option Tid
  count : Int
  childTid : Tid
  childExitCode : Int
  childExitSem : Nat

/-- Where a thread is, with the local variables it still needs. -/
inductive Pc where
  | absent
  | user
  /-- `process_wait`: the test of the loop at an element -/
  | waitTest (child : Tid) (c : Elem)
  | waitDown (child wstatus : Tid)
  | waitRead (child wstatus : Tid)
  | waitClear (child wstatus : Tid) (exitCode : Int)
  /-- `process_exit`: the executable, the page directory and the files -/
  | release
  /-- the walk of `list_size` -/
  | sizeChildren (c : Elem)
  /-- the loop over the children, with those to delete -/
  | eachChild (c : Elem) (deleteChildren : List Tid)
  | lockChild (wstatus : Tid) (deleteChildren : List Tid)
  | countChild (wstatus : Tid) (deleteChildren : List Tid)
  | unlockChild (wstatus : Tid) (deleteChildren : List Tid)
  | nextChild (wstatus : Tid) (deleteChildren : List Tid)
  /-- the loop over the children to delete -/
  | removeChild (deleteChildren : List Tid)
  | freeChild (wstatus : Tid) (deleteChildren : List Tid)
  | lockParent
  | countParent
  | unlockParent (deallocateParent : Bool)
  | freeParent
  | upParent
  | dead
  deriving DecidableEq

/-- A call of `process_wait` that has returned.  It is noted whether the thread
had a child of that name at the time. -/
structure Waited where
  child : Tid
  own : Bool
  result : Int
  deriving DecidableEq

structure Thread where
  pc : Pc
  parentWaitStatus : Option Tid
  /-- the executable, open files and page directory are still held -/
  resources : Bool
  /-- history: the thread that called `process_execute` -/
  parent : Option Tid
  /-- history: the status passed to `exit`, or -1 when killed -/
  ended : Option Int
  /-- history: the calls of `process_wait` that have returned -/
  waited : List Waited

def Thread.absent : Thread :=
  ⟨.absent, none, false, none, none, []⟩

structure Kernel where
  threads : Tid -> Thread
  statuses : Tid -> WaitStatus
  links : Links Elem
  /-- history: the calls of `free` -/
  freed : List Tid
  nextTid : Tid

namespace Kernel

def pc (kernel : Kernel) (tid : Tid) : Pc :=
  (kernel.threads tid).pc

def setThread (kernel : Kernel) (tid : Tid) (thread : Thread) : Kernel :=
  { kernel with threads := update kernel.threads tid thread }

def goto (kernel : Kernel) (tid : Tid) (pc : Pc) : Kernel :=
  kernel.setThread tid { kernel.threads tid with pc := pc }

def setStatus (kernel : Kernel) (child : Tid) (status : WaitStatus) : Kernel :=
  { kernel with statuses := update kernel.statuses child status }

/-- `list_init` of the list of children of a thread. -/
def listInit (links : Links Elem) (owner : Tid) : Links Elem where
  next elem := if elem = .head owner then some (.tail owner)
    else if elem = .tail owner then none else links.next elem
  prev elem := if elem = .tail owner then some (.head owner)
    else if elem = .head owner then none else links.prev elem

/-- The two assignments of `list_remove`. -/
def listRemove (links : Links Elem) (elem : Elem) : Option (Links Elem) := do
  let prev <- links.prev elem
  let next <- links.next elem
  some (links.join prev next)

/-- `list_push_back`: the element goes before the tail. -/
def listPushBack (links : Links Elem) (owner : Tid) (elem : Elem) : Option (Links Elem) := do
  let last <- links.prev (.tail owner)
  some (links.insertBetween last elem (.tail owner))

def initial : Kernel where
  threads := update (fun _ => Thread.absent) 0 ⟨.user, none, true, none, none, []⟩
  statuses _ := ⟨none, 0, 0, 0, 0⟩
  links := listInit ⟨fun _ => none, fun _ => none⟩ 0
  freed := []
  nextTid := 1

/-! ## Steps -/

/-- A new thread in user mode, with an empty list of children. -/
def spawn (kernel : Kernel) (parent : Tid) (status : Option Tid) : Kernel :=
  { kernel with
    threads := update kernel.threads kernel.nextTid
      ⟨.user, status, true, some parent, none, []⟩
    links := listInit kernel.links kernel.nextTid
    nextTid := kernel.nextTid + 1 }

/-- `process_execute` up to its return, with the block that `malloc` hands out. -/
def executeIn (kernel : Kernel) (parent wstatus : Tid) : Option Kernel := do
  let spawned := kernel.spawn parent (some wstatus)
  let links <- listPushBack spawned.links parent (.entry wstatus)
  some ({ spawned with links := links }.setStatus wstatus ⟨none, 2, kernel.nextTid, -2, 0⟩)

/-- The block is a new one. -/
def processExecute (kernel : Kernel) (parent : Tid) : Option Kernel :=
  kernel.executeIn parent kernel.nextTid

/-- The block is that of a freed `wait_status`. -/
def processExecuteReusing (kernel : Kernel) (parent wstatus : Tid) : Option Kernel :=
  { kernel with freed := kernel.freed.erase wstatus }.executeIn parent wstatus

/-- The thread ends with a status: what `syscall_exit`, `force_exit` and `kill` do
before `thread_exit`. -/
def finish (kernel : Kernel) (tid : Tid) (status : Int) : Kernel :=
  let thread := kernel.threads tid
  let marked :=
    match thread.parentWaitStatus with
    | none => kernel
    | some wstatus =>
      kernel.setStatus wstatus { kernel.statuses wstatus with childExitCode := status }
  marked.setThread tid { thread with pc := .release, ended := some status }

/-- Whether a thread is a child whose `wait_status` is in the parent's list. -/
def isChild (kernel : Kernel) (parent child : Tid) : Bool :=
  decide ((kernel.threads child).parent = some parent ∧
    (kernel.threads child).parentWaitStatus ≠ none)

/-- `process_wait` returns. -/
def returnWait (kernel : Kernel) (tid child : Tid) (result : Int) : Kernel :=
  let thread := kernel.threads tid
  kernel.setThread tid { thread with
    pc := .user
    waited := thread.waited ++ [⟨child, kernel.isChild tid child, result⟩] }

def waitAt (kernel : Kernel) (tid child : Tid) (c : Elem) : Option Kernel :=
  if c = .tail tid then
    some (kernel.returnWait tid child (-1))
  else
    match c with
    | .entry wstatus =>
      if (kernel.statuses wstatus).childTid = child then
        if (kernel.statuses wstatus).childExitCode = -1 then
          some (kernel.returnWait tid child (-1))
        else
          some (kernel.goto tid (.waitDown child wstatus))
      else do
        let next <- kernel.links.next c
        some (kernel.goto tid (.waitTest child next))
    | _ => none

def semaDown (kernel : Kernel) (tid child wstatus : Tid) : Option Kernel :=
  let status := kernel.statuses wstatus
  if 0 < status.childExitSem then
    some ((kernel.setStatus wstatus { status with
      childExitSem := status.childExitSem - 1 }).goto tid (.waitRead child wstatus))
  else
    none

def clearCode (kernel : Kernel) (tid child wstatus : Tid) (exitCode : Int) : Kernel :=
  (kernel.setStatus wstatus { kernel.statuses wstatus with childExitCode := -1 }).returnWait
    tid child exitCode

def sizeAt (kernel : Kernel) (tid : Tid) (c : Elem) : Option Kernel :=
  if c = .tail tid then do
    let first <- kernel.links.next (.head tid)
    some (kernel.goto tid (.eachChild first []))
  else do
    let next <- kernel.links.next c
    some (kernel.goto tid (.sizeChildren next))

def eachAt (kernel : Kernel) (tid : Tid) (c : Elem) (deleteChildren : List Tid) : Option Kernel :=
  if c = .tail tid then
    some (kernel.goto tid (.removeChild deleteChildren))
  else
    match c with
    | .entry wstatus => some (kernel.goto tid (.lockChild wstatus deleteChildren))
    | _ => none

/-- `lock_acquire`, which waits while the lock is held. -/
def acquire (kernel : Kernel) (tid wstatus : Tid) (then_ : Pc) : Option Kernel :=
  let status := kernel.statuses wstatus
  if status.holder = none then
    some ((kernel.setStatus wstatus { status with holder := some tid }).goto tid then_)
  else
    none

def unlock (kernel : Kernel) (tid wstatus : Tid) (then_ : Pc) : Kernel :=
  (kernel.setStatus wstatus { kernel.statuses wstatus with holder := none }).goto tid then_

/-- The count is decremented and compared with zero while the lock is held. -/
def decrement (kernel : Kernel) (tid wstatus : Tid) (then_ : Bool -> Pc) : Kernel :=
  let count := (kernel.statuses wstatus).count - 1
  (kernel.setStatus wstatus { kernel.statuses wstatus with count := count }).goto tid
    (then_ (decide (count = 0)))

def countAt (wstatus : Tid) (deleteChildren : List Tid) (zero : Bool) : Pc :=
  .unlockChild wstatus (if zero then deleteChildren ++ [wstatus] else deleteChildren)

def removeAt (kernel : Kernel) (tid : Tid) : List Tid -> Option Kernel
  | [] =>
    match (kernel.threads tid).parentWaitStatus with
    | none => some (kernel.goto tid .dead)
    | some _ => some (kernel.goto tid .lockParent)
  | wstatus :: rest => do
      let links <- listRemove kernel.links (.entry wstatus)
      some ({ kernel with links := links }.goto tid (.freeChild wstatus rest))

def free (kernel : Kernel) (tid wstatus : Tid) (then_ : Pc) : Kernel :=
  { kernel with freed := kernel.freed ++ [wstatus] }.goto tid then_

def semaUp (kernel : Kernel) (tid wstatus : Tid) : Kernel :=
  let status := kernel.statuses wstatus
  (kernel.setStatus wstatus { status with childExitSem := status.childExitSem + 1 }).goto tid .dead

/-- The next step of a thread that is inside the kernel. -/
def resume (kernel : Kernel) (tid : Tid) : Option Kernel :=
  match kernel.pc tid with
  | .waitTest child c => kernel.waitAt tid child c
  | .waitDown child wstatus => kernel.semaDown tid child wstatus
  | .waitRead child wstatus =>
    some (kernel.goto tid
      (.waitClear child wstatus (kernel.statuses wstatus).childExitCode))
  | .waitClear child wstatus exitCode => some (kernel.clearCode tid child wstatus exitCode)
  | .release => do
      let first <- kernel.links.next (.head tid)
      some (kernel.setThread tid
        { kernel.threads tid with pc := .sizeChildren first, resources := false })
  | .sizeChildren c => kernel.sizeAt tid c
  | .eachChild c deleteChildren => kernel.eachAt tid c deleteChildren
  | .lockChild wstatus deleteChildren =>
    kernel.acquire tid wstatus (.countChild wstatus deleteChildren)
  | .countChild wstatus deleteChildren =>
    some (kernel.decrement tid wstatus (countAt wstatus deleteChildren))
  | .unlockChild wstatus deleteChildren =>
    some (kernel.unlock tid wstatus (.nextChild wstatus deleteChildren))
  | .nextChild wstatus deleteChildren => do
      let next <- kernel.links.next (.entry wstatus)
      some (kernel.goto tid (.eachChild next deleteChildren))
  | .removeChild deleteChildren => kernel.removeAt tid deleteChildren
  | .freeChild wstatus deleteChildren =>
    some (kernel.free tid wstatus (.removeChild deleteChildren))
  | .lockParent => do
      let wstatus <- (kernel.threads tid).parentWaitStatus
      kernel.acquire tid wstatus .countParent
  | .countParent => do
      let wstatus <- (kernel.threads tid).parentWaitStatus
      some (kernel.decrement tid wstatus .unlockParent)
  | .unlockParent deallocateParent => do
      let wstatus <- (kernel.threads tid).parentWaitStatus
      some (kernel.unlock tid wstatus (if deallocateParent then .freeParent else .upParent))
  | .freeParent => do
      let wstatus <- (kernel.threads tid).parentWaitStatus
      some (kernel.free tid wstatus .dead)
  | .upParent => do
      let wstatus <- (kernel.threads tid).parentWaitStatus
      some (kernel.semaUp tid wstatus)
  | _ => none

/-- What may happen next: a thread in user mode makes a call or is killed, or a
thread inside the kernel goes on. -/
inductive Action where
  | execute (tid : Tid)
  /-- the child runs, but its `wait_status` could not be allocated -/
  | executeWithoutStatus (tid : Tid)
  | wait (tid child : Tid)
  | exit (tid : Tid) (status : Int)
  | forceExit (tid : Tid)
  | exception (tid : Tid)
  | resume (tid : Tid)
  deriving DecidableEq

/-- Calls are made in user mode only. -/
def fromUser (kernel : Kernel) (tid : Tid) (after : Option Kernel) : Option Kernel :=
  if kernel.pc tid = .user then after else none

def next (kernel : Kernel) : Action -> Option Kernel
  | .execute tid => kernel.fromUser tid (kernel.processExecute tid)
  | .executeWithoutStatus tid => kernel.fromUser tid (some (kernel.spawn tid none))
  | .wait tid child => kernel.fromUser tid (do
      let first <- kernel.links.next (.head tid)
      some (kernel.goto tid (.waitTest child first)))
  | .exit tid status => kernel.fromUser tid (some (kernel.finish tid status))
  | .forceExit tid => kernel.fromUser tid (some (kernel.finish tid (-1)))
  | .exception tid => kernel.fromUser tid (some (kernel.finish tid (-1)))
  | .resume tid => kernel.resume tid

def Step (kernel : Kernel) (action : Action) (after : Kernel) : Prop :=
  kernel.next action = some after

/-- A step with the name of a block: `malloc` hands it out again if it was freed, and a new
block otherwise. -/
def nextIn (kernel : Kernel) : Action × Tid -> Option Kernel
  | (.execute tid, wstatus) =>
    if wstatus ∈ kernel.freed then
      kernel.fromUser tid (kernel.processExecuteReusing tid wstatus)
    else kernel.next (.execute tid)
  | (action, _) => kernel.next action

/-! ## Which `wait_status` a step reads or writes -/

def Elem.status : Elem -> List Tid
  | .entry child => [child]
  | _ => []

def neighbours (links : Links Elem) (elem : Elem) : List Tid :=
  ((links.prev elem).elim [] Elem.status) ++ ((links.next elem).elim [] Elem.status)

def resumeTouches (kernel : Kernel) (tid : Tid) : List Tid :=
  match kernel.pc tid with
  | .waitTest _ c => Elem.status c
  | .waitDown _ wstatus => [wstatus]
  | .waitRead _ wstatus => [wstatus]
  | .waitClear _ wstatus _ => [wstatus]
  | .sizeChildren c => Elem.status c
  | .lockChild wstatus _ => [wstatus]
  | .countChild wstatus _ => [wstatus]
  | .unlockChild wstatus _ => [wstatus]
  | .nextChild wstatus _ => [wstatus]
  | .removeChild (wstatus :: _) => wstatus :: neighbours kernel.links (.entry wstatus)
  | .freeChild wstatus _ => [wstatus]
  | .lockParent => (kernel.threads tid).parentWaitStatus.toList
  | .countParent => (kernel.threads tid).parentWaitStatus.toList
  | .unlockParent _ => (kernel.threads tid).parentWaitStatus.toList
  | .freeParent => (kernel.threads tid).parentWaitStatus.toList
  | .upParent => (kernel.threads tid).parentWaitStatus.toList
  | _ => []

/-- `list_push_back` writes a link of the last element. -/
def touches (kernel : Kernel) : Action -> List Tid
  | .execute tid => (kernel.links.prev (.tail tid)).elim [] Elem.status
  | .executeWithoutStatus _ => []
  | .wait _ _ => []
  | .exit tid _ => (kernel.threads tid).parentWaitStatus.toList
  | .forceExit tid => (kernel.threads tid).parentWaitStatus.toList
  | .exception tid => (kernel.threads tid).parentWaitStatus.toList
  | .resume tid => kernel.resumeTouches tid

end Kernel

end Pintos
end Codebank
