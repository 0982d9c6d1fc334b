import Codebank.Foundation.Machine
import Codebank.Foundation.Slots

namespace Codebank
namespace Pintos
namespace Descriptors

open Foundation List Function Option

/-!
# The file descriptors of a process

`syscall_open` takes a descriptor from `free_fd` or makes a new one, `syscall_close`
puts it back, and `process_exit` frees what is in the table and what is in the list.
An access outside the table, through a pointer to memory that is not allocated, or a
second `free` is a fault, and a faulting call has no result.
-/

/-- `MAX_FD` -/
def maxFd : Nat := 128

/-- `struct descriptor`; a file is named by the call of `filesys_open` that returned it. -/
structure Descriptor where
  file : Option Nat
  fd : Int
  deriving DecidableEq

/-- The part of `struct thread` that holds descriptors, and the memory they are in.  A
descriptor is named by the call of `malloc` that returned it. -/
structure Process where
  descriptors : Nat -> Option Nat
  lastFdCreated : Int
  freeFd : List Nat
  heap : Nat -> Option Descriptor
  /-- history: the number of descriptors made -/
  created : Nat
  /-- history: the descriptors freed -/
  freed : List Nat
  /-- history: the number of files opened -/
  opened : Nat
  /-- history: the files closed -/
  closed : List Nat
  exited : Bool

/-- `init_thread` -/
def initial : Process where
  descriptors := fun _ => none
  lastFdCreated := -1
  freeFd := []
  heap := fun _ => none
  created := 0
  freed := []
  opened := 0
  closed := []
  exited := false

namespace Process

/-! ## Memory -/

/-- `cur->descriptors[index] = d` -/
def store (process : Process) (index : Int) (d : Option Nat) : Option Process :=
  if 0 <= index ∧ index < maxFd then
    some { process with descriptors := update process.descriptors index.toNat d }
  else
    none

/-- `d->file = file` -/
def setFile (process : Process) (d : Nat) (file : Option Nat) : Option Process :=
  (process.heap d).map fun descriptor =>
    { process with heap := update process.heap d (some { descriptor with file := file }) }

/-- `file_close` -/
def fileClose (process : Process) (file : Nat) : Process :=
  { process with closed := file :: process.closed }

/-- `free` -/
def free (process : Process) (d : Nat) : Option Process :=
  (process.heap d).map fun _ =>
    { process with heap := update process.heap d none, freed := d :: process.freed }

/-- `d = cur->descriptors[index]` and the test `d == NULL || d->file == NULL`. -/
def lookup (process : Process) (index : Int) : Option (Option (Nat × Nat)) :=
  if 0 <= index ∧ index < maxFd then
    match process.descriptors index.toNat with
    | none => some none
    | some d => (process.heap d).map fun descriptor => descriptor.file.map fun file => (d, file)
  else
    none

/-! ## System calls -/

/-- `syscall_open`; the flags say whether `filesys_open` and `malloc` succeed. -/
def syscallOpen (process : Process) (found allocated : Bool) : Option (Int × Process) :=
  match process.freeFd with
  | d :: rest =>
    if found then
      ({ process with opened := process.opened + 1 }.setFile d (some process.opened)).bind
        fun filed => (filed.heap d).bind fun descriptor =>
          ({ filed with freeFd := rest }.store (descriptor.fd - 2) (some d)).map fun after =>
            (descriptor.fd, after)
    else
      some (-1, process)
  | [] =>
    if process.lastFdCreated < maxFd - 1 then
      if found then
        if allocated then
          ({ process with
              opened := process.opened + 1
              created := process.created + 1
              heap := update process.heap process.created
                (some ⟨some process.opened, process.lastFdCreated + 1 + 2⟩)
              lastFdCreated := process.lastFdCreated + 1 }.store
            (process.lastFdCreated + 1) (some process.created)).map fun after =>
              (process.lastFdCreated + 1 + 2, after)
        else
          some (-1, { process with opened := process.opened + 1 }.fileClose process.opened)
      else
        some (-1, process)
    else
      some (-1, process)

/-- `fd < 2 || fd - 2 >= MAX_FD` -/
def outside (fd : BitVec 32) : Bool :=
  decide (fd.toInt < 2) || decide (maxFd <= (fd - 2).toInt)

/-- `fd - 2 < 0 || fd - 2 >= MAX_FD`, where the difference wraps around -/
def outsideShifted (fd : BitVec 32) : Bool :=
  decide ((fd - 2).toInt < 0) || decide (maxFd <= (fd - 2).toInt)

/-- A call on an open file that leaves the descriptors alone; the reply is what it
writes to `eax`. -/
def fileCall (process : Process) (refused : Bool) (fd : BitVec 32) (reply : Option Int) :
    Option (Option Int × Process) :=
  if refused then
    some (some (-1), process)
  else
    (process.lookup (fd - 2).toInt).map fun
      | none => (some (-1), process)
      | some _ => (reply, process)

/-- `syscall_filesize`, with the result of `file_length` -/
def syscallFilesize (process : Process) (fd : BitVec 32) (length : Int) :
    Option (Option Int × Process) :=
  process.fileCall (outside fd) fd (some length)

/-- `syscall_read`, with the result of `file_read` -/
def syscallRead (process : Process) (fd : BitVec 32) (count : Int) :
    Option (Option Int × Process) :=
  if fd = 0 then
    some (none, process)
  else
    process.fileCall (outsideShifted fd) fd (some count)

/-- `syscall_write`, with the size given and the result of `file_write` -/
def syscallWrite (process : Process) (fd : BitVec 32) (size count : Int) :
    Option (Option Int × Process) :=
  if fd = 1 then
    some (some size, process)
  else
    process.fileCall (outsideShifted fd) fd (some count)

/-- `syscall_seek` -/
def syscallSeek (process : Process) (fd : BitVec 32) : Option (Option Int × Process) :=
  process.fileCall (outside fd) fd none

/-- `syscall_tell`, with the result of `file_tell` -/
def syscallTell (process : Process) (fd : BitVec 32) (position : Int) :
    Option (Option Int × Process) :=
  process.fileCall (outside fd) fd (some position)

/-- `syscall_close` -/
def syscallClose (process : Process) (fd : BitVec 32) : Option (Option Int × Process) :=
  if outside fd then
    some (some (-1), process)
  else
    (process.lookup (fd - 2).toInt).bind fun
      | none => some (some (-1), process)
      | some (d, file) =>
        ((process.fileClose file).setFile d none).bind fun filed =>
          (filed.store (fd - 2).toInt none).map fun after =>
            (none, { after with freeFd := after.freeFd ++ [d] })

/-- One round of the first loop of `process_exit`. -/
def releaseSlot (process : Process) (index : Nat) : Option Process :=
  match process.descriptors index with
  | none => some process
  | some d =>
    (process.heap d).bind fun descriptor =>
      match descriptor.file with
      | some file => (process.fileClose file).free d
      | none => process.free d

/-- One round of the last loop of `process_exit`: `list_remove` and `free`. -/
def releaseEntry (process : Process) (d : Nat) : Option Process :=
  { process with freeFd := process.freeFd.erase d }.free d

/-- The part of `process_exit` that deals with descriptors; `delete_descriptor` holds the
free list as it is before the last loop. -/
def processExit (process : Process) : Option Process :=
  ((List.range maxFd).foldlM releaseSlot process).bind fun cleared =>
    (cleared.freeFd.foldlM releaseEntry cleared).map fun after => { after with exited := true }

end Process

/-! ## Runs -/

inductive Call where
  | openFile (found allocated : Bool)
  | close (fd : BitVec 32)
  | filesize (fd : BitVec 32) (length : Int)
  | read (fd : BitVec 32) (count : Int)
  | write (fd : BitVec 32) (size count : Int)
  | seek (fd : BitVec 32)
  | tell (fd : BitVec 32) (position : Int)
  | exit

/-- The state after a call; `none` is a fault. -/
def perform (process : Process) : Call -> Option Process
  | .openFile found allocated => (process.syscallOpen found allocated).map Prod.snd
  | .close fd => (process.syscallClose fd).map Prod.snd
  | .filesize fd length => (process.syscallFilesize fd length).map Prod.snd
  | .read fd count => (process.syscallRead fd count).map Prod.snd
  | .write fd size count => (process.syscallWrite fd size count).map Prod.snd
  | .seek fd => (process.syscallSeek fd).map Prod.snd
  | .tell fd position => (process.syscallTell fd position).map Prod.snd
  | .exit => process.processExit

/-- A process that has exited makes no more calls. -/
def next (process : Process) (call : Call) : Option Process :=
  if process.exited then none else perform process call

def Step (process : Process) (call : Call) (after : Process) : Prop :=
  next process call = some after

/-! ## The invariant -/

namespace Process

/-- The file of a descriptor. -/
def fileAt (process : Process) (d : Nat) : Option Nat :=
  (process.heap d).bind Descriptor.file

/-- The descriptor made as number `d` has the file descriptor `d + 2`, is in the table at `d`
while it has a file and in the free list otherwise; every file opened is held by one
descriptor or closed once. -/
structure Tracked (process : Process) : Prop where
  table : ∀ index, process.descriptors index = (process.fileAt index).map fun _ => index
  heap : ∀ d, d < process.created -> ∃ file, process.heap d = some ⟨file, d + 2⟩
  busy : ∀ d, process.fileAt d ≠ none <-> d < process.created ∧ d ∉ process.freeFd
  free : ∀ d, d ∈ process.freeFd -> d < process.created
  nodup : process.freeFd.Nodup
  last : process.lastFdCreated + 1 = process.created
  bound : process.created <= maxFd
  files : ∀ file, process.closed.count file +
    occurrences process.fileAt process.created file = if file < process.opened then 1 else 0
  kept : process.freed = []

end Process

theorem initial_tracked : initial.Tracked where
  table index := rfl
  heap d below := by cases below
  busy d := by simp [initial, Process.fileAt]
  free d listed := by cases listed
  nodup := nodup_nil
  last := rfl
  bound := Nat.zero_le _
  files file := by simp [initial]
  kept := rfl

namespace Process

variable {process after : Process} {d : Nat}

/-- A write to the heap changes the file of one descriptor. -/
theorem fileAt_update {file : Option Nat} {fd : Int}
    (heap : after.heap = update process.heap d (some ⟨file, fd⟩)) :
    after.fileAt = update process.fileAt d file := by
  funext e
  unfold fileAt
  rw [heap]
  by_cases same : e = d
  · subst same
    simp
  · simp [same]

/-- Descriptor `d` is written to the heap and put at its place in the table, or taken from it
if it has no file. -/
structure Assigned (process after : Process) (d : Nat) (file : Option Nat) : Prop where
  descriptors : after.descriptors =
    update process.descriptors d (file.map fun _ => d)
  heap : after.heap = update process.heap d (some ⟨file, d + 2⟩)

namespace Tracked

variable {d : Nat}

theorem assigned_table (tracked : process.Tracked) {file : Option Nat}
    (assigned : Assigned process after d file) (index : Nat) :
    after.descriptors index = (after.fileAt index).map fun _ => index := by
  rw [assigned.descriptors, fileAt_update assigned.heap]
  by_cases same : index = d
  · subst same
    rw [update_self, update_self]
  · rw [update_of_ne same, update_of_ne same]
    exact tracked.table index

theorem assigned_heap (tracked : process.Tracked) {file : Option Nat}
    (assigned : Assigned process after d file) {e : Nat} (made : e ≠ d -> e < process.created) :
    ∃ held, after.heap e = some ⟨held, e + 2⟩ := by
  rw [assigned.heap]
  by_cases same : e = d
  · subst same
    exact ⟨file, update_self _ _ _⟩
  · rw [update_of_ne same]
    exact tracked.heap e (made same)

variable (tracked : process.Tracked)
include tracked

/-- What a lookup in the table finds. -/
theorem lookup_eq {index : Int} (low : 0 <= index) (high : index < maxFd) :
    process.lookup index = some ((process.fileAt index.toNat).map fun file =>
      (index.toNat, file)) := by
  rw [lookup, if_pos ⟨low, high⟩, tracked.table]
  cases file : process.fileAt index.toNat with
  | none => rfl
  | some held =>
    rcases bind_eq_some_iff.mp file with ⟨descriptor, stored, has⟩
    simp [stored, has]

theorem made_of_held {file : Nat} (held : process.fileAt d = some file) :
    d < process.created ∧ d ∉ process.freeFd :=
  (tracked.busy d).mp (by rw [held]; simp)

theorem idle_of_listed (listed : d ∈ process.freeFd) : process.fileAt d = none := by
  by_contra inUse
  exact ((tracked.busy d).mp inUse).2 listed

theorem idle_of_unmade (unmade : process.created <= d) : process.fileAt d = none := by
  by_contra inUse
  exact Nat.not_lt.mpr unmade ((tracked.busy d).mp inUse).1

/-- A descriptor gets another file or none, and moves between the table and the free list. -/
theorem reassign {file : Option Nat} (below : d < process.created)
    (assigned : Assigned process after d file)
    (listed : ∀ e, e ∈ after.freeFd <-> if e = d then file = none else e ∈ process.freeFd)
    (nodup : after.freeFd.Nodup) (created : after.created = process.created)
    (last : after.lastFdCreated = process.lastFdCreated) (freed : after.freed = process.freed)
    (files : ∀ held, after.closed.count held +
      occurrences (update process.fileAt d file) process.created held =
        if held < after.opened then 1 else 0) : after.Tracked where
  table := tracked.assigned_table assigned
  heap e made := tracked.assigned_heap assigned fun _ => created ▸ made
  busy e := by
    rw [fileAt_update assigned.heap, created, listed]
    by_cases same : e = d
    · subst same
      simp [below]
    · rw [update_of_ne same, tracked.busy e, if_neg same]
  free e inside := by
    rw [listed] at inside
    rw [created]
    by_cases same : e = d
    · exact same ▸ below
    · exact tracked.free e (by rwa [if_neg same] at inside)
  nodup := nodup
  last := by rw [last, created]; exact tracked.last
  bound := by rw [created]; exact tracked.bound
  files := by rw [fileAt_update assigned.heap, created]; exact files
  kept := freed.trans tracked.kept

/-- A descriptor of the free list is taken for a newly opened file. -/
theorem recycle {rest : List Nat} (listed : process.freeFd = d :: rest) :
    Tracked { process with
      descriptors := update process.descriptors d (some d)
      heap := update process.heap d (some ⟨some process.opened, d + 2⟩)
      freeFd := rest
      opened := process.opened + 1 } := by
  have first : d ∈ process.freeFd := by
    rw [listed]
    exact mem_cons_self
  have below := tracked.free d first
  have nodup := tracked.nodup
  rw [listed] at nodup
  rcases nodup_cons.mp nodup with ⟨absent, others⟩
  refine tracked.reassign below ⟨rfl, rfl⟩ (fun e => ?_) others rfl rfl rfl (fun file => ?_)
  · rw [listed]
    by_cases same : e = d
    · subst same
      simp [absent]
    · simp [same]
  · have before := tracked.files file
    have moved := occurrences_update process.fileAt below (some process.opened) file
    rw [tracked.idle_of_listed first] at moved
    simp only [some.injEq, reduceCtorEq, if_false] at moved ⊢
    split_ifs at before moved ⊢ <;> omega

/-- A new descriptor is made for a newly opened file. -/
theorem make (empty : process.freeFd = []) (room : process.created < maxFd) :
    Tracked { process with
      descriptors := update process.descriptors process.created (some process.created)
      lastFdCreated := process.created
      heap := update process.heap process.created
        (some ⟨some process.opened, process.created + 2⟩)
      created := process.created + 1
      opened := process.opened + 1 } where
  table := tracked.assigned_table ⟨rfl, rfl⟩
  heap e made := tracked.assigned_heap ⟨rfl, rfl⟩ fun other =>
    Nat.lt_of_le_of_ne (Nat.le_of_lt_succ made) other
  busy e := by
    rw [fileAt_update rfl, empty]
    by_cases same : e = process.created
    · subst same
      simp
    · rw [update_of_ne same, tracked.busy e, empty]
      simp only [not_mem_nil, not_false_eq_true, and_true]
      omega
  free e inside := by
    rw [empty] at inside
    cases inside
  nodup := tracked.nodup
  last := rfl
  bound := room
  files file := by
    have before := tracked.files file
    rw [fileAt_update rfl, occurrences_succ, update_self,
      occurrences_update_of_le (Nat.le_refl _)]
    simp only [some.injEq]
    split_ifs at before ⊢ <;> omega
  kept := tracked.kept

/-- A newly opened file is closed at once. -/
theorem discard :
    Tracked ({ process with opened := process.opened + 1 }.fileClose process.opened) where
  table := tracked.table
  heap := tracked.heap
  busy := tracked.busy
  free := tracked.free
  nodup := tracked.nodup
  last := tracked.last
  bound := tracked.bound
  files file := by
    have before := tracked.files file
    change List.count file (process.opened :: process.closed) +
      occurrences process.fileAt process.created file = if file < process.opened + 1 then 1 else 0
    rw [count_cons]
    simp only [beq_iff_eq]
    split_ifs at before ⊢ <;> omega
  kept := tracked.kept

/-- A descriptor is put on the free list, and its file is closed. -/
theorem retire {file : Nat} (held : process.fileAt d = some file) :
    Tracked { process with
      descriptors := update process.descriptors d none
      heap := update process.heap d (some ⟨none, d + 2⟩)
      freeFd := process.freeFd ++ [d]
      closed := file :: process.closed } := by
  rcases tracked.made_of_held held with ⟨below, absent⟩
  refine tracked.reassign below ⟨rfl, rfl⟩ (fun e => ?_) ?_ rfl rfl rfl (fun other => ?_)
  · by_cases same : e = d
    · subst same
      simp
    · simp [same]
  · exact nodup_append.mpr ⟨tracked.nodup, nodup_singleton d, fun e old f new same =>
      absent (mem_singleton.mp new ▸ same ▸ old)⟩
  · have before := tracked.files other
    have moved := occurrences_update process.fileAt below none other
    rw [held] at moved
    rw [count_cons]
    simp only [some.injEq, reduceCtorEq, if_false, beq_iff_eq] at moved ⊢
    split_ifs at before moved ⊢ <;> omega

end Tracked

/-! ## The calls -/

theorem inside_of_not_outside {fd : BitVec 32} (allowed : ¬ outside fd = true) :
    0 <= (fd - 2).toInt ∧ (fd - 2).toInt < maxFd := by
  simp only [outside, Bool.or_eq_true, decide_eq_true_eq, not_or, Int.not_lt, Int.not_le] at allowed
  refine ⟨?_, allowed.2⟩
  have low := allowed.1
  have small := fd.toInt_lt
  rw [BitVec.toInt_sub, Int.bmod_def]
  change 2 <= fd.toInt at low
  have two : (2 : BitVec 32).toInt = 2 := rfl
  rw [two]
  omega

theorem inside_of_not_outsideShifted {fd : BitVec 32} (allowed : ¬ outsideShifted fd = true) :
    0 <= (fd - 2).toInt ∧ (fd - 2).toInt < maxFd := by
  simp only [outsideShifted, Bool.or_eq_true, decide_eq_true_eq, not_or, Int.not_lt,
    Int.not_le] at allowed
  exact allowed

/-- What `syscall_open` may answer. -/
inductive OpenResult (process : Process) (found allocated : Bool) : Int -> Process -> Prop where
  | failed {after : Process} (descriptors : after.descriptors = process.descriptors)
      (free : after.freeFd = process.freeFd)
      (full : found = true -> allocated = true ->
        process.freeFd = [] ∧ process.created = maxFd) :
      OpenResult process found allocated (-1) after
  | opened {d : Nat} {after : Process} (below : d < maxFd)
      (idle : process.descriptors d = none)
      (descriptors : after.descriptors = update process.descriptors d (some d)) :
      OpenResult process found allocated (d + 2) after

theorem Tracked.syscallOpen_spec (tracked : process.Tracked) (found allocated : Bool) :
    ∃ result after, process.syscallOpen found allocated = some (result, after) ∧
      after.Tracked ∧ after.exited = process.exited ∧
      OpenResult process found allocated result after := by
  unfold syscallOpen
  split
  next d rest listed =>
    have first : d ∈ process.freeFd := by
      rw [listed]
      exact mem_cons_self
    have below := tracked.free d first
    have idle := tracked.idle_of_listed first
    split
    next =>
      rcases tracked.heap d below with ⟨file, held⟩
      have bound := Nat.lt_of_lt_of_le below tracked.bound
      simp only [setFile, held, store, map_some, bind_some, update_self]
      rw [if_pos (by omega), Int.add_sub_cancel, Int.toNat_natCast]
      exact ⟨_, _, rfl, tracked.recycle listed, rfl,
        .opened bound (by rw [tracked.table, idle]; rfl) rfl⟩
    next missing =>
      exact ⟨_, _, rfl, tracked, rfl, .failed rfl rfl fun present => absurd present missing⟩
  next empty =>
    split
    next room =>
      split
      next =>
        split
        next =>
          have here := tracked.last
          have bound : process.created < maxFd := by omega
          simp only [store, here]
          rw [if_pos (by omega), Int.toNat_natCast]
          exact ⟨_, _, rfl, tracked.make empty bound, rfl,
            .opened bound (by rw [tracked.table, tracked.idle_of_unmade (Nat.le_refl _)]; rfl) rfl⟩
        next unallocated =>
          exact ⟨_, _, rfl, tracked.discard, rfl,
            .failed rfl rfl fun _ present => absurd present unallocated⟩
      next missing =>
        exact ⟨_, _, rfl, tracked, rfl, .failed rfl rfl fun present => absurd present missing⟩
    next full =>
      refine ⟨_, _, rfl, tracked, rfl, .failed rfl rfl fun _ _ => ⟨empty, ?_⟩⟩
      have last := tracked.last
      have bound := tracked.bound
      omega

theorem Tracked.fileCall_spec (tracked : process.Tracked) {refused : Bool} {fd : BitVec 32}
    (inside : ¬ refused = true -> 0 <= (fd - 2).toInt ∧ (fd - 2).toInt < maxFd)
    (reply : Option Int) : (process.fileCall refused fd reply).map Prod.snd = some process := by
  unfold fileCall
  split
  next => rfl
  next allowed =>
    rw [tracked.lookup_eq (inside allowed).1 (inside allowed).2]
    cases process.fileAt (fd - 2).toInt.toNat <;> rfl

/-- What `syscall_close` may answer. -/
inductive CloseResult (process : Process) : Option Int -> Process -> Prop where
  | failed : CloseResult process (some (-1)) process
  | closed {d : Nat} {after : Process} (held : process.descriptors d = some d)
      (descriptors : after.descriptors = update process.descriptors d none)
      (free : after.freeFd = process.freeFd ++ [d]) : CloseResult process none after

theorem Tracked.syscallClose_spec (tracked : process.Tracked) (fd : BitVec 32) :
    ∃ reply after, process.syscallClose fd = some (reply, after) ∧ after.Tracked ∧
      after.exited = process.exited ∧ CloseResult process reply after := by
  unfold syscallClose
  split
  next => exact ⟨_, _, rfl, tracked, rfl, .failed⟩
  next allowed =>
    rcases inside_of_not_outside allowed with ⟨low, high⟩
    rw [tracked.lookup_eq low high]
    cases file : process.fileAt (fd - 2).toInt.toNat with
    | none => exact ⟨_, _, rfl, tracked, rfl, .failed⟩
    | some held =>
      rcases tracked.heap _ (tracked.made_of_held file).1 with ⟨before, stored⟩
      simp only [map_some, bind_some, fileClose, setFile, stored, store]
      rw [if_pos ⟨low, high⟩]
      exact ⟨_, _, rfl, tracked.retire file, rfl,
        .closed (by rw [tracked.table, file]; rfl) rfl rfl⟩

/-! ## The exit -/

/-- How far the exit of a process has got: these descriptors are freed, and their files closed. -/
structure Released (process now : Process) (gone : List Nat) : Prop where
  descriptors : now.descriptors = process.descriptors
  heap : ∀ d, now.heap d = if d ∈ gone then none else process.heap d
  freed : ∀ d, now.freed.count d = gone.count d
  closed : ∀ file, now.closed.count file =
    process.closed.count file + (gone.filterMap process.fileAt).count file

variable {now : Process} {gone : List Nat}

/-- One more descriptor is freed, and its file closed if it has one. -/
theorem Released.add (released : Released process now gone)
    (descriptors : after.descriptors = now.descriptors)
    (heap : after.heap = update now.heap d none) (freed : after.freed = d :: now.freed)
    (closed : after.closed = (process.fileAt d).toList ++ now.closed) :
    Released process after (gone ++ [d]) where
  descriptors := descriptors.trans released.descriptors
  heap e := by
    rw [heap]
    by_cases same : e = d
    · subst same
      simp
    · rw [update_of_ne same, released.heap e]
      simp [same]
  freed e := by
    rw [freed, count_cons, count_append, released.freed e, count_singleton]
  closed file := by
    rw [closed, count_append, released.closed file, filterMap_append, count_append]
    cases held : process.fileAt d with
    | none => simp [held]
    | some other =>
      simp only [toList_some, filterMap_cons, held, filterMap_nil]
      omega

section

variable (tracked : process.Tracked)

include tracked

theorem Released.releaseSlot (released : Released process now gone) {index : Nat}
    (fresh : index ∉ gone) :
    ∃ after, now.releaseSlot index = some after ∧ after.freeFd = now.freeFd ∧
      Released process after
        (gone ++ if process.fileAt index = none then [] else [index]) := by
  unfold Process.releaseSlot
  rw [released.descriptors, tracked.table index]
  cases file : process.fileAt index with
  | none =>
    refine ⟨now, rfl, rfl, ?_⟩
    rw [if_pos rfl, append_nil]
    exact released
  | some held =>
    rcases bind_eq_some_iff.mp file with ⟨descriptor, stored, has⟩
    have same : now.heap index = some descriptor := by
      rw [released.heap index, if_neg fresh]
      exact stored
    simp only [map_some, same, bind_some, has, fileClose, Process.free]
    refine ⟨_, rfl, rfl, ?_⟩
    rw [if_neg (by simp)]
    exact released.add rfl rfl rfl (by rw [file]; rfl)

/-- The first loop of `process_exit`. -/
theorem Tracked.release_table (count : Nat) :
    ∃ now, (List.range count).foldlM Process.releaseSlot process = some now ∧
      now.freeFd = process.freeFd ∧
      Released process now ((List.range count).filter fun index =>
        process.fileAt index ≠ none) := by
  induction count with
  | zero =>
    refine ⟨process, rfl, rfl, ⟨rfl, fun d => ?_, fun d => ?_, fun file => rfl⟩⟩
    · simp
    · rw [tracked.kept]
      rfl
  | succ count ih =>
    rcases ih with ⟨now, done, free, released⟩
    have fresh : count ∉ (List.range count).filter fun index => process.fileAt index ≠ none := by
      simp
    rcases released.releaseSlot tracked fresh with ⟨after, slot, same, more⟩
    refine ⟨after, ?_, same.trans free, ?_⟩
    · rw [range_succ, foldlM_append, done]
      simp [slot]
    · rw [range_succ, filter_append]
      by_cases idle : process.fileAt count = none
      · simpa [idle] using more
      · simpa [idle] using more

/-- The last loop of `process_exit`. -/
theorem Tracked.release_list (entries : List Nat) (released : Released process now gone)
    (fresh : ∀ d, d ∈ entries -> d ∉ gone) (nodup : entries.Nodup)
    (listed : ∀ d, d ∈ entries -> d ∈ process.freeFd) :
    ∃ after, entries.foldlM releaseEntry now = some after ∧
      Released process after (gone ++ entries) := by
  induction entries generalizing now gone with
  | nil => exact ⟨now, rfl, by rw [append_nil]; exact released⟩
  | cons d rest ih =>
    have here := listed d mem_cons_self
    rcases tracked.heap d (tracked.free d here) with ⟨file, stored⟩
    have same : now.heap d = some ⟨file, d + 2⟩ := by
      rw [released.heap d, if_neg (fresh d mem_cons_self)]
      exact stored
    rcases nodup_cons.mp nodup with ⟨absent, others⟩
    have entry : ∃ freed, now.releaseEntry d = some freed ∧
        Released process freed (gone ++ [d]) := by
      rw [releaseEntry, Process.free, same]
      exact ⟨_, rfl, released.add rfl rfl rfl (by rw [tracked.idle_of_listed here]; rfl)⟩
    rcases entry with ⟨freed, first, more⟩
    rcases ih more
      (fun e inside => by
        rw [mem_append, mem_singleton, not_or]
        exact ⟨fresh e (mem_cons_of_mem d inside), fun is => absent (is ▸ inside)⟩)
      others (fun e inside => listed e (mem_cons_of_mem d inside)) with ⟨after, run, result⟩
    refine ⟨after, ?_, ?_⟩
    · rw [foldlM_cons, first]
      exact run
    · rw [append_assoc] at result
      exact result

/-- Every descriptor made has a file or is in the free list, and only one of the two. -/
theorem Tracked.count_gone (d : Nat) :
    (((List.range maxFd).filter fun index => process.fileAt index ≠ none) ++
      process.freeFd).count d = if d < process.created then 1 else 0 := by
  have bound := tracked.bound
  have inTable : ((List.range maxFd).filter fun index => process.fileAt index ≠ none).count d =
      if process.fileAt d ≠ none then 1 else 0 := by
    rw [(nodup_range.filter _).count]
    refine if_congr ?_ rfl rfl
    rw [mem_filter, mem_range, decide_eq_true_eq]
    exact ⟨And.right, fun inUse => ⟨by have := ((tracked.busy d).mp inUse).1; omega, inUse⟩⟩
  rw [count_append, inTable, tracked.nodup.count]
  by_cases listed : d ∈ process.freeFd
  · rw [if_pos listed, if_pos (tracked.free d listed),
      if_neg (by simp [tracked.idle_of_listed listed])]
  · rw [if_neg listed]
    exact if_congr ((tracked.busy d).trans (and_iff_left listed)) rfl rfl

theorem Tracked.count_files (file : Nat) :
    ((((List.range maxFd).filter fun index => process.fileAt index ≠ none) ++
      process.freeFd).filterMap process.fileAt).count file =
        occurrences process.fileAt process.created file := by
  have idle : process.freeFd.filterMap process.fileAt = [] :=
    filterMap_eq_nil_iff.mpr fun _ listed => tracked.idle_of_listed listed
  have held : ((List.range maxFd).filter fun index => process.fileAt index ≠ none).filterMap
      process.fileAt = (List.range maxFd).filterMap process.fileAt := by
    rw [filterMap_filter]
    refine filterMap_congr fun index _ => ?_
    by_cases free : process.fileAt index = none <;> simp [free]
  rw [filterMap_append, idle, append_nil, held, count_filterMap_range]
  exact occurrences_extend tracked.bound fun _ unmade => tracked.idle_of_unmade unmade

theorem Tracked.processExit_spec :
    ∃ after, process.processExit = some after ∧ after.exited = true ∧
      (∀ d, after.freed.count d = if d < process.created then 1 else 0) ∧
      (∀ file, after.closed.count file = if file < process.opened then 1 else 0) := by
  rcases tracked.release_table maxFd with ⟨cleared, first, free, released⟩
  have fresh (d : Nat) (listed : d ∈ process.freeFd) :
      d ∉ (List.range maxFd).filter fun index => process.fileAt index ≠ none := by
    simp [tracked.idle_of_listed listed]
  rcases tracked.release_list process.freeFd released fresh tracked.nodup (fun _ inside => inside)
    with ⟨after, second, result⟩
  refine ⟨{ after with exited := true }, ?_, rfl, fun d => ?_, fun file => ?_⟩
  · rw [processExit, first, bind_some, free, second]
    rfl
  · rw [<- tracked.count_gone d]
    exact result.freed d
  · rw [<- tracked.files file, <- tracked.count_files file]
    exact result.closed file

end

end Process

/-! ## Whole lives -/

variable {process after : Process} {calls : List Call}

theorem Process.Tracked.perform_spec (tracked : process.Tracked) (call : Call) :
    ∃ after, perform process call = some after ∧
      (after.exited = process.exited ∧ after.Tracked ∨ after.exited = true) := by
  cases call with
  | openFile found allocated =>
    rcases tracked.syscallOpen_spec found allocated with ⟨_, after, done, kept, same, _⟩
    exact ⟨after, by rw [perform, done]; rfl, .inl ⟨same, kept⟩⟩
  | close fd =>
    rcases tracked.syscallClose_spec fd with ⟨_, after, done, kept, same, _⟩
    exact ⟨after, by rw [perform, done]; rfl, .inl ⟨same, kept⟩⟩
  | filesize fd length =>
    exact ⟨process, tracked.fileCall_spec Process.inside_of_not_outside _, .inl ⟨rfl, tracked⟩⟩
  | read fd count =>
    refine ⟨process, ?_, .inl ⟨rfl, tracked⟩⟩
    rw [perform, Process.syscallRead]
    split
    · rfl
    · exact tracked.fileCall_spec Process.inside_of_not_outsideShifted _
  | write fd size count =>
    refine ⟨process, ?_, .inl ⟨rfl, tracked⟩⟩
    rw [perform, Process.syscallWrite]
    split
    · rfl
    · exact tracked.fileCall_spec Process.inside_of_not_outsideShifted _
  | seek fd =>
    exact ⟨process, tracked.fileCall_spec Process.inside_of_not_outside _, .inl ⟨rfl, tracked⟩⟩
  | tell fd position =>
    exact ⟨process, tracked.fileCall_spec Process.inside_of_not_outside _, .inl ⟨rfl, tracked⟩⟩
  | exit =>
    rcases tracked.processExit_spec with ⟨after, done, exited, _⟩
    exact ⟨after, done, .inr exited⟩

/-- Until it exits, a process keeps track of its descriptors. -/
theorem tracked_run (run : Run Step initial calls process) (alive : process.exited = false) :
    process.Tracked := by
  induction run with
  | nil => exact initial_tracked
  | @snoc calls before after call _ last ih =>
    unfold Step next at last
    split at last
    next => cases last
    next running =>
      have tracked := ih (eq_false_of_ne_true running)
      rcases tracked.perform_spec call with ⟨other, done, ⟨_, kept⟩ | exited⟩
      · rw [done] at last
        cases last
        exact kept
      · rw [done] at last
        cases last
        rw [exited] at alive
        cases alive

/-- The table, the free list and the counter agree. -/
structure Consistent (process : Process) : Prop where
  table : ∀ index, index < maxFd -> process.descriptors index = none ∨
    ∃ d file, process.descriptors index = some d ∧
      process.heap d = some ⟨some file, index + 2⟩
  place : ∀ d, d < process.created ->
    ((∃ index, index < maxFd ∧ process.descriptors index = some d) <-> d ∉ process.freeFd)
  once : (∀ first second d, process.descriptors first = some d ->
    process.descriptors second = some d -> first = second) ∧ process.freeFd.Nodup
  made : (∀ index d, process.descriptors index = some d -> d < process.created) ∧
    ∀ d, d ∈ process.freeFd -> d < process.created
  last : process.lastFdCreated + 1 = process.created
  bound : process.created <= maxFd

section

variable (tracked : process.Tracked)

include tracked

theorem Process.Tracked.entry_eq {index d : Nat} (entry : process.descriptors index = some d) :
    index = d ∧ ∃ file, process.fileAt d = some file := by
  rw [tracked.table index] at entry
  rcases map_eq_some_iff.mp entry with ⟨file, held, same⟩
  exact ⟨same, file, same ▸ held⟩

theorem Process.Tracked.consistent : Consistent process where
  table index _ := by
    rw [tracked.table index]
    cases file : process.fileAt index with
    | none => exact .inl rfl
    | some held =>
      rcases tracked.heap index (tracked.made_of_held file).1 with ⟨stored, here⟩
      refine .inr ⟨index, held, rfl, ?_⟩
      rw [Process.fileAt, here] at file
      rw [here]
      exact congrArg some (congrArg (Descriptor.mk · _) file)
  place d made := by
    refine ⟨?_, fun unlisted => ?_⟩
    · rintro ⟨index, _, entry⟩
      rcases tracked.entry_eq entry with ⟨_, file, held⟩
      exact (tracked.made_of_held held).2
    · refine ⟨d, Nat.lt_of_lt_of_le made tracked.bound, ?_⟩
      rw [tracked.table d]
      cases file : process.fileAt d with
      | none => exact absurd file ((tracked.busy d).mpr ⟨made, unlisted⟩)
      | some held => rfl
  once := ⟨fun _ _ _ one other => (tracked.entry_eq one).1.trans (tracked.entry_eq other).1.symm,
    tracked.nodup⟩
  made := by
    refine ⟨fun index d entry => ?_, tracked.free⟩
    rcases tracked.entry_eq entry with ⟨_, file, held⟩
    exact (tracked.made_of_held held).1
  last := tracked.last
  bound := tracked.bound

theorem Process.Tracked.table_full (empty : process.freeFd = []) (full : process.created = maxFd)
    {index : Nat} (below : index < maxFd) : process.descriptors index ≠ none := by
  have inUse := (tracked.busy index).mpr ⟨full ▸ below, by rw [empty]; exact not_mem_nil⟩
  rw [tracked.table index]
  simpa using inUse

theorem Process.Tracked.closed_of_open {d file : Nat} (held : process.fileAt d = some file) :
    process.closed.count file = 0 ∧ file < process.opened := by
  have made := tracked.made_of_held held
  have files := tracked.files file
  have counted : occurrences process.fileAt process.created file ≠ 0 :=
    fun none => occurrences_eq_zero.mp none d made.1 held
  split_ifs at files <;> omega

theorem Process.Tracked.closed_of_not_open {file : Nat}
    (unheld : ∀ index d, process.descriptors index = some d -> process.fileAt d ≠ some file) :
    process.closed.count file = if file < process.opened then 1 else 0 := by
  have none : occurrences process.fileAt process.created file = 0 := by
    refine occurrences_eq_zero.mpr fun d _ held => unheld d d ?_ held
    rw [tracked.table d, held]
    rfl
  have files := tracked.files file
  rw [none] at files
  exact files

end

/-- Over every history of calls the table, the free list and the counter agree; no call
faults; `open` gives out a file descriptor that was not in use, and lacks one only when all
are in use; a failing `open` or `close` changes neither the table nor the list; and an exit
frees every descriptor once and closes every open file once and no other. -/
theorem descriptor_table_consistent (run : Run Step initial calls process)
    (alive : process.exited = false) :
    Consistent process ∧ (∀ call, perform process call ≠ none) ∧
    (∀ found allocated, ∃ result after,
      process.syscallOpen found allocated = some (result, after) ∧
      (result = -1 ∧ after.descriptors = process.descriptors ∧ after.freeFd = process.freeFd ∧
          (found = true -> allocated = true ->
            ∀ index, index < maxFd -> process.descriptors index ≠ none) ∨
        2 <= result ∧ result < maxFd + 2 ∧ process.descriptors (result - 2).toNat = none)) ∧
    (∀ fd, ∃ reply after, process.syscallClose fd = some (reply, after) ∧
      (reply = some (-1) -> after.descriptors = process.descriptors ∧
        after.freeFd = process.freeFd)) ∧
    (∃ after, process.processExit = some after ∧
      (∀ d, after.freed.count d = if d < process.created then 1 else 0) ∧
      (∀ index d file, process.descriptors index = some d -> process.fileAt d = some file ->
        process.closed.count file = 0 ∧ after.closed.count file = 1) ∧
      (∀ file,
        (∀ index d, process.descriptors index = some d -> process.fileAt d ≠ some file) ->
          after.closed.count file = process.closed.count file)) := by
  have tracked := tracked_run run alive
  refine ⟨tracked.consistent, fun call => ?_, fun found allocated => ?_, fun fd => ?_, ?_⟩
  · rcases tracked.perform_spec call with ⟨after, done, _⟩
    rw [done]
    simp
  · rcases tracked.syscallOpen_spec found allocated with ⟨result, after, done, _, _, answer⟩
    refine ⟨result, after, done, ?_⟩
    cases answer with
    | failed descriptors free full =>
      refine .inl ⟨rfl, descriptors, free, fun present made index below => ?_⟩
      rcases full present made with ⟨empty, all⟩
      exact tracked.table_full empty all below
    | opened below idle _ =>
      refine .inr ⟨by omega, by omega, ?_⟩
      rw [Int.add_sub_cancel, Int.toNat_natCast]
      exact idle
  · rcases tracked.syscallClose_spec fd with ⟨reply, after, done, _, _, answer⟩
    refine ⟨reply, after, done, fun failed => ?_⟩
    cases answer with
    | failed => exact ⟨rfl, rfl⟩
    | closed _ _ _ => cases failed
  · rcases tracked.processExit_spec with ⟨after, done, _, freed, closed⟩
    refine ⟨after, done, freed, fun _ d file _ held => ?_, fun file unheld => ?_⟩
    · rcases tracked.closed_of_open held with ⟨before, opened⟩
      exact ⟨before, by rw [closed file, if_pos opened]⟩
    · rw [closed file, tracked.closed_of_not_open unheld]

/-- Two files are opened, one is closed, and a third takes its descriptor. -/
def openTwice : List Call :=
  [.openFile true true, .openFile true true, .close 2, .openFile true false, .close 3, .read 7 0]

theorem descriptor_table_consistent_openTwice :
    ∃ process, Run Step initial openTwice process ∧ process.lastFdCreated = 1 ∧
      process.freeFd = [1] ∧ process.descriptors 0 = some 0 ∧ process.fileAt 0 = some 2 ∧
      ∃ after, process.processExit = some after ∧ after.freed.count 1 = 1 ∧
        process.closed.count 2 = 0 ∧ after.closed.count 2 = 1 := by
  have observed : (openTwice.foldlM next initial).map (fun process =>
      ((process.exited, process.created, process.lastFdCreated),
        (process.freeFd, process.descriptors 0, process.fileAt 0))) =
        some ((false, 2, 1), ([1], some 0, some 2)) := by
    decide +kernel
  rcases map_eq_some_iff.mp observed with ⟨process, done, same⟩
  simp only [Prod.mk.injEq] at same
  rcases same with ⟨⟨alive, created, last⟩, free, entry, held⟩
  have run : Run Step initial openTwice process := run_of_foldlM id done
  rcases descriptor_table_consistent run alive with ⟨_, _, _, _, after, exits, freed, files, _⟩
  have counts := files 0 0 2 entry held
  refine ⟨process, run, last, free, entry, held, after, exits, ?_, counts.1, counts.2⟩
  rw [freed 1, created]
  rfl

end Descriptors
end Pintos
end Codebank
