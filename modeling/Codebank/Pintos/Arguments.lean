import Codebank.Foundation.ByteMemory
import Codebank.Pintos.Strings
import Codebank.Pintos.UserMemory

namespace Codebank
namespace Pintos
namespace Arguments

open Foundation Strings UserMemory Option List

/-!
# Argument passing

`start_process` cuts the command line into words and lays them out at the top of the
stack page that `load` has mapped: the arguments in order, the program name, zero
bytes up to a word boundary, the table of pointers, and the three words the program
starts with.  Every write goes through the mapping and every use of the local array
`argv` is checked against its length; the model stops at one that fails.  The room
that the kernel's own stack has for this array is not part of the model.
-/

variable {page content : Bytes} {length : Nat} {stack : Stack}

/-- `esp` goes down by the size of the string, which is copied there. -/
def pushString (stack : Stack) (page : Bytes) (string : Nat) : Option Stack := do
  let length <- strlen page string
  stack.push (readAt page string (length + 1))

/-- `argv[index] = value`; an entry that was not assigned has no value. -/
def setArgv (argv : List (Option Nat)) (index value : Nat) : Option (List (Option Nat)) :=
  if index < argv.length then some (argv.set index (some value)) else none

/-- What the copying of the arguments works on. -/
structure Frame where
  stack : Stack
  argv : List (Option Nat)
  argc : Nat

/-- The loop that copies the words behind the program name.  It gives back the page as
well, in which `strtok_r` has written. -/
def copyArguments : Nat -> Frame -> Tokenized -> Option (Frame × Bytes)
  | 0, _, _ => none
  | fuel + 1, frame, state =>
    match state.token with
    | none => some (frame, state.buffer)
    | some currTok => do
        let stack <- pushString frame.stack state.buffer currTok
        let argv <- setArgv frame.argv frame.argc stack.pointer
        let next <- strtokR state.buffer state.savePtr [space]
        copyArguments fuel ⟨stack, argv, frame.argc + 1⟩ next

/-- The loop that pushes zero bytes up to a word boundary -/
def align : Nat -> Stack -> Option Stack
  | 0, _ => none
  | fuel + 1, stack =>
    if stack.pointer % 4 ≠ 0 then do
      let pushed <- stack.push [0]
      align fuel pushed
    else some stack

/-- What the table gets at `index` -/
def pointer (argv : List (Option Nat)) (argc index : Nat) : Option Nat :=
  if index = argc then some 0 else argv[index]?.join

open ByteMemory (wordBytes table length_wordBytes length_table)

/-- The loop over `index`, from one below the last argument down to zero -/
def pushPointers (argv : List (Option Nat)) (argc : Nat) : Nat -> Stack -> Option Stack
  | 0, stack => some stack
  | index + 1, stack => do
      let value <- pointer argv argc index
      let pushed <- stack.push (wordBytes value)
      pushPointers argv argc index pushed

/-- What `start_process` does once the strings are copied -/
def pushTable (argv : List (Option Nat)) (argc : Nat) (stack : Stack) : Option Stack := do
  -- at most three zero bytes are needed
  let aligned <- align 4 stack
  let listed <- pushPointers argv argc (argc + 1) aligned
  let withArgv <- listed.push (wordBytes listed.pointer)
  let withArgc <- withArgv.push (wordBytes argc)
  withArgc.push (wordBytes 0)

/-- `setup_stack`: a zeroed page is mapped below `PHYS_BASE`. -/
def setupStack (segments : ByteMemory) : ByteMemory :=
  fun address =>
    if physBase - pageSize <= address ∧ address < physBase then some 0 else segments address

/-- `start_process` up to the return to user mode, for a program whose segments are
loaded -/
def startProcess (segments : ByteMemory) (fileName : Bytes) : Option Stack := do
  let fnLen <- strlen fileName 0
  let first <- strtokR fileName 0 [space]
  let programName <- first.token
  let second <- strtokR first.buffer first.savePtr [space]
  -- there are fewer words than bytes, so that the loop ends
  let copied <- copyArguments (fileName.length + 1)
    ⟨⟨setupStack segments, physBase⟩, replicate (fnLen / 2 + 1) none, 1⟩ second
  let named <- pushString copied.1.stack copied.2 programName
  let argv <- setArgv copied.1.argv 0 named.pointer
  pushTable argv copied.1.argc named

/-- The stack page holds these bytes from the stack pointer on. -/
abbrev Holds (stack : Stack) (content : Bytes) : Prop :=
  stack.Holds (physBase - pageSize) physBase content

theorem page_below : physBase - pageSize + pageSize = physBase := by decide

theorem physBase_lt : physBase < 2 ^ 32 := by decide

theorem setupStack_holds (segments : ByteMemory) : Holds ⟨setupStack segments, physBase⟩ [] := by
  refine ⟨fun place low high => ?_, rfl, rfl⟩
  have mapped : setupStack segments place = some 0 := if_pos ⟨low, high⟩
  exact isSome_of_eq_some mapped

theorem Holds.push (holds : Holds stack content) (bytes : Bytes)
    (room : bytes.length + content.length <= pageSize) :
    ∃ after, stack.push bytes = some after ∧ Holds after (bytes ++ content) :=
  Stack.Holds.push holds bytes (by have := page_below; omega)

theorem Holds.pushString (holds : Holds stack content) {offset : Nat} {string : Bytes}
    (stands : StringAt page offset string)
    (room : (string ++ [0]).length + content.length <= pageSize) :
    ∃ after, pushString stack page offset = some after ∧
      Holds after ((string ++ [0]) ++ content) ∧
      after.pointer = physBase - ((string ++ [0]) ++ content).length := by
  obtain ⟨after, pushes, result⟩ := Holds.push holds _ room
  refine ⟨after, ?_, result, Nat.eq_sub_of_add_eq result.reaches⟩
  rw [Arguments.pushString, stands.strlen]
  exact (congrArg stack.push stands.readAt).trans pushes

/-! ## The strings -/

/-- What `strtok_r` has given when these words are left, and that it has not touched the
program name. -/
inductive Awaiting (name : Nat) (program : Bytes) : Tokenized -> List Bytes -> Prop where
  | done {state : Tokenized} (stands : StringAt state.buffer name program)
      (none : state.token = none) : Awaiting name program state []
  | word {state : Tokenized} {token : Nat} {word : Bytes} {left : List Bytes}
      (stands : StringAt state.buffer name program) (found : state.token = some token)
      (here : StringAt state.buffer token word)
      (remaining : Remaining state.buffer state.savePtr left)
      (behind : name + program.length + 1 <= state.savePtr) :
      Awaiting name program state (word :: left)

theorem strtokR_awaiting {name offset : Nat} {program : Bytes} {left : List Bytes}
    (stands : StringAt page name program) (remaining : Remaining page offset left)
    (behind : name + program.length + 1 <= offset ∨ left = []) :
    ∃ state, strtokR page offset [space] = some state ∧ Awaiting name program state left := by
  cases left with
  | nil =>
    obtain ⟨savePtr, called⟩ := strtokR_end remaining
    exact ⟨_, called, .done stands rfl⟩
  | cons word left =>
    have before := behind.resolve_right (cons_ne_nil word left)
    obtain ⟨state, token, called, takes⟩ := strtokR_next remaining
    exact ⟨state, called, .word (stands.kept before takes.same) takes.found takes.stands
      takes.remaining (Nat.le_trans before takes.forward)⟩

/-- The bytes that the copies of words take -/
def copySize (strings : List Bytes) : Nat :=
  (strings.map (fun string => string.length + 1)).sum

theorem copySize_append (strings more : List Bytes) :
    copySize (strings ++ more) = copySize strings + copySize more := by
  rw [copySize, map_append, sum_append, copySize, copySize]

/-- The strings copied so far are on the stack, and their addresses are in `argv` behind the
place for the program name. -/
structure Copied (frame : Frame) (length : Nat) (strings : List Bytes) (content : Bytes)
    (blocks : List (Nat × Bytes)) : Prop where
  holds : Holds frame.stack content
  pushed : Stack.Pushed physBase content blocks
  copies : blocks.map Prod.snd = strings.map (fun string => string ++ [0])
  size : content.length = copySize strings
  argc : frame.argc = strings.length + 1
  argv : ∃ name rest, frame.argv = name :: (blocks.map (fun block => some block.1) ++ rest)
  length : frame.argv.length = length

theorem setArgv_next (name : Option Nat) (front rest : List (Option Nat)) (value : Nat)
    (room : front.length + 1 < (name :: (front ++ rest)).length) :
    ∃ later, setArgv (name :: (front ++ rest)) (front.length + 1) value =
      some (name :: ((front ++ [some value]) ++ later)) := by
  cases rest with
  | nil => exact absurd room (by simp)
  | cons old later =>
    refine ⟨later, (if_pos room).trans ?_⟩
    rw [set_cons_succ, set_append_right _ _ (Nat.le_refl _), Nat.sub_self,
      set_cons_zero, append_assoc, singleton_append]

theorem length_setArgv {argv after : List (Option Nat)} {index value : Nat}
    (assigned : setArgv argv index value = some after) : after.length = argv.length := by
  rw [setArgv] at assigned
  split at assigned
  · rw [<- some.inj assigned, length_set]
  · cases assigned

section

variable {frame : Frame} {strings : List Bytes} {blocks : List (Nat × Bytes)} {offset : Nat}
  {word : Bytes}

section

variable (copied : Copied frame length strings content blocks)

include copied

theorem Copied.length_blocks : blocks.length = strings.length := by
  have lengths := congrArg List.length copied.copies
  rw [length_map, length_map] at lengths
  exact lengths

/-- A string is pushed as a further block. -/
theorem Copied.push (stands : StringAt page offset word)
    (room : copySize (strings ++ [word]) <= pageSize) :
    ∃ after, pushString frame.stack page offset = some after ∧
      Holds after ((word ++ [0]) ++ content) ∧
      Stack.Pushed physBase ((word ++ [0]) ++ content) (blocks ++ [(after.pointer, word ++ [0])]) ∧
      ((word ++ [0]) ++ content).length = copySize (strings ++ [word]) := by
  have sizes : ((word ++ [0]) ++ content).length = copySize (strings ++ [word]) := by
    rw [copySize_append, length_append, copied.size, Nat.add_comm, length_append]
    rfl
  rw [<- sizes, length_append] at room
  obtain ⟨after, pushes, holds, place⟩ := copied.holds.pushString stands room
  exact ⟨after, pushes, holds, place ▸ .push (word ++ [0]) copied.pushed, sizes⟩

theorem Copied.copy (stands : StringAt page offset word) (index : strings.length + 1 < length)
    (room : copySize (strings ++ [word]) <= pageSize) :
    ∃ stack argv content blocks, pushString frame.stack page offset = some stack ∧
      setArgv frame.argv frame.argc stack.pointer = some argv ∧
      Copied ⟨stack, argv, frame.argc + 1⟩ length (strings ++ [word]) content blocks := by
  obtain ⟨after, pushes, holds, pushed, sizes⟩ := copied.push stands room
  obtain ⟨name, rest, shape⟩ := copied.argv
  have count : (blocks.map (fun block => some block.1)).length + 1 = frame.argc := by
    rw [length_map, copied.length_blocks, copied.argc]
  obtain ⟨later, assigned⟩ := setArgv_next name _ rest after.pointer
    (by rw [count, <- shape, copied.length, copied.argc]; exact index)
  rw [<- shape, count] at assigned
  refine ⟨after, _, _, _, pushes, assigned, holds, pushed, ?_, sizes, ?_, ⟨name, later, ?_⟩, ?_⟩
  · rw [map_append, copied.copies, map_append]
    rfl
  · rw [length_append, copied.argc]
    rfl
  · rw [map_append]
    rfl
  · exact (length_setArgv assigned).trans copied.length

end

theorem copyArguments_copied (fuel : Nat) {name : Nat} {program : Bytes} {left : List Bytes}
    {state : Tokenized} (awaiting : Awaiting name program state left)
    (copied : Copied frame length strings content blocks) (enough : left.length < fuel)
    (indices : strings.length + left.length + 1 <= length)
    (room : copySize (strings ++ left) <= pageSize) :
    ∃ after buffer content blocks, copyArguments fuel frame state = some (after, buffer) ∧
      Copied after length (strings ++ left) content blocks ∧ StringAt buffer name program := by
  induction left generalizing fuel strings frame state content blocks with
  | nil =>
    obtain ⟨fuel, rfl⟩ := Nat.exists_eq_succ_of_ne_zero (Nat.ne_of_gt enough)
    cases awaiting with
    | done stands none =>
      refine ⟨frame, state.buffer, content, blocks, ?_, (append_nil strings).symm ▸ copied,
        stands⟩
      rw [copyArguments, none]
  | cons word left ih =>
    obtain ⟨fuel, rfl⟩ := Nat.exists_eq_succ_of_ne_zero (Nat.ne_of_gt (Nat.zero_lt_of_lt enough))
    rw [length_cons] at indices enough
    rw [append_cons] at room ⊢
    cases awaiting with
    | word stands found here remaining behind =>
      have less : copySize (strings ++ [word]) <= pageSize :=
        Nat.le_trans (Nat.le_add_right _ _) (copySize_append _ left ▸ room)
      obtain ⟨stack, argv, _, _, pushes, assigned, more⟩ := copied.copy here (by omega) less
      obtain ⟨next, called, awaiting⟩ := strtokR_awaiting stands remaining (.inl behind)
      obtain ⟨after, buffer, _, _, runs, result⟩ := ih fuel awaiting more
        (Nat.lt_of_succ_lt_succ enough) (by rw [length_append, length_singleton]; omega)
        room
      refine ⟨after, buffer, _, _, ?_, result⟩
      rw [copyArguments, found]
      simp only [bind_eq_bind, pushes, assigned, called, bind_some, runs]

end

/-! ## The table -/

theorem align_holds (fuel : Nat) {pad : Nat} (holds : Holds stack content)
    (excess : stack.pointer % 4 = pad) (enough : pad < fuel)
    (room : pad + content.length <= pageSize) :
    ∃ aligned, align fuel stack = some aligned ∧
      Holds aligned (replicate pad 0 ++ content) := by
  induction pad generalizing fuel stack content with
  | zero =>
    obtain ⟨fuel, rfl⟩ := Nat.exists_eq_succ_of_ne_zero (Nat.ne_of_gt enough)
    refine ⟨stack, ?_, holds⟩
    rw [align, if_neg (not_not_intro excess)]
  | succ pad ih =>
    obtain ⟨fuel, rfl⟩ := Nat.exists_eq_succ_of_ne_zero (Nat.ne_of_gt (Nat.zero_lt_of_lt enough))
    have misaligned : stack.pointer % 4 ≠ 0 := by omega
    obtain ⟨pushed, pushes, more⟩ := holds.push [0] (by rw [length_singleton]; omega)
    have before := holds.reaches
    have after := more.reaches
    rw [length_append, length_singleton] at after
    obtain ⟨aligned, aligns, result⟩ := ih fuel more (by omega) (Nat.lt_of_succ_lt_succ enough)
      (by rw [length_append, length_singleton]; omega)
    refine ⟨aligned, ?_, ?_⟩
    · rw [align, if_pos misaligned, pushes]
      exact aligns
    · rw [<- append_assoc, <- replicate_succ'] at result
      exact result

section

variable {entries : List Nat}

theorem pointer_eq (rest : List (Option Nat)) {index : Nat} (inside : index <= entries.length) :
    pointer (entries.map some ++ rest) entries.length index = (entries ++ [0])[index]? := by
  by_cases last : index = entries.length
  case pos => rw [pointer, if_pos last, last, getElem?_concat_length]
  case neg =>
    have before : index < entries.length := by omega
    have mapped : index < (entries.map some).length := by rwa [length_map]
    rw [pointer, if_neg last, getElem?_append_left mapped, getElem?_append_left before,
      getElem?_map, getElem?_eq_getElem before]
    rfl

theorem pushPointers_holds (rest : List (Option Nat)) (count : Nat) (holds : Holds stack content)
    (bound : count <= entries.length + 1) (room : 4 * count + content.length <= pageSize) :
    ∃ pushed, pushPointers (entries.map some ++ rest) entries.length count stack = some pushed ∧
      Holds pushed (table ((entries ++ [0]).take count) ++ content) := by
  induction count generalizing stack content with
  | zero => exact ⟨stack, rfl, holds⟩
  | succ index ih =>
    have inside : index < (entries ++ [0]).length := by
      rw [length_append, length_singleton]
      omega
    have read := (pointer_eq rest (Nat.le_of_succ_le_succ bound)).trans
      (getElem?_eq_getElem inside)
    obtain ⟨pushed, pushes, more⟩ := holds.push (wordBytes (entries ++ [0])[index])
      (by rw [length_wordBytes]; omega)
    obtain ⟨after, runs, result⟩ := ih more (by omega)
      (by rw [length_append, length_wordBytes]; omega)
    refine ⟨after, ?_, ?_⟩
    · simp only [pushPointers, read, bind_eq_bind, bind_some, pushes, runs]
    · rw [take_succ_eq_append_getElem inside, ByteMemory.table_append, append_assoc]
      exact result

/-- What is on the stack when the program starts, above the strings -/
def start (entries : List Nat) (argv pad : Nat) : Bytes :=
  table [0, entries.length, argv] ++
    (table (entries ++ [0]) ++ replicate pad 0)

theorem length_start (argv pad : Nat) :
    (start entries argv pad).length = 12 + (4 * (entries.length + 1) + pad) := by
  rw [start, length_append, length_append, length_replicate, length_table,
    length_table, length_append]
  rfl

theorem pushTable_holds (rest : List (Option Nat)) (holds : Holds stack content)
    (room : (content.length + 3) / 4 * 4 + 4 * (entries.length + 1) + 12 <= pageSize) :
    ∃ entered pad, pushTable (entries.map some ++ rest) entries.length stack = some entered ∧
      Holds entered (start entries (entered.pointer + 12) pad ++ content) ∧
      entered.pointer % 4 = 0 := by
  have base : physBase % 4 = 0 := by decide
  have strings := holds.reaches
  obtain ⟨aligned, aligns, padded⟩ := align_holds 4 holds rfl (by omega) (by omega)
  have paddedLength : (replicate (stack.pointer % 4) 0 ++ content).length =
      stack.pointer % 4 + content.length := by
    rw [length_append, length_replicate]
  obtain ⟨listed, lists, tabled⟩ :=
    pushPointers_holds rest (entries.length + 1) padded (Nat.le_refl _) (by omega)
  have whole : (entries ++ [0]).take (entries.length + 1) = entries ++ [0] :=
    take_of_length_le (by rw [length_append, length_singleton])
  rw [whole] at tabled
  have tabledLength : (table (entries ++ [0]) ++
      (replicate (stack.pointer % 4) 0 ++ content)).length =
        4 * (entries.length + 1) + (stack.pointer % 4 + content.length) := by
    rw [length_append, paddedLength, length_table, length_append,
      length_singleton]
  obtain ⟨withArgv, first, one⟩ := tabled.push (wordBytes listed.pointer)
    (by rw [length_wordBytes]; omega)
  obtain ⟨withArgc, second, two⟩ := one.push (wordBytes entries.length)
    (by simp only [length_append, length_wordBytes] at tabledLength ⊢; omega)
  obtain ⟨entered, third, three⟩ := two.push (wordBytes 0)
    (by simp only [length_append, length_wordBytes] at tabledLength ⊢; omega)
  have listedPlace := tabled.reaches
  have place := three.reaches
  simp only [length_append, length_wordBytes] at place tabledLength listedPlace
  have below : listed.pointer = entered.pointer + 12 := by omega
  refine ⟨entered, stack.pointer % 4, ?_, ?_, by omega⟩
  · simp only [pushTable, bind_eq_bind, aligns, bind_some, lists, first, second, third]
  · rw [start, append_assoc, append_assoc, <- below]
    exact three

end

/-! ## What the program finds -/

/-- The stack a program finds when it starts, with copies of its arguments at these
addresses: the return address, `argc` and `argv`, and the table `argv` points to, apart
from the copies. -/
structure UserStack (stack : Stack) (argv : Nat) (copies : List (Nat × Bytes)) : Prop where
  aligned : stack.pointer % 4 = 0
  returnAddress : stack.memory.loadWord stack.pointer = some 0
  argcWord : stack.memory.loadWord (stack.pointer + 4) = some copies.length
  argvWord : stack.memory.loadWord (stack.pointer + 8) = some argv
  entry : ∀ index : Nat, index < copies.length ->
    stack.memory.loadWord (argv + 4 * index) = (copies[index]?).map Prod.fst
  null : stack.memory.loadWord (argv + 4 * copies.length) = some 0
  inside : stack.pointer + 12 <= argv ∧ argv + 4 * (copies.length + 1) <= physBase
  strings : ∀ copy, copy ∈ copies ->
    stack.memory.loadBytes copy.1 copy.2.length = some copy.2 ∧
      argv + 4 * (copies.length + 1) <= copy.1 ∧ copy.1 + copy.2.length <= physBase
  apart : copies.Pairwise Stack.Apart

theorem userStack_of_holds {copies blocks : List (Nat × Bytes)} {pad : Nat}
    (holds : Holds stack (start (copies.map Prod.fst) (stack.pointer + 12) pad ++ content))
    (pushed : Stack.Pushed physBase content blocks) (order : blocks.Perm copies)
    (aligned : stack.pointer % 4 = 0) : UserStack stack (stack.pointer + 12) copies := by
  obtain ⟨placed, apart⟩ := pushed.blocks holds
  have reaches := holds.reaches
  rw [length_append] at reaches
  have below := physBase_lt
  rw [length_start, length_map] at placed reaches
  rw [start, append_assoc] at holds
  have words : ∀ (index : Nat) {value : Nat},
      [0, (copies.map Prod.fst).length, stack.pointer + 12][index]? = some value ->
      value < 2 ^ 32 ->
      stack.memory.loadWord (stack.pointer + 4 * index) = some value :=
    fun _ _ listed small => ByteMemory.table_word [] holds listed small
  rw [append_assoc] at holds
  have entries : ∀ {index value : Nat}, (copies.map Prod.fst ++ [0])[index]? = some value ->
      value < 2 ^ 32 -> stack.memory.loadWord (stack.pointer + 12 + 4 * index) = some value :=
    fun listed small => ByteMemory.table_word _ holds listed small
  refine ⟨aligned, words 0 rfl (by decide), ?_, words 2 rfl (by omega), ?_, ?_,
    ⟨Nat.le_refl _, by omega⟩,
    ?_, order.pairwise apart Or.symm⟩
  · exact (words 1 rfl (by rw [length_map]; omega)).trans (congrArg some (length_map _))
  · intro index inside
    have listed := getElem?_eq_getElem inside
    have bound := placed copies[index] (order.mem_iff.mpr (getElem_mem inside))
    rw [listed]
    refine entries ?_ (Nat.lt_of_le_of_lt (Nat.le_of_add_right_le bound.2.2) below)
    rw [getElem?_append_left (by rwa [length_map]), getElem?_map, listed]
    rfl
  · rw [<- length_map (f := Prod.fst)]
    exact entries getElem?_concat_length (by decide)
  · intro copy member
    obtain ⟨loads, above, ends⟩ := placed copy (order.mem_iff.mpr member)
    exact ⟨loads, by omega, ends⟩

/-- The bytes the layout for a command line needs -/
def layoutSize (line : Bytes) : Nat :=
  (copySize (words space line) + 3) / 4 * 4 + 4 * ((words space line).length + 1) + 12

theorem strlcpy_stringAt (dst : Bytes) {line : Bytes} {size : Nat} (short : line.length < size)
    (free : 0 ∉ line) : StringAt (strlcpy dst line size) 0 line := by
  refine ⟨free, dst.drop (line.length + 1), ?_⟩
  have length : (if line.length < size - 1 then line.length else size - 1) = line.length := by
    split <;> omega
  rw [strlcpy, if_pos (Nat.zero_lt_of_lt short)]
  simp only [length, take_length, drop_zero]

/-- For every command line that is shorter than a page and has a word, if what it takes fits
into the stack page, the program starts with the right stack.  The local array has an
entry for each of the words, so that every index into it is below its length. -/
theorem startProcess_builds_stack (segments : ByteMemory) (page line : Bytes) (string : 0 ∉ line)
    (short : line.length < pageSize) (word : words space line ≠ [])
    (fits : layoutSize line <= pageSize) :
    (words space line).length <= line.length / 2 + 1 ∧
      ∃ stack argv copies,
        startProcess segments (strlcpy page line pageSize) = some stack ∧
        copies.map Prod.snd = (words space line).map (fun word => word ++ [0]) ∧
        UserStack stack argv copies := by
  have stands := strlcpy_stringAt page short string
  have whole := stands.fits
  have few := length_words_le space line
  obtain ⟨program, arguments, given⟩ := exists_cons_of_ne_nil word
  rw [given, length_cons] at few
  have size : copySize (arguments ++ [program]) = copySize (program :: arguments) := by
    rw [copySize_append, Nat.add_comm, <- copySize_append, singleton_append]
  have part := copySize_append arguments [program]
  rw [layoutSize, given, <- size, length_cons] at fits
  obtain ⟨first, name, called, takes⟩ := strtokR_next ⟨line, stands, given⟩
  obtain ⟨second, calledAgain, awaiting⟩ :=
    strtokR_awaiting takes.stands takes.remaining takes.behind
  have loaded : Copied ⟨⟨setupStack segments, physBase⟩, replicate (line.length / 2 + 1) none,
      1⟩
      (line.length / 2 + 1) [] [] [] :=
    ⟨setupStack_holds _, .nil, rfl, rfl, rfl, ⟨none, _, rfl⟩, length_replicate⟩
  obtain ⟨frame, buffer, content, blocks, copies, copied, kept⟩ :=
    copyArguments_copied ((strlcpy page line pageSize).length + 1) awaiting loaded (by omega)
      (by rw [length_nil]; omega) (by rw [nil_append]; omega)
  rw [nil_append] at copied
  obtain ⟨named, names, holds, pushed, sizes⟩ := copied.push kept (by omega)
  obtain ⟨unset, rest, shape⟩ := copied.argv
  have assigned : setArgv frame.argv 0 named.pointer =
      some ((((named.pointer, program ++ [0]) :: blocks).map Prod.fst).map some ++ rest) := by
    rw [shape, List.map_map]
    exact if_pos (Nat.succ_pos _)
  have count : (((named.pointer, program ++ [0]) :: blocks).map Prod.fst).length = frame.argc := by
    rw [length_map, length_cons, copied.length_blocks, copied.argc]
  obtain ⟨entered, pad, pushes, result, aligned⟩ := pushTable_holds rest holds
    (by rw [sizes, count, copied.argc]; omega)
  refine ⟨by rw [given, length_cons]; omega, entered, _, _, ?_, ?_,
    userStack_of_holds result pushed (perm_append_singleton _ _) aligned⟩
  · rw [startProcess, stands.strlen]
    rw [count] at pushes
    simp only [bind_eq_bind, bind_some, called, takes.found, calledAgain, copies, names,
      assigned, pushes]
  · rw [given, map_cons, map_cons, copied.copies]

/-- `echo x` -/
theorem startProcess_builds_stack_echo :
    2 <= 4 ∧ ∃ stack argv copies,
      startProcess (fun _ => none) (strlcpy [] [101, 99, 104, 111, 32, 120] pageSize) = some stack ∧
      copies.map Prod.snd = [[101, 99, 104, 111, 0], [120, 0]] ∧ UserStack stack argv copies :=
  startProcess_builds_stack (fun _ => none) [] [101, 99, 104, 111, 32, 120] (by decide) (by decide)
    (by decide) (by decide)

end Arguments
end Pintos
end Codebank
