import Codebank.Foundation.Bytes

namespace Codebank
namespace Foundation

open List Option Function

/-!
# Byte memory with a stack that grows down

An address without a byte is not mapped, and a store to it fails.  A stack is the
stretch of a mapped region between a pointer and the top of the region; pushing
moves the pointer down and puts the bytes in front of those that are there.
-/

/-- The bytes at the mapped addresses. -/
abbrev ByteMemory := Nat -> Option UInt8

namespace ByteMemory

variable {memory after : ByteMemory} {address count : Nat}

def store (memory : ByteMemory) (address : Nat) (byte : UInt8) : Option ByteMemory :=
  if (memory address).isSome then some (update memory address (some byte)) else none

def storeBytes (memory : ByteMemory) (address : Nat) : Bytes -> Option ByteMemory
  | [] => some memory
  | byte :: bytes => do
      let after <- memory.store address byte
      after.storeBytes (address + 1) bytes

def loadBytes (memory : ByteMemory) (address : Nat) : Nat -> Option Bytes
  | 0 => some []
  | count + 1 => do
      let byte <- memory address
      let bytes <- memory.loadBytes (address + 1) count
      return byte :: bytes

/-- The four bytes of a word, the least significant first. -/
def wordBytes (value : Nat) : Bytes :=
  [UInt8.ofNat value, UInt8.ofNat (value / 256), UInt8.ofNat (value / 65536),
    UInt8.ofNat (value / 16777216)]

@[simp] theorem length_wordBytes (value : Nat) : (wordBytes value).length = 4 := rfl

theorem littleEndian_wordBytes {value : Nat} (small : value < 2 ^ 32) :
    littleEndian (wordBytes value) = value := by
  simp only [littleEndian, wordBytes, foldr_cons, foldr_nil, UInt8.toNat_ofNat']
  omega

def loadWord (memory : ByteMemory) (address : Nat) : Option Nat :=
  (memory.loadBytes address 4).map littleEndian

theorem loadBytes_congr
    (same : ∀ place, address <= place -> place < address + count -> after place = memory place) :
    after.loadBytes address count = memory.loadBytes address count := by
  induction count generalizing address with
  | zero => rfl
  | succ count ih =>
    have first := same address (Nat.le_refl address) (by omega)
    have later : after.loadBytes (address + 1) count = memory.loadBytes (address + 1) count :=
      ih (fun place low high => same place (by omega) (by omega))
    rw [loadBytes, loadBytes, first, later]

theorem loadBytes_append {front back : Bytes} :
    memory.loadBytes address (front ++ back).length = some (front ++ back) <->
      memory.loadBytes address front.length = some front ∧
        memory.loadBytes (address + front.length) back.length = some back := by
  induction front generalizing address with
  | nil => simp [loadBytes]
  | cons byte front ih =>
    rw [cons_append, length_cons, length_cons, loadBytes, loadBytes]
    have shifted : address + (front.length + 1) = address + 1 + front.length := by omega
    rw [shifted]
    cases memory address with
    | none => simp
    | some found =>
      have step := @ih (address + 1)
      simp only [bind_eq_bind, bind_some, Option.pure_def,
        bind_eq_some_iff, some.injEq, List.cons.injEq]
      constructor
      · rintro ⟨bytes, loaded, rfl, rfl⟩
        exact ⟨⟨front, (step.mp loaded).1, rfl, rfl⟩, (step.mp loaded).2⟩
      · rintro ⟨⟨bytes, loaded, rfl, rfl⟩, behind⟩
        exact ⟨_, step.mpr ⟨loaded, behind⟩, rfl, rfl⟩

theorem mapped_of_loadBytes {bytes : Bytes} (loaded : memory.loadBytes address count = some bytes)
    {place : Nat} (low : address <= place) (high : place < address + count) :
    (memory place).isSome := by
  induction count generalizing address bytes with
  | zero => omega
  | succ count ih =>
    rw [loadBytes] at loaded
    simp only [bind_eq_bind, bind_eq_some_iff] at loaded
    obtain ⟨byte, here, rest, later, _⟩ := loaded
    by_cases first : place = address
    case pos => rw [first, here, isSome_some]
    case neg => exact ih later (by omega) (by omega)

/-- A store to mapped addresses succeeds and changes nothing else. -/
theorem storeBytes_spec (bytes : Bytes)
    (mapped : ∀ place, address <= place -> place < address + bytes.length ->
      (memory place).isSome) :
    ∃ after, memory.storeBytes address bytes = some after ∧
      after.loadBytes address bytes.length = some bytes ∧
      ∀ place, place < address ∨ address + bytes.length <= place ->
        after place = memory place := by
  induction bytes generalizing memory address with
  | nil => exact ⟨memory, rfl, rfl, fun _ _ => rfl⟩
  | cons byte bytes ih =>
    rw [length_cons] at mapped
    have here : memory.store address byte = some (update memory address (some byte)) :=
      if_pos (mapped address (Nat.le_refl address) (by omega))
    have further : ∀ place, address + 1 <= place -> place < address + 1 + bytes.length ->
        (update memory address (some byte) place).isSome := by
      intro place low high
      rw [update_of_ne (by omega)]
      exact mapped place (by omega) (by omega)
    obtain ⟨after, stored, loaded, rest⟩ := ih further
    refine ⟨after, ?_, ?_, ?_⟩
    · rw [storeBytes, here]
      exact stored
    · have kept : after address = some byte := by
        rw [rest address (.inl (Nat.lt_succ_self address)), update_self]
      rw [length_cons, loadBytes, kept, loaded]
      rfl
    · intro place outside
      rw [length_cons] at outside
      rw [rest place (by omega), update_of_ne (by omega)]

end ByteMemory

/-- A memory with the pointer to the last byte that was pushed. -/
structure Stack where
  memory : ByteMemory
  pointer : Nat

namespace Stack

def push (stack : Stack) (bytes : Bytes) : Option Stack := do
  let memory <- stack.memory.storeBytes (stack.pointer - bytes.length) bytes
  return ⟨memory, stack.pointer - bytes.length⟩

variable {low top : Nat} {stack : Stack} {content : Bytes}

/-- The bytes from the pointer up to the top of a mapped region. -/
structure Holds (low top : Nat) (stack : Stack) (content : Bytes) : Prop where
  mapped : ∀ place, low <= place -> place < top -> (stack.memory place).isSome
  reaches : stack.pointer + content.length = top
  loads : stack.memory.loadBytes stack.pointer content.length = some content

theorem Holds.push (holds : Holds low top stack content) (bytes : Bytes)
    (room : low + (bytes.length + content.length) <= top) :
    ∃ after, stack.push bytes = some after ∧ Holds low top after (bytes ++ content) := by
  have reaches := holds.reaches
  have writable : ∀ place, stack.pointer - bytes.length <= place ->
      place < stack.pointer - bytes.length + bytes.length -> (stack.memory place).isSome :=
    fun place start below => holds.mapped place (by omega) (by omega)
  obtain ⟨after, stored, loaded, rest⟩ := ByteMemory.storeBytes_spec bytes writable
  have back : stack.pointer - bytes.length + bytes.length = stack.pointer := by omega
  refine ⟨⟨after, stack.pointer - bytes.length⟩, ?_, ?_, ?_, ?_⟩
  · rw [Stack.push, stored]
    rfl
  · intro place start below
    by_cases written : stack.pointer - bytes.length <= place ∧ place < stack.pointer
    case neg =>
      show (after place).isSome
      rw [rest place (by omega)]
      exact holds.mapped place start below
    case pos => exact ByteMemory.mapped_of_loadBytes loaded written.1 (by omega)
  · show stack.pointer - bytes.length + (bytes ++ content).length = top
    rw [length_append]
    omega
  · refine ByteMemory.loadBytes_append.mpr ⟨loaded, ?_⟩
    rw [back, ByteMemory.loadBytes_congr (fun place start _ => rest place (.inr (by omega)))]
    exact holds.loads

/-- A part of the stack stands as far below the top as the bytes from it on are many. -/
theorem Holds.load {front part back : Bytes} {place : Nat}
    (holds : Holds low top stack (front ++ (part ++ back)))
    (here : place + (part ++ back).length = top) :
    stack.memory.loadBytes place part.length = some part := by
  have reaches := holds.reaches
  rw [length_append] at reaches
  have behind := (ByteMemory.loadBytes_append.mp holds.loads).2
  have same : stack.pointer + front.length = place := by omega
  rw [same] at behind
  exact (ByteMemory.loadBytes_append.mp behind).1

/-! ## Blocks that were pushed one after the other -/

/-- The content of a stack that was empty, and the blocks with the addresses they got. -/
inductive Pushed (top : Nat) : Bytes -> List (Nat × Bytes) -> Prop where
  | nil : Pushed top [] []
  | push {content : Bytes} {blocks : List (Nat × Bytes)} (bytes : Bytes)
      (before : Pushed top content blocks) :
      Pushed top (bytes ++ content) (blocks ++ [(top - (bytes ++ content).length, bytes)])

/-- Two blocks have no byte in common. -/
def Apart (block other : Nat × Bytes) : Prop :=
  block.1 + block.2.length <= other.1 ∨ other.1 + other.2.length <= block.1

/-- Whatever was pushed on top of them, the blocks are where they were put, above what is
on top of them. -/
theorem Pushed.blocks {blocks : List (Nat × Bytes)} (pushed : Pushed top content blocks)
    {upper : Bytes} (holds : Holds low top stack (upper ++ content)) :
    (∀ block, block ∈ blocks ->
      stack.memory.loadBytes block.1 block.2.length = some block.2 ∧
        stack.pointer + upper.length <= block.1 ∧ block.1 + block.2.length <= top) ∧
      blocks.Pairwise Apart := by
  induction pushed generalizing upper with
  | nil => exact ⟨fun _ member => absurd member not_mem_nil, List.Pairwise.nil⟩
  | @push content blocks bytes before ih =>
    have reaches := holds.reaches
    rw [length_append, length_append] at reaches
    have place : top - (bytes ++ content).length + (bytes ++ content).length = top := by
      rw [length_append]
      omega
    have loaded := holds.load place
    rw [length_append] at place ⊢
    rw [<- append_assoc] at holds
    obtain ⟨earlier, apart⟩ := ih holds
    rw [length_append] at earlier
    constructor
    · intro block member
      rcases mem_append.mp member with old | new
      · obtain ⟨loads, above, below⟩ := earlier block old
        exact ⟨loads, by omega, below⟩
      · rw [mem_singleton.mp new]
        refine ⟨length_append ▸ loaded, ?_, ?_⟩
        · show stack.pointer + upper.length <= top - (bytes.length + content.length)
          omega
        · show top - (bytes.length + content.length) + bytes.length <= top
          omega
    · refine pairwise_append.mpr ⟨apart, pairwise_singleton _ _, ?_⟩
      intro block old other new
      rw [mem_singleton.mp new]
      have above := (earlier block old).2.1
      refine .inr ?_
      show top - (bytes.length + content.length) + bytes.length <= block.1
      omega

end Stack

/-! ## Tables of words -/

namespace ByteMemory

def table (values : List Nat) : Bytes :=
  values.flatMap wordBytes

theorem table_append (front back : List Nat) : table (front ++ back) = table front ++ table back :=
  flatMap_append

theorem length_table (values : List Nat) : (table values).length = 4 * values.length := by
  induction values with
  | nil => rfl
  | cons value values ih =>
    rw [<- singleton_append, table_append, length_append, ih, length_append,
      Nat.mul_add]
    rfl

/-- The words of a table on a stack -/
theorem table_word {low top : Nat} {stack : Stack} (upper : Bytes) {lower : Bytes}
    {values : List Nat} {index value : Nat}
    (holds : stack.Holds low top (upper ++ (table values ++ lower)))
    (here : values[index]? = some value) (small : value < 2 ^ 32) :
    stack.memory.loadWord (stack.pointer + upper.length + 4 * index) = some value := by
  have reaches := holds.reaches
  obtain ⟨inside, rfl⟩ := List.getElem?_eq_some_iff.mp here
  have split : table values = table (values.take index) ++
      (wordBytes values[index] ++ table (values.drop (index + 1))) := by
    have parts := congrArg table (take_append_drop index values)
    rw [table_append, drop_eq_getElem_cons inside] at parts
    exact parts.symm
  have front : (table (values.take index)).length = 4 * index := by
    rw [length_table, length_take, Nat.min_eq_left (Nat.le_of_lt inside)]
  have sizes := congrArg List.length split
  rw [length_append, front] at sizes
  rw [length_append, length_append] at reaches
  rw [split, append_assoc, <- append_assoc upper, append_assoc _ _ lower] at holds
  have loaded : stack.memory.loadBytes (stack.pointer + upper.length + 4 * index) 4 =
      some (wordBytes values[index]) :=
    holds.load (by rw [<- append_assoc, length_append]; omega)
  rw [loadWord, loaded, map_some, littleEndian_wordBytes small]

end ByteMemory

end Foundation
end Codebank
