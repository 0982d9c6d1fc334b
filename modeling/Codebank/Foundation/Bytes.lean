import Mathlib.Algebra.Ring.Nat
import Mathlib.Data.List.Basic
import Mathlib.Data.List.Induction
import Mathlib.Data.List.TakeWhile

namespace Codebank
namespace Foundation

open List

/-!
# Files as byte strings with a read position

Reading at a position gives what stands there, and fewer bytes than asked for at
the end of the file.  What stands ahead of a position is described by an equation
for the dropped list, which every read consumes from the front.
-/

abbrev Bytes := List UInt8

def readAt (file : Bytes) (position count : Nat) : Bytes :=
  (file.drop position).take count

theorem readAt_length (file : Bytes) (position count : Nat) :
    (readAt file position count).length = min count (file.length - position) := by
  rw [readAt, length_take, length_drop]

theorem readAt_length_le (file : Bytes) (position count : Nat) :
    (readAt file position count).length <= count := by
  rw [readAt_length]
  exact Nat.min_le_left _ _

/-- What stands at a position is what is read there, and then the rest. -/
theorem drop_readAt (file : Bytes) (position count : Nat) :
    file.drop position = readAt file position count ++ file.drop (position + count) := by
  rw [readAt, <- drop_drop, take_append_drop]

/-- A part of what was read is what stands there in the file. -/
theorem readAt_readAt (file : Bytes) {position count start size : Nat}
    (inside : start + size <= count) :
    readAt (readAt file position count) start size = readAt file (position + start) size := by
  rw [readAt, readAt, readAt, drop_take, drop_drop, take_take,
    Nat.min_eq_left (by omega)]

section

variable {file part rest : Bytes} {position : Nat}
  (ahead : file.drop position = part ++ rest)

include ahead

variable {count : Nat}

theorem readAt_ahead (size : part.length = count) : readAt file position count = part := by
  rw [readAt, ahead, <- size, take_left]

theorem drop_ahead (size : part.length = count) : file.drop (position + count) = rest := by
  rw [<- drop_drop, ahead, <- size, drop_left]

end

/-- The byte at an index of a buffer. -/
def byteAt (buffer : Bytes) (index : Nat) : UInt8 :=
  buffer.getD index 0

def bigEndian (bytes : Bytes) : Nat :=
  bytes.foldl (fun value byte => 256 * value + byte.toNat) 0

def littleEndian (bytes : Bytes) : Nat :=
  bytes.foldr (fun byte value => byte.toNat + 256 * value) 0

theorem bigEndian_lt (bytes : Bytes) : bigEndian bytes < 256 ^ bytes.length := by
  induction bytes using List.reverseRecOn with
  | nil => exact Nat.one_pos
  | append_singleton bytes byte ih =>
    rw [bigEndian, foldl_append, <- bigEndian, foldl_cons, foldl_nil,
      length_append, length_singleton, Nat.pow_succ]
    have small : byte.toNat < 256 := byte.toNat_lt
    omega

/-- The two bytes of a number, the higher one first. -/
def bigEndianPair (value : Nat) : Bytes :=
  [UInt8.ofNat (value / 256), UInt8.ofNat (value % 256)]

theorem bigEndian_pair {value : Nat} (small : value < 65536) :
    bigEndian (bigEndianPair value) = value := by
  have high : (UInt8.ofNat (value / 256)).toNat = value / 256 :=
    UInt8.toNat_ofNat_of_lt (by
      show value / 256 < 256
      omega)
  have low : (UInt8.ofNat (value % 256)).toNat = value % 256 :=
    UInt8.toNat_ofNat_of_lt (Nat.mod_lt value (by decide))
  rw [bigEndian, bigEndianPair, foldl_cons, foldl_cons, foldl_nil, high, low]
  omega

/-- One bit of the CRC-32 of zlib. -/
def crcBit (value : Nat) : Nat :=
  if value % 2 = 1 then (value / 2) ^^^ 0xEDB88320 else value / 2

/-- The CRC-32 of zlib, bit by bit. -/
def crc32 (bytes : Bytes) : Nat :=
  bytes.foldl (fun value byte => Nat.repeat crcBit 8 (value ^^^ byte.toNat)) 0xFFFFFFFF ^^^
    0xFFFFFFFF

example : crc32 [0x49, 0x45, 0x4E, 0x44] = 0xAE426082 := by decide +kernel

/-- The bytes of a buffer up to its first zero byte. -/
def cString (buffer : Bytes) : Bytes :=
  buffer.takeWhile (fun byte => byte != 0)

/-- What stands in front of the first stop byte. -/
theorem takeWhile_stop {stop : UInt8} {front : Bytes} (free : stop ∉ front) (rest : Bytes) :
    (front ++ stop :: rest).takeWhile (fun byte => byte != stop) = front := by
  have others : ∀ byte, byte ∈ front -> (byte != stop) = true := by
    intro byte member
    rw [bne_iff_ne]
    rintro rfl
    exact free member
  rw [takeWhile_append_of_pos others, takeWhile_cons_of_neg (by simp), append_nil]

theorem append_stop_inj {stop : UInt8} {front other rest later : Bytes} (free : stop ∉ front)
    (otherFree : stop ∉ other) (same : front ++ stop :: rest = other ++ stop :: later) :
    front = other ∧ rest = later := by
  have fronts : front = other := by
    rw [<- takeWhile_stop free rest, same, takeWhile_stop otherFree later]
  subst fronts
  exact ⟨rfl, (List.cons.inj (append_cancel_left same)).2⟩

theorem zero_notMem_cString (buffer : Bytes) : 0 ∉ cString buffer :=
  fun member => absurd (mem_takeWhile_imp member) (by decide)

variable {buffer : Bytes} {byte : UInt8}

theorem mem_of_mem_cString (member : byte ∈ cString buffer) : byte ∈ buffer :=
  (takeWhile_sublist _).subset member

theorem cString_eq_self (free : 0 ∉ buffer) : cString buffer = buffer := by
  refine List.takeWhile_eq_self_iff.mpr (fun byte member => ?_)
  rw [bne_iff_ne]
  rintro rfl
  exact free member

/-- Lines with a newline behind each. -/
def unlines (lines : List Bytes) : Bytes :=
  lines.flatMap (fun line => line ++ [10])

theorem unlines_cons (line : Bytes) (lines : List Bytes) :
    unlines (line :: lines) = line ++ 10 :: unlines lines := by
  rw [unlines, flatMap_cons, append_assoc]
  rfl

theorem count_unlines {lines : List Bytes} (free : ∀ line, line ∈ lines -> 10 ∉ line) :
    (unlines lines).count 10 = lines.length := by
  induction lines with
  | nil => rfl
  | cons line lines ih =>
    rw [unlines_cons, count_append, count_eq_zero_of_not_mem (free line mem_cons_self),
      count_cons_self, ih (fun other member => free other (mem_cons_of_mem _ member)),
      length_cons, Nat.zero_add]

/-- The bytes of a text. -/
def text (string : String) : Bytes :=
  string.toList.map (fun character => UInt8.ofNat character.toNat)

/-- The bytes of a number in decimal are digits. -/
theorem mem_text_toString {number : Nat} (member : byte ∈ text (toString number)) :
    48 <= byte.toNat := by
  rcases List.mem_map.mp member with ⟨character, digit, rfl⟩
  rw [Nat.toString_eq_repr, Nat.toList_repr] at digit
  have isDigit := Nat.isDigit_of_mem_toDigits (by decide) (by decide) digit
  have range : 48 <= character.toNat ∧ character.toNat <= 57 := Char.isDigit_iff_toNat.mp isDigit
  rw [UInt8.toNat_ofNat', Nat.mod_eq_of_lt (by omega)]
  exact range.1

end Foundation
end Codebank
