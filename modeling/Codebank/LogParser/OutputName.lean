import Mathlib.Algebra.Ring.Nat
import Mathlib.Data.Set.Finite.Basic

namespace Codebank
namespace LogParser

open List

/-!
# The name of the output file

`get_output_fn` counts up a number at the end of the name until the name is free.  Each turn
replaces the last character of the name by the number of the turn.  That is right while the
number has one digit; after `_10` the loop goes on with `_111` and `_1112`.
-/

abbrev Name := List Char

/-- `str(n)` -/
def str (n : Nat) : Name :=
  Nat.toDigits 10 n

def extension : Name :=
  ".log".toList

/-- The loop, with a limit on its turns. -/
def whileTaken (files : List Name) : Nat -> Nat -> Name -> Option Name
  | 0, _, _ => none
  | fuel + 1, extVal, outputFn =>
    if outputFn ++ extension ∈ files then
      whileTaken files fuel (extVal + 1) (outputFn.dropLast ++ str extVal)
    else
      some (outputFn ++ extension)

/-- What is appended to the name of the input. -/
def suffix (verbose : Bool) : Name :=
  "_output".toList ++ if verbose then "_verbose".toList else []

def getOutputFn (fuel : Nat) (files : List Name) (inputFn : Name) (verbose : Bool) :
    Option Name :=
  let outputFn := inputFn.take (inputFn.length - 4) ++ suffix verbose
  whileTaken files fuel 2
    (if outputFn ++ extension ∈ files then outputFn ++ "_1".toList else outputFn)

/-! ## Numbers at the end of a name -/

def stem (base : Name) (number : Nat) : Name :=
  if number = 0 then base else base ++ '_' :: str number

/-- The names in the order in which they should be tried. -/
def numbered (base : Name) (number : Nat) : Name :=
  stem base number ++ extension

theorem str_injective : Function.Injective str := by
  intro first second same
  calc
    first = Nat.ofDigitChars 10 (str first) 0 := Nat.ofDigitChars_ten_toDigits.symm
    _ = Nat.ofDigitChars 10 (str second) 0 := by rw [same]
    _ = second := Nat.ofDigitChars_ten_toDigits

theorem numbered_injective (base : Name) : Function.Injective (numbered base) := by
  intro first second same
  have stems : stem base first = stem base second := append_cancel_right same
  unfold stem at stems
  by_cases zero : first = 0 <;> by_cases zeroToo : second = 0
  · rw [zero, zeroToo]
  · simp [zero, zeroToo] at stems
  · simp [zero, zeroToo] at stems
  · simp only [zero, zeroToo, if_false, append_cancel_left_eq, List.cons.injEq, true_and]
      at stems
    exact str_injective stems

theorem str_digit {digit : Nat} (small : digit < 10) : str digit = [digit.digitChar] :=
  Nat.toDigits_of_lt_base small

theorem str_snoc {front digit : Nat} (positive : 0 < front) (small : digit < 10) :
    str front ++ str digit = str (10 * front + digit) :=
  Nat.toDigits_append_toDigits (by decide) positive small

theorem str_split {number : Nat} (large : ¬ number < 10) :
    str number = str (number / 10) ++ str (number % 10) := by
  rw [str_snoc (by omega) (by omega), Nat.div_add_mod]

/-- Appending the digits of a number. -/
theorem str_append {front : Nat} (positive : 0 < front) (number : Nat) :
    str front ++ str number = str (front * 10 ^ (str number).length + number) := by
  induction number using Nat.strongRecOn with
  | ind number ih =>
    by_cases small : number < 10
    · rw [str_snoc positive small, str_digit small, length_singleton, Nat.pow_one,
        Nat.mul_comm]
    · have digit : number % 10 < 10 := Nat.mod_lt _ (by decide)
      have front_pos : 0 < front * 10 ^ (str (number / 10)).length :=
        Nat.mul_pos positive (Nat.pow_pos (by decide))
      rw [str_split small, <- append_assoc, ih (number / 10) (by omega),
        str_snoc (by omega) digit, length_append, str_digit digit, length_singleton,
        Nat.pow_succ, <- Nat.mul_assoc]
      apply congrArg str
      omega

/-- Dropping the last digit and appending the digits of a number. -/
theorem dropLast_append (old number : Nat) :
    (str old).dropLast ++ str number = str (old / 10 * 10 ^ (str number).length + number) := by
  by_cases small : old < 10
  · rw [str_digit small, Nat.div_eq_of_lt small, Nat.zero_mul, Nat.zero_add]
    rfl
  · rw [str_split small, str_digit (Nat.mod_lt old (by decide)), dropLast_concat]
    exact str_append (by omega) number

/-! ## The numbers the loop comes to -/

/-- The number at the end of the name before a turn: `0`, …, `10`, `111`, `1112`, … -/
def loopNumber : Nat -> Nat
  | 0 => 0
  | turn + 1 => loopNumber turn / 10 * 10 ^ (str (turn + 1)).length + (turn + 1)

theorem length_str_pos (number : Nat) : 0 < (str number).length :=
  Nat.length_toDigits_pos

theorem loopNumber_mod (turn : Nat) : loopNumber turn % 10 = turn % 10 := by
  cases turn with
  | zero => rfl
  | succ turn =>
    rcases Nat.exists_eq_add_of_lt (length_str_pos (turn + 1)) with ⟨rest, length⟩
    rw [loopNumber, length, Nat.pow_succ, <- Nat.mul_assoc]
    omega

theorem loopNumber_strictMono : StrictMono loopNumber := by
  apply strictMono_nat_of_lt_succ
  intro turn
  have last := loopNumber_mod turn
  have grows := Nat.mul_le_mul_left (loopNumber turn / 10)
    (Nat.le_self_pow (Nat.ne_of_gt (length_str_pos (turn + 1))) 10)
  rw [loopNumber]
  omega

/-- A turn of the loop. -/
theorem stem_loopNumber (base : Name) (turn : Nat) :
    (stem base (loopNumber (turn + 1))).dropLast ++ str (turn + 2) =
      stem base (loopNumber (turn + 2)) := by
  have positive : ∀ turn, loopNumber (turn + 1) ≠ 0 := fun turn =>
    Nat.ne_of_gt (loopNumber_strictMono (Nat.succ_pos turn))
  have digits : str (loopNumber (turn + 1)) ≠ [] := Nat.toDigits_ne_nil
  rw [stem, stem, if_neg (positive turn), if_neg (positive (turn + 1)),
    dropLast_append_of_ne_nil (cons_ne_nil _ _), dropLast_cons_of_ne_nil digits,
    append_assoc, cons_append, dropLast_append]
  rfl

section

variable {files : List Name} {base : Name} {stop : Nat}
  (free : numbered base (loopNumber stop) ∉ files)

include free

theorem whileTaken_returns {turn fuel : Nat} (below : turn + 1 <= stop)
    (taken : ∀ other, turn < other -> other < stop -> numbered base (loopNumber other) ∈ files)
    (enough : stop <= turn + fuel) :
    whileTaken files fuel (turn + 2) (stem base (loopNumber (turn + 1))) =
      some (numbered base (loopNumber stop)) := by
  induction fuel generalizing turn with
  | zero => omega
  | succ fuel ih =>
    rw [whileTaken]
    by_cases last : turn + 1 = stop
    · subst last
      rw [<- numbered, if_neg free]
    · rw [<- numbered, if_pos (taken (turn + 1) (by omega) (by omega)), stem_loopNumber]
      exact ih (by omega) (fun other after => taken other (by omega)) (by omega)

theorem getOutputFn_returns {name : Name} {verbose : Bool} (same : base = name ++ suffix verbose)
    (taken : ∀ other, other < stop -> numbered base (loopNumber other) ∈ files) {fuel : Nat}
    (enough : stop < fuel) :
    getOutputFn fuel files (name ++ extension) verbose =
      some (numbered base (loopNumber stop)) := by
  have cut : (name ++ extension).take ((name ++ extension).length - 4) = name := by
    simp [extension]
  unfold getOutputFn
  simp only [cut, <- same]
  cases stop with
  | zero =>
    rcases Nat.exists_eq_add_of_lt enough with ⟨rest, rfl⟩
    have free : base ++ extension ∉ files := free
    rw [whileTaken, if_neg free, if_neg free]
    rfl
  | succ stop =>
    have first : base ++ extension ∈ files := taken 0 (Nat.succ_pos stop)
    rw [if_pos first]
    have below : 0 + 1 <= stop + 1 := Nat.succ_le_succ (Nat.zero_le stop)
    exact whileTaken_returns free below (fun other _ => taken other) (by omega)

end

/-! ## The first free name -/

structure FirstFree (files : List Name) (base : Name) (number : Nat) : Prop where
  free : numbered base number ∉ files
  taken : ∀ smaller, smaller < number -> numbered base smaller ∈ files

/-- The loop ends, and the function returns this name. -/
def Returns (files : List Name) (inputFn : Name) (verbose : Bool) (outputFn : Name) : Prop :=
  ∃ enough, ∀ fuel, enough <= fuel ->
    getOutputFn fuel files inputFn verbose = some outputFn

theorem exists_free (files : List Name) (base : Name) :
    ∃ turn, numbered base (loopNumber turn) ∉ files := by
  by_contra taken
  simp only [not_exists, not_not] at taken
  exact Set.infinite_of_injective_forall_mem
    ((numbered_injective base).comp loopNumber_strictMono.injective) taken files.finite_toSet

/-- The function always returns; what it returns is the first free name exactly when the loop
comes to the number of that name. -/
theorem getOutputFn_first_free_iff (files : List Name) (name : Name) (verbose : Bool) :
    (∃ outputFn, Returns files (name ++ extension) verbose outputFn) ∧
      ((∃ number, FirstFree files (name ++ suffix verbose) number ∧
          Returns files (name ++ extension) verbose (numbered (name ++ suffix verbose) number)) <->
        ∃ turn, FirstFree files (name ++ suffix verbose) (loopNumber turn)) := by
  classical
  have found := exists_free files (name ++ suffix verbose)
  have returns : Returns files (name ++ extension) verbose
      (numbered (name ++ suffix verbose) (loopNumber (Nat.find found))) :=
    ⟨_, fun fuel => getOutputFn_returns (Nat.find_spec found) rfl
      fun other before => not_not.mp (Nat.find_min found before)⟩
  refine ⟨⟨_, returns⟩, ?_, ?_⟩
  · rintro ⟨number, first, enough, returned⟩
    rcases returns with ⟨enoughToo, found⟩
    have same := (returned (enough + enoughToo) (by omega)).symm.trans
      (found (enough + enoughToo) (by omega))
    exact ⟨_, numbered_injective _ (Option.some.inj same) ▸ first⟩
  · rintro ⟨turn, first⟩
    exact ⟨_, first, _, fun fuel => getOutputFn_returns first.free rfl
      fun other before => first.taken _ (loopNumber_strictMono before)⟩

/-- The first eleven names for the input `a.log`. -/
def firstEleven : List Name :=
  (List.range 11).map (numbered ("a".toList ++ suffix false))

/-- `a_output_11.log` is free, and the function returns `a_output_111.log`. -/
theorem eleventh_name_is_skipped :
    ¬ ∃ number, FirstFree firstEleven ("a".toList ++ suffix false) number ∧
      Returns firstEleven ("a".toList ++ extension) false
        (numbered ("a".toList ++ suffix false) number) := by
  rintro ⟨number, first, enough, returned⟩
  have free : numbered ("a".toList ++ suffix false) (loopNumber 11) ∉ firstEleven := by
    decide +kernel
  have found := getOutputFn_returns free rfl (by decide +kernel)
    (Nat.lt_add_left enough (Nat.lt_succ_self 11))
  have same := numbered_injective _ (Option.some.inj ((returned _ (by omega)).symm.trans found))
  have taken := first.taken 11 (by rw [same]; decide +kernel)
  revert taken
  decide +kernel

end LogParser
end Codebank
