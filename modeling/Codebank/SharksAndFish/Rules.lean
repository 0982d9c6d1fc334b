import Codebank.SharksAndFish.TimeStep
import Codebank.SharksAndFish.Wrapping

namespace Codebank
namespace SharksAndFish

open Ocean Foundation

/-!
# The rules of the simulation

The rules speak of empty cells, fish and sharks, and of the number of consecutive
timesteps that a shark has gone through without eating.  The time steps of an ocean
follow them, where the time that a shark has left is what remains of the starving
time.
-/

/-- What a cell has, in terms of the rules. -/
inductive Inhabitant where
  | empty
  | fish
  | shark (fasted : Nat)
  deriving DecidableEq

namespace Inhabitant

def isFish : Inhabitant -> Bool
  | fish => true
  | _ => false

def isShark : Inhabitant -> Bool
  | shark _ => true
  | _ => false

def fasted : Inhabitant -> Nat
  | shark fasted => fasted
  | _ => 0

/-- What the eight rules make of a cell with some fish and sharks as its neighbours. -/
def rules (starveTime neighbourFish neighbourSharks : Nat) : Inhabitant -> Inhabitant
  | shark fasted =>
    if 0 < neighbourFish then shark 0 -- rule 1
    else if fasted + 1 = starveTime + 1 then empty else shark (fasted + 1) -- rule 2
  | fish =>
    if neighbourSharks = 0 then fish -- rule 3
    else if neighbourSharks = 1 then empty -- rule 4
    else shark 0 -- rule 5
  | empty =>
    if neighbourFish < 2 then empty -- rule 6
    else if neighbourSharks <= 1 then fish -- rule 7
    else shark 0 -- rule 8

/-- All cells of a torus change at once. -/
def advance {width height : Nat} (starveTime : Nat) (grid : Fin width -> Fin height -> Inhabitant) :
    Fin width -> Fin height -> Inhabitant :=
  fun x y => rules starveTime (Torus.near grid isFish x y) (Torus.near grid isShark x y) (grid x y)

theorem isShark_rules_shark (starveTime neighbourFish neighbourSharks fasted : Nat) :
    (rules starveTime neighbourFish neighbourSharks (shark fasted)).isShark = false <->
      neighbourFish = 0 ∧ fasted + 1 = starveTime + 1 := by
  rw [rules]
  by_cases food : 0 < neighbourFish
  · rw [if_pos food]
    exact ⟨fun impossible => (by cases impossible), fun both => absurd both.1 food.ne'⟩
  · have none : neighbourFish = 0 := by omega
    rw [if_neg food]
    by_cases last : fasted + 1 = starveTime + 1
    · rw [if_pos last]
      exact ⟨fun _ => ⟨none, last⟩, fun _ => rfl⟩
    · rw [if_neg last]
      exact ⟨fun impossible => (by cases impossible), fun both => absurd both.2 last⟩

end Inhabitant

namespace Creature

/-- What the rules see of a creature. -/
def inhabitant (starveTime : Int) : Creature -> Inhabitant
  | empty => .empty
  | fish => .fish
  | shark _ timeToDeath => .shark (starveTime - timeToDeath).toNat

/-- A shark has between nothing and all of its time left. -/
def Fed (starveTime : Int) : Creature -> Prop
  | shark _ timeToDeath => 0 <= timeToDeath ∧ timeToDeath <= starveTime
  | _ => True

theorem isFish_inhabitant (starveTime : Int) (creature : Creature) :
    (creature.inhabitant starveTime).isFish = decide (creature.getType = FISH) := by
  cases creature <;> rfl

theorem isShark_inhabitant (starveTime : Int) (creature : Creature) :
    (creature.inhabitant starveTime).isShark = decide (creature.getType = SHARK) := by
  cases creature <;> rfl

theorem inhabitant_newborn (starveTime : Int) :
    (shark starveTime starveTime).inhabitant starveTime = .shark 0 := by
  rw [inhabitant, Int.sub_self]
  rfl

theorem fed_newborn {starveTime : Int} (nonnegative : 0 <= starveTime) :
    (shark starveTime starveTime).Fed starveTime :=
  ⟨nonnegative, Int.le_refl _⟩

section

variable {starveTime : Int} {creature : Creature} (range : IsInt starveTime)
  (nonnegative : 0 <= starveTime) (bred : creature.BredFor starveTime)
  (fed : creature.Fed starveTime) (fish sharks : Nat)

include range nonnegative bred fed

/-- A cell changes as the rules say, and no shark has too little or too much time. -/
theorem successor_follows :
    (creature.successor starveTime fish sharks).inhabitant starveTime =
        Inhabitant.rules starveTime.toNat fish sharks (creature.inhabitant starveTime) ∧
      (creature.successor starveTime fish sharks).Fed starveTime := by
  cases creature with
  | empty | fish =>
    simp only [successor, replacement, stepped, inhabitant, Inhabitant.rules]
    split_ifs
    · exact ⟨rfl, trivial⟩
    · exact ⟨rfl, trivial⟩
    · exact ⟨inhabitant_newborn _, fed_newborn nonnegative⟩
  | shark starveTimeFull timeToDeath =>
    change starveTimeFull = starveTime at bred
    change 0 <= timeToDeath ∧ timeToDeath <= starveTime at fed
    subst bred
    have stays : int (timeToDeath - 1) = timeToDeath - 1 := by
      rcases range with ⟨low, high⟩
      exact int_of_isInt ⟨by omega, by omega⟩
    simp only [successor, replacement, stepped, inhabitant, Inhabitant.rules, stays]
    by_cases food : 0 < fish
    · rw [if_pos food, if_pos food, if_pos food]
      exact ⟨inhabitant_newborn _, fed_newborn nonnegative⟩
    · rw [if_neg food, if_neg food, if_neg food]
      by_cases last : timeToDeath - 1 < 0
      · rw [if_pos last, if_pos (by omega)]
        exact ⟨rfl, trivial⟩
      · rw [if_neg last, if_neg (by omega)]
        refine ⟨congrArg Inhabitant.shark ?_, ?_, ?_⟩
        · omega
        · show 0 <= timeToDeath - 1
          omega
        · show timeToDeath - 1 <= starveTimeFull
          omega

end

end Creature

/-! ## Time steps of an ocean -/

namespace Waters

variable {extent : Extent}

def inhabitants (waters : Waters extent) : Fin extent.width -> Fin extent.height -> Inhabitant :=
  fun x y => (waters.sea.creature waters.memory x y).inhabitant waters.sea.starveTime

/-- All sharks have between nothing and all of their time left. -/
def Fed (waters : Waters extent) : Prop :=
  ∀ x y, (waters.sea.creature waters.memory x y).Fed waters.sea.starveTime

/-- The objects of one ocean before and after a time step. -/
def Steps (waters after : Waters extent) : Prop :=
  waters.sea.timeStep waters.memory = some (after.memory, after.sea)

theorem near_isFish (waters : Waters extent) (x : Fin extent.width) (y : Fin extent.height) :
    Torus.near waters.inhabitants Inhabitant.isFish x y =
      waters.sea.around waters.memory FISH x y := by
  simp only [Torus.near, Sea.around, inhabitants, Creature.isFish_inhabitant]

theorem near_isShark (waters : Waters extent) (x : Fin extent.width) (y : Fin extent.height) :
    Torus.near waters.inhabitants Inhabitant.isShark x y =
      waters.sea.around waters.memory SHARK x y := by
  simp only [Torus.near, Sea.around, inhabitants, Creature.isShark_inhabitant]

section

variable {waters after : Waters extent} (steps : waters.Steps after)

include steps

theorem Steps.progress :
    Sea.Progress waters.sea waters.memory (waters.sea.next waters.memory)
      (Torus.cells extent.width extent.height) (after.memory, after.sea) := by
  rcases Sea.timeStep_progress waters.sound with ⟨state, stepped, progress⟩
  cases stepped.symm.trans steps
  exact progress

theorem Steps.starveTime_eq : after.sea.starveTime = waters.sea.starveTime :=
  steps.progress.starveTime

theorem Steps.creature_eq (x : Fin extent.width) (y : Fin extent.height) :
    after.sea.creature after.memory x y = waters.sea.next waters.memory x y :=
  steps.progress.result x y (Torus.mem_cells (x, y))

variable (range : IsInt waters.sea.starveTime) (nonnegative : 0 <= waters.sea.starveTime)
  (fed : waters.Fed)

include range nonnegative fed

/-- One time step follows the rules. -/
theorem Steps.follows :
    after.inhabitants = Inhabitant.advance waters.sea.starveTime.toNat waters.inhabitants ∧
      after.Fed := by
  have cell := fun x y => Creature.successor_follows range nonnegative (waters.sound.bred x y)
    (fed x y) (waters.sea.around waters.memory FISH x y) (waters.sea.around waters.memory SHARK x y)
  constructor
  · funext x y
    rw [inhabitants, steps.creature_eq, steps.starveTime_eq, Inhabitant.advance, near_isFish,
      near_isShark]
    exact (cell x y).1
  · intro x y
    rw [steps.creature_eq, steps.starveTime_eq]
    exact (cell x y).2

end

/-! ## Whole runs -/

/-- How many consecutive steps without a fish as a neighbour the shark in a cell has gone
through since its birth or its last meal.  At the start, the time that it has used up
counts. -/
def fasting (run : Nat -> Waters extent) (x : Fin extent.width) (y : Fin extent.height) : Nat -> Nat
  | 0 => ((run 0).inhabitants x y).fasted
  | time + 1 =>
    if ((run time).inhabitants x y).isShark ∧
      Torus.near (run time).inhabitants Inhabitant.isFish x y = 0 then fasting run x y time + 1
    else 0

/-- The fast of every shark is counted. -/
structure Fasts (run : Nat -> Waters extent) (starveTime : Int) (time : Nat) : Prop where
  starveTime : (run time).sea.starveTime = starveTime
  fed : (run time).Fed
  counted : ∀ x y fasted, (run time).inhabitants x y = .shark fasted ->
    fasted = fasting run x y time

variable {run : Nat -> Waters extent}

theorem Fasts.step {starveTime : Int} {time : Nat} (fasts : Fasts run starveTime time)
    (steps : (run time).Steps (run (time + 1))) (range : IsInt starveTime)
    (nonnegative : 0 <= starveTime) : Fasts run starveTime (time + 1) := by
  rw [<- fasts.starveTime] at range nonnegative
  rcases steps.follows range nonnegative fasts.fed with ⟨advanced, fed⟩
  refine ⟨steps.starveTime_eq.trans fasts.starveTime, fed, ?_⟩
  intro x y fasted known
  rw [advanced, Inhabitant.advance] at known
  rw [fasting]
  cases before : (run time).inhabitants x y with
  | empty | fish =>
    rw [if_neg fun both => Bool.false_ne_true both.1]
    rw [before, Inhabitant.rules] at known
    split_ifs at known
    cases known
    rfl
  | shark hungry =>
    rw [before, Inhabitant.rules] at known
    by_cases food : 0 < Torus.near (run time).inhabitants Inhabitant.isFish x y
    · rw [if_pos food] at known
      cases known
      rw [if_neg fun both => food.ne' both.2]
    · rw [if_neg food] at known
      split_ifs at known
      cases known
      rw [if_pos ⟨rfl, Nat.eq_zero_of_not_pos food⟩, fasts.counted x y hungry before]

/-- A shark in a cell, with the time that it has left. -/
theorem Fasts.shark {starveTime : Int} {time : Nat} (fasts : Fasts run starveTime time)
    {x : Fin extent.width} {y : Fin extent.height}
    (shark : (run time).sea.cellContents (run time).memory x y = some SHARK) :
    (run time).inhabitants x y = .shark (fasting run x y time) ∧
      (run time).sea.sharkFeeding (run time).memory x y =
        some (starveTime - fasting run x y time) := by
  rw [Sea.cellContents_cell, Option.some.injEq] at shark
  rw [Sea.sharkFeeding_cell]
  have fed := fasts.fed x y
  have counted := fasts.counted x y
  rw [inhabitants] at counted ⊢
  rw [fasts.starveTime] at fed counted ⊢
  cases known : (run time).sea.creature (run time).memory x y with
  | empty | fish =>
    rw [known] at shark
    exact absurd shark (by decide)
  | shark starveTimeFull timeToDeath =>
    rw [known] at fed counted
    have same := counted _ rfl
    rw [<- same]
    have low : 0 <= timeToDeath := fed.1
    have high : timeToDeath <= starveTime := fed.2
    refine ⟨rfl, congrArg some ?_⟩
    show timeToDeath = _
    omega

theorem fasts_run (range : IsInt (run 0).sea.starveTime) (nonnegative : 0 <= (run 0).sea.starveTime)
    (fed : (run 0).Fed) (steps : ∀ time, (run time).Steps (run (time + 1))) (time : Nat) :
    Fasts run (run 0).sea.starveTime time := by
  induction time with
  | zero =>
    refine ⟨rfl, fed, fun x y fasted known => ?_⟩
    rw [fasting, known]
    rfl
  | succ time ih => exact ih.step (steps time) range nonnegative

/-- The oceans that a time step returns, one after the other, change as the rules say.
All sharks always have between nothing and all of their time left, and a shark
disappears exactly in the step that is one more than the starving time in a row
without a fish as a neighbour. -/
theorem timeStep_implements_rules (waters : Waters extent) (range : IsInt waters.sea.starveTime)
    (nonnegative : 0 <= waters.sea.starveTime) (fed : waters.Fed) :
    ∃ run : Nat -> Waters extent, run 0 = waters ∧ ∀ time,
      (run time).sea.timeStep (run time).memory =
        some ((run (time + 1)).memory, (run (time + 1)).sea) ∧
      (run (time + 1)).inhabitants =
        Inhabitant.advance waters.sea.starveTime.toNat (run time).inhabitants ∧
      (run time).sea.starveTime = waters.sea.starveTime ∧ (run time).Fed ∧
      ∀ (x : Fin extent.width) (y : Fin extent.height),
        (run time).sea.cellContents (run time).memory x y = some SHARK ->
        (run time).sea.sharkFeeding (run time).memory x y =
          some (waters.sea.starveTime - fasting run x y time) ∧
        ((run (time + 1)).sea.cellContents (run (time + 1)).memory x y ≠ some SHARK <->
          Torus.near (run time).inhabitants Inhabitant.isFish x y = 0 ∧
            fasting run x y time + 1 = waters.sea.starveTime.toNat + 1) := by
  choose after steps using fun waters : Waters extent => waters.timeStep_waters
  let run : Nat -> Waters extent := fun time => Nat.rec waters (fun _ before => after before) time
  have run_steps : ∀ time, (run time).Steps (run (time + 1)) := fun time => (steps (run time)).1
  refine ⟨run, rfl, fun time => ?_⟩
  have fasts := fasts_run range nonnegative fed run_steps time
  have sameTime : (run time).sea.starveTime = waters.sea.starveTime := fasts.starveTime
  have follows := (run_steps time).follows (sameTime.symm ▸ range) (sameTime.symm ▸ nonnegative)
    fasts.fed
  rw [sameTime] at follows
  refine ⟨run_steps time, follows.1, sameTime, fasts.fed, fun x y shark => ?_⟩
  rcases fasts.shark shark with ⟨here, feeding⟩
  refine ⟨feeding, ?_⟩
  have gone : (run (time + 1)).sea.cellContents (run (time + 1)).memory x y ≠ some SHARK <->
      ((run (time + 1)).inhabitants x y).isShark = false := by
    rw [Sea.cellContents_cell, inhabitants, Creature.isShark_inhabitant,
      decide_eq_false_iff_not, Ne, Option.some.injEq]
  rw [gone, follows.1, Inhabitant.advance, here]
  exact Inhabitant.isShark_rules_shark _ _ _ _

/-- Nine cells with a shark and a fish next to it. -/
def pursuit : Waters ⟨3, 3, by decide, by decide⟩ where
  memory := ⟨fun ref => if ref = 0 then .shark 1 0 else if ref = 4 then .fish else .empty, 9⟩
  sea := ⟨1, fun x y => x + 3 * y⟩
  sound :=
    { allocated := by
        intro x y
        have column : x.val < 3 := x.isLt
        have row : y.val < 3 := y.isLt
        show x.val + 3 * y.val < 9
        omega
      apart := by
        intro x y column row same
        have first : x.val < 3 ∧ column.val < 3 := ⟨x.isLt, column.isLt⟩
        change x.val + 3 * y.val = column.val + 3 * row.val at same
        have sameX : x = column := Fin.ext (by omega)
        have sameY : y = row := Fin.ext (by omega)
        rw [sameX, sameY]
      bred := by
        intro x y
        show Creature.BredFor 1 (if x.val + 3 * y.val = 0 then .shark 1 0
          else if x.val + 3 * y.val = 4 then .fish else .empty)
        split_ifs
        · rfl
        · trivial
        · trivial }

/-- The shark has no time left, and finds the fish. -/
theorem timeStep_implements_rules_pursuit :
    ∃ run : Nat -> Waters ⟨3, 3, by decide, by decide⟩, run 0 = pursuit ∧
      (∀ time, (run (time + 1)).inhabitants = Inhabitant.advance 1 (run time).inhabitants ∧
        (run time).Fed) ∧
      (run 1).sea.cellContents (run 1).memory 0 0 = some SHARK := by
  have fed : pursuit.Fed := by
    intro x y
    show Creature.Fed 1 (if x.val + 3 * y.val = 0 then .shark 1 0
      else if x.val + 3 * y.val = 4 then .fish else .empty)
    split_ifs
    · exact ⟨by decide, by decide⟩
    · trivial
    · trivial
  rcases timeStep_implements_rules pursuit ⟨by decide, by decide⟩ (by decide) fed with
    ⟨run, start, follows⟩
  refine ⟨run, start, fun time => ⟨(follows time).2.1, (follows time).2.2.2.1⟩, ?_⟩
  have gone := ((follows 0).2.2.2.2 ⟨0, by decide⟩ ⟨0, by decide⟩ (by rw [start]; decide +kernel)).2
  by_contra missing
  have alone := (gone.mp missing).1
  rw [start] at alone
  exact absurd alone (by decide +kernel)

end Waters

end SharksAndFish
end Codebank
