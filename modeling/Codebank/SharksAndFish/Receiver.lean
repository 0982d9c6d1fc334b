import Codebank.SharksAndFish.RunList
import Codebank.SharksAndFish.TimeStep
import Codebank.SharksAndFish.Wrapping

namespace Codebank
namespace SharksAndFish

open Ocean Foundation

/-!
# What a time step leaves of the ocean it starts from

The sharks of the old ocean are the objects that the step feeds or starves.  So the old
ocean looks the same afterwards only if no shark had to change: every shark has a fish
beside it and is full already.
-/

namespace Sea

variable {extent : Extent}

/-- Two oceans that cannot be told apart by reading their cells. -/
def LooksLike (sea : Sea extent) (memory : Memory) (other : Sea extent) (otherMemory : Memory) :
    Prop :=
  ∀ x y, sea.cellContents memory x y = other.cellContents otherMemory x y ∧
    sea.sharkFeeding memory x y = other.sharkFeeding otherMemory x y

theorem looksLike_of_creatures {sea other : Sea extent} {memory otherMemory : Memory}
    (same : sea.creature memory = other.creature otherMemory) :
    sea.LooksLike memory other otherMemory := by
  intro x y
  rw [cellContents_eq, cellContents_eq, sharkFeeding_eq, sharkFeeding_eq, same]
  exact ⟨rfl, rfl⟩

theorem next_of_creatures {sea : Sea extent} {memory later : Memory}
    (same : sea.creature later = sea.creature memory) : sea.next later = sea.next memory := by
  funext x y
  rw [next, next, around, around, around, around, same]

/-- The encoding is made of what can be read. -/
theorem ofOcean_of_looksLike {sea : Sea extent} {memory later : Memory}
    (same : sea.LooksLike later sea memory) :
    RunList.ofOcean sea later = RunList.ofOcean sea memory := by
  have contents : sea.cellContents later = sea.cellContents memory :=
    funext fun x => funext fun y => (same x y).1
  have feedings : sea.sharkFeeding later = sea.sharkFeeding memory :=
    funext fun x => funext fun y => (same x y).2
  have scans : RunList.scanCell sea later = RunList.scanCell sea memory := by
    funext scan cell
    rw [RunList.scanCell, RunList.scanCell, contents, feedings]
  rw [RunList.ofOcean, RunList.ofOcean, contents, feedings, scans]

end Sea

namespace Creature

/-- Starving always changes a shark, and eating only one that is not full. -/
theorem stepped_hunger_eq {starveTimeFull timeToDeath : Int} {fish : Nat}
    (same : ((shark starveTimeFull timeToDeath).stepped fish).content.2 = timeToDeath) :
    0 < fish ∧ timeToDeath = starveTimeFull := by
  rw [stepped] at same
  split_ifs at same with food
  · exact ⟨food, same.symm⟩
  · change int (timeToDeath - 1) = timeToDeath at same
    have residue : int (timeToDeath - 1) % 4294967296 = (timeToDeath - 1) % 4294967296 :=
      Int.bmod_emod
    omega

theorem stepped_full {starveTimeFull : Int} {fish : Nat} (food : 0 < fish) :
    (shark starveTimeFull starveTimeFull).stepped fish = shark starveTimeFull starveTimeFull :=
  if_pos food

end Creature

namespace Waters

variable {extent : Extent}

/-- Every shark has a fish beside it and all of its time left. -/
def AllFull (waters : Waters extent) : Prop :=
  ∀ (x : Fin extent.width) (y : Fin extent.height),
    waters.sea.cellContents waters.memory x y = some SHARK ->
      0 < waters.sea.around waters.memory FISH x y ∧
        waters.sea.sharkFeeding waters.memory x y = some waters.sea.starveTime

variable {waters : Waters extent}

theorem stepped_of_allFull (full : waters.AllFull) (x : Fin extent.width) (y : Fin extent.height) :
    (waters.sea.creature waters.memory x y).stepped (waters.sea.around waters.memory FISH x y) =
      waters.sea.creature waters.memory x y := by
  have here := full x y
  have bred := waters.sound.bred x y
  rw [Sea.cellContents_cell, Sea.sharkFeeding_cell] at here
  cases known : waters.sea.creature waters.memory x y with
  | empty => rfl
  | fish => rfl
  | shark starveTimeFull timeToDeath =>
    rw [known] at here bred
    rcases here rfl with ⟨food, fullTime⟩
    have time : timeToDeath = waters.sea.starveTime := Option.some.inj fullTime
    have own : starveTimeFull = waters.sea.starveTime := bred
    rw [time, own]
    exact Creature.stepped_full food

theorem allFull_of_feedings {memory : Memory}
    (changed : ∀ x y, waters.sea.creature memory x y =
      (waters.sea.creature waters.memory x y).stepped (waters.sea.around waters.memory FISH x y))
    (same : ∀ (x : Fin extent.width) (y : Fin extent.height),
      waters.sea.sharkFeeding memory x y = waters.sea.sharkFeeding waters.memory x y) :
    waters.AllFull := by
  intro x y shark
  have feeding := same x y
  have bred := waters.sound.bred x y
  rw [Sea.cellContents_cell, Option.some.injEq] at shark
  rw [Sea.sharkFeeding_cell, Sea.sharkFeeding_cell, Option.some.injEq, changed x y] at feeding
  rw [Sea.sharkFeeding_cell]
  cases known : waters.sea.creature waters.memory x y with
  | empty | fish =>
    rw [known] at shark
    exact absurd shark (by decide)
  | shark starveTimeFull timeToDeath =>
    rw [known] at feeding bred
    rcases Creature.stepped_hunger_eq feeding with ⟨food, full⟩
    exact ⟨food, congrArg some (full.trans bred)⟩

/-- The old ocean looks as before, a second step from it has the same result and it is
encoded in the same way, exactly if all sharks are full and eat. -/
theorem receiver_kept_iff (waters : Waters extent) :
    ∃ after : Waters extent,
      waters.sea.timeStep waters.memory = some (after.memory, after.sea) ∧
      ((waters.sea.LooksLike after.memory waters.sea waters.memory ∧
        (∃ again : Waters extent,
          waters.sea.timeStep after.memory = some (again.memory, again.sea) ∧
            again.sea.LooksLike again.memory after.sea after.memory) ∧
        RunList.ofOcean waters.sea after.memory = RunList.ofOcean waters.sea waters.memory) <->
      waters.AllFull) := by
  rcases waters.timeStep_waters with ⟨after, steps, progress⟩
  have changed := fun x y => progress.changed x y (Torus.mem_cells (x, y))
  refine ⟨after, steps, fun kept => ?_, fun full => ?_⟩
  · exact allFull_of_feedings changed fun x y => (kept.1 x y).2
  · have same : waters.sea.creature after.memory = waters.sea.creature waters.memory := by
      funext x y
      exact (changed x y).trans (stepped_of_allFull full x y)
    have looks := Sea.looksLike_of_creatures same
    let receiver : Waters extent :=
      ⟨after.memory, waters.sea, waters.sound.evolves progress.evolves⟩
    rcases receiver.timeStep_waters with ⟨again, stepsAgain, progressAgain⟩
    refine ⟨looks, ⟨again, stepsAgain, Sea.looksLike_of_creatures ?_⟩,
      Sea.ofOcean_of_looksLike looks⟩
    funext x y
    rw [show again.sea.creature again.memory x y = _ from
      progressAgain.result x y (Torus.mem_cells (x, y))]
    rw [show after.sea.creature after.memory x y = _ from
      progress.result x y (Torus.mem_cells (x, y))]
    exact congrFun (congrFun (Sea.next_of_creatures same) x) y

end Waters

/-- The lone shark gets hungrier in the ocean that a time step starts from. -/
theorem timeStep_starves_receiver :
    (loneShark.bind fun state => state.2.sharkFeeding state.1 0 0) = some 3 ∧
      (loneShark.bind fun state => (state.2.timeStep state.1).bind fun after =>
        state.2.sharkFeeding after.1 0 0) = some 2 := by
  decide

end SharksAndFish
end Codebank
