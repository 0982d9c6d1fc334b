import Codebank.SharksAndFish.Objects

namespace Codebank
namespace SharksAndFish

open Ocean Foundation

/-!
# Coordinates outside the grid

Every method but one converts both coordinates before it touches the array, so a
whole number of rounds in either direction makes no difference.  The exception is
the hunger of a shark, which is read at the coordinates as they are given.
-/

namespace Sea

variable {extent : Extent}

theorem column_add_mul (x rounds : Int) :
    column extent (x + rounds * extent.width) = column extent x :=
  Torus.wrap_add_mul extent.width_pos x rounds

theorem row_add_mul (y rounds : Int) : row extent (y + rounds * extent.height) = row extent y :=
  Torus.wrap_add_mul extent.height_pos y rounds

/-- A method does the same some rounds further on, and does not fail. -/
def Wraps {Result : Type} (extent : Extent) (method : Int -> Int -> Option Result)
    (x y roundsX roundsY : Int) : Prop :=
  method (x + roundsX * extent.width) (y + roundsY * extent.height) = method x y ∧
    (method x y).isSome = true

/-- A method that looks only at the cell that its coordinates name. -/
theorem wraps_of_cell {Result : Type} {method : Int -> Int -> Option Result}
    (answer : Fin extent.width -> Fin extent.height -> Result)
    (byCell : ∀ x y, method x y = some (answer (column extent x) (row extent y)))
    (x y roundsX roundsY : Int) : Wraps extent method x y roundsX roundsY := by
  refine ⟨?_, ?_⟩
  · rw [byCell, byCell, column_add_mul, row_add_mul]
  · rw [byCell]
    rfl

/-- A coordinate and its wrapped one add the same. -/
theorem wraps_add (sea : Sea extent) (memory : Memory) (creature : Creature)
    (x y roundsX roundsY : Int) :
    Wraps extent (fun x y => sea.add memory x y creature) x y roundsX roundsY := by
  refine wraps_of_cell (fun x y =>
    if (sea.creature memory x y).getType = EMPTY then
      ((memory.allocate creature).1, sea.assign x y memory.fresh)
    else (memory, sea)) (fun x y => ?_) x y roundsX roundsY
  rw [add_eq]
  split_ifs <;> rfl

/-! ## Reading the hunger -/

theorem read_inside (sea : Sea extent) {x y : Int} (inside : Inside extent x y) :
    sea.read x y = some (sea.ocean_array (column extent x) (row extent y)) := by
  have columns : column extent x = ⟨x.toNat, inside.1.2⟩ := by
    rw [<- column_cell ⟨x.toNat, inside.1.2⟩]
    exact congrArg (column extent) (Int.toNat_of_nonneg inside.1.1).symm
  have rows : row extent y = ⟨y.toNat, inside.2.2⟩ := by
    rw [<- row_cell ⟨y.toNat, inside.2.2⟩]
    exact congrArg (row extent) (Int.toNat_of_nonneg inside.2.1).symm
  rw [read, dif_pos inside, columns, rows]

variable {creature : Creature}

theorem getTimeToDeath_shark (shark : creature.getType = SHARK) :
    creature.getTimeToDeath = some creature.content.2 := by
  cases creature with
  | empty | fish => exact absurd shark (by decide)
  | shark starveTimeFull timeToDeath => rfl

theorem content_other (other : creature.getType ≠ SHARK) : creature.content.2 = NULL_HUNGER := by
  cases creature with
  | empty => rfl
  | fish => rfl
  | shark starveTimeFull timeToDeath => exact absurd rfl other

theorem sharkFeeding_eq (sea : Sea extent) (memory : Memory) (x y : Int) :
    sea.sharkFeeding memory x y =
      if (sea.creature memory (column extent x) (row extent y)).getType = SHARK ∧
        ¬ Inside extent x y then none
      else some (sea.creature memory (column extent x) (row extent y)).content.2 := by
  have unfolded : sea.sharkFeeding memory x y =
      if (sea.creature memory (column extent x) (row extent y)).getType = SHARK then
        (sea.read x y).bind fun ref => (memory.objects ref).getTimeToDeath
      else some NULL_HUNGER := by
    rw [sharkFeeding, cellContents_eq]
    rfl
  rw [unfolded]
  by_cases shark : (sea.creature memory (column extent x) (row extent y)).getType = SHARK
  · rw [if_pos shark]
    by_cases inside : Inside extent x y
    · rw [read_inside sea inside, if_neg fun both => both.2 inside]
      exact getTimeToDeath_shark shark
    · rw [if_pos ⟨shark, inside⟩, read, dif_neg inside]
      rfl
  · rw [if_neg shark, if_neg fun both => shark both.1, content_other shark]

theorem cellContents_cell (sea : Sea extent) (memory : Memory) (x : Fin extent.width)
    (y : Fin extent.height) :
    sea.cellContents memory x y = some (sea.creature memory x y).getType := by
  rw [cellContents_eq, column_cell, row_cell]

theorem sharkFeeding_cell (sea : Sea extent) (memory : Memory) (x : Fin extent.width)
    (y : Fin extent.height) :
    sea.sharkFeeding memory x y = some (sea.creature memory x y).content.2 := by
  have inside : Inside extent x y :=
    ⟨⟨Int.natCast_nonneg x, x.isLt⟩, Int.natCast_nonneg y, y.isLt⟩
  rw [sharkFeeding_eq, if_neg fun both => both.2 inside, column_cell, row_cell]

theorem wraps_sharkFeeding_iff (sea : Sea extent) (memory : Memory) (x y roundsX roundsY : Int) :
    Wraps extent (sea.sharkFeeding memory) x y roundsX roundsY <->
      (sea.cellContents memory x y = some SHARK -> Inside extent x y ∧
        Inside extent (x + roundsX * extent.width) (y + roundsY * extent.height)) := by
  rw [Wraps, sharkFeeding_eq, sharkFeeding_eq, column_add_mul, row_add_mul, cellContents_eq,
    Option.some.injEq]
  by_cases shark : (sea.creature memory (column extent x) (row extent y)).getType = SHARK
  · by_cases here : Inside extent x y
    · by_cases there : Inside extent (x + roundsX * extent.width) (y + roundsY * extent.height)
      · simp [shark, here, there]
      · simp [shark, here, there]
    · simp [shark, here]
  · simp [shark]

/-- All methods treat the ocean as a torus, except that the hunger of a shark can
only be read at coordinates inside the grid. -/
theorem methods_wrap_iff (sea : Sea extent) (memory : Memory) (x y roundsX roundsY feeding : Int) :
    (Wraps extent (sea.addFish memory) x y roundsX roundsY ∧
      Wraps extent (sea.addShark memory) x y roundsX roundsY ∧
      Wraps extent (fun x y => sea.addSharkFed memory x y feeding) x y roundsX roundsY ∧
      Wraps extent (sea.cellContents memory) x y roundsX roundsY ∧
      Wraps extent (sea.sharkFeeding memory) x y roundsX roundsY) <->
    (sea.cellContents memory x y = some SHARK -> Inside extent x y ∧
      Inside extent (x + roundsX * extent.width) (y + roundsY * extent.height)) := by
  rw [<- wraps_sharkFeeding_iff]
  constructor
  · exact fun all => all.2.2.2.2
  · intro feedings
    exact ⟨sea.wraps_add memory .fish x y roundsX roundsY,
      sea.wraps_add memory _ x y roundsX roundsY,
      sea.wraps_add memory _ x y roundsX roundsY,
      wraps_of_cell (fun x y => (sea.creature memory x y).getType)
        (sea.cellContents_eq memory) x y roundsX roundsY, feedings⟩

end Sea

/-- An ocean of a single cell. -/
def singleCell : Extent where
  width := 1
  height := 1
  width_pos := Nat.one_pos
  height_pos := Nat.one_pos

def blankMemory : Memory where
  objects _ := .empty
  fresh := 0

/-- A new ocean of one cell with a newborn shark in it. -/
def loneShark : Option (Memory × Sea singleCell) := do
  let state <- Sea.new singleCell blankMemory 3
  state.2.addShark state.1 0 0

/-- One round further on, the hunger of the shark cannot be read. -/
theorem sharkFeeding_throws_beyond :
    (loneShark.bind fun state => state.2.sharkFeeding state.1 0 0) = some 3 ∧
      (loneShark.bind fun state => state.2.cellContents state.1 (0 + 1 * 1) 0) = some SHARK ∧
      (loneShark.bind fun state => state.2.sharkFeeding state.1 (0 + 1 * 1) 0) = none := by
  decide

end SharksAndFish
end Codebank
