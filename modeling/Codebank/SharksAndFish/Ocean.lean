import Mathlib.Data.Nat.ModEq
import Mathlib.Data.List.GetD

namespace Codebank
namespace SharksAndFish

open List

/-!
# The ocean

A rectangular grid of creatures whose coordinates wrap around at both ends.  The
cells are also numbered in the order in which the encoder visits them, row after
row.
-/

/-- An ocean whose cells an `int` can count. -/
structure Size where
  width : Nat
  height : Nat
  width_pos : 0 < width
  height_pos : 0 < height
  area_lt : width * height < 2 ^ 31

namespace Ocean

def EMPTY : Int := 0
def SHARK : Int := 1
def FISH : Int := 2

def NULL_TYPE : Int := -10
def NULL_LENGTH : Int := -10
def NULL_HUNGER : Int := -10

end Ocean

open Ocean

/-- The objects a cell can hold: a plain `Creature` is only ever created empty. -/
inductive Creature where
  | empty
  | fish
  | shark (starveTimeFull timeToDeath : Int)
  deriving DecidableEq

namespace Creature

def getType : Creature -> Int
  | empty => EMPTY
  | fish => FISH
  | shark _ _ => SHARK

/-- Reading the hunger casts to `Shark`, which fails for the others. -/
def getTimeToDeath : Creature -> Option Int
  | shark _ timeToDeath => some timeToDeath
  | _ => none

def BredFor (starveTime : Int) : Creature -> Prop
  | shark starveTimeFull _ => starveTimeFull = starveTime
  | _ => True

/-- What an encoding keeps of a cell: its type and its hunger. -/
def content : Creature -> Int × Int
  | empty => (EMPTY, NULL_HUNGER)
  | fish => (FISH, NULL_HUNGER)
  | shark _ timeToDeath => (SHARK, timeToDeath)

theorem content_fst (creature : Creature) : creature.content.1 = creature.getType := by
  cases creature <;> rfl

variable {creature : Creature}

theorem getType_eq_empty : creature.getType = EMPTY <-> creature = empty := by
  cases creature <;> simp [getType, EMPTY, FISH, SHARK]

theorem content_eq_empty : creature.content = (EMPTY, NULL_HUNGER) <-> creature = empty := by
  cases creature <;> simp [content, EMPTY, FISH, SHARK]

/-- Nothing else is lost: all sharks of an ocean have the same full stomach. -/
theorem content_injective {starveTime : Int} {first second : Creature}
    (bred : first.BredFor starveTime) (bredToo : second.BredFor starveTime)
    (same : first.content = second.content) : first = second := by
  cases first <;> cases second <;>
    simp_all [content, BredFor, EMPTY, FISH, SHARK]

end Creature

/-! ## Coordinates -/

/-- The remainder of Java, which keeps the sign, moved into the range. -/
def convertCoord (coordinate : Int) (bound : Nat) : Int :=
  if coordinate.tmod bound < 0 then coordinate.tmod bound + bound else coordinate.tmod bound

variable {bound : Nat}

theorem convertCoord_eq_emod (coordinate : Int) (positive : 0 < bound) :
    convertCoord coordinate bound = coordinate % bound := by
  rw [convertCoord, Int.tmod_eq_emod]
  have below := Int.emod_lt_of_pos coordinate (Int.natCast_pos.mpr positive)
  have above := Int.emod_nonneg coordinate (Int.natCast_ne_zero.mpr positive.ne')
  by_cases exact : 0 <= coordinate ∨ (bound : Int) ∣ coordinate
  · rw [if_pos exact]
    split_ifs with negative <;> omega
  · rw [if_neg exact, Int.natAbs_natCast]
    split_ifs with negative <;> omega

theorem convertCoord_toNat_lt (coordinate : Int) (positive : 0 < bound) :
    (convertCoord coordinate bound).toNat < bound := by
  rw [convertCoord_eq_emod coordinate positive]
  have below := Int.emod_lt_of_pos coordinate (Int.natCast_pos.mpr positive)
  omega

theorem convertCoord_natCast {coordinate : Nat} (within : coordinate < bound) :
    (convertCoord coordinate bound).toNat = coordinate := by
  rw [convertCoord_eq_emod _ (Nat.zero_lt_of_lt within), <- Int.natCast_mod,
    Nat.mod_eq_of_lt within, Int.toNat_natCast]

namespace Size

variable (size : Size)

def area : Nat := size.width * size.height

def convertXCoord (x : Int) : Fin size.width :=
  ⟨(convertCoord x size.width).toNat, convertCoord_toNat_lt x size.width_pos⟩

def convertYCoord (y : Int) : Fin size.height :=
  ⟨(convertCoord y size.height).toNat, convertCoord_toNat_lt y size.height_pos⟩

/-- The number of a cell, row by row. -/
def position (x : Fin size.width) (y : Fin size.height) : Nat :=
  y * size.width + x

def column (position : Nat) : Fin size.width :=
  ⟨position % size.width, Nat.mod_lt position size.width_pos⟩

def row (position : Nat) : Fin size.height :=
  ⟨position / size.width % size.height, Nat.mod_lt _ size.height_pos⟩

variable {size}

theorem area_pos (size : Size) : 0 < size.area :=
  Nat.mul_pos size.width_pos size.height_pos

theorem position_lt (x : Fin size.width) (y : Fin size.height) : size.position x y < size.area := by
  have rows : (y + 1) * size.width <= size.height * size.width :=
    Nat.mul_le_mul_right size.width y.isLt
  rw [position, area, Nat.mul_comm size.width]
  have column := x.isLt
  rw [Nat.add_mul] at rows
  omega

theorem column_position (x : Fin size.width) (y : Fin size.height) :
    size.column (size.position x y) = x := by
  apply Fin.ext
  show (y * size.width + x) % size.width = x
  rw [Nat.mul_add_mod_self_right, Nat.mod_eq_of_lt x.isLt]

theorem row_position (x : Fin size.width) (y : Fin size.height) :
    size.row (size.position x y) = y := by
  apply Fin.ext
  show (y * size.width + x) / size.width % size.height = y
  rw [Nat.add_div_of_dvd_right (Nat.dvd_mul_left _ _), Nat.mul_div_cancel _ size.width_pos,
    Nat.div_eq_of_lt x.isLt, Nat.add_zero, Nat.mod_eq_of_lt y.isLt]

theorem position_column_row {position : Nat} (within : position < size.area) :
    size.position (size.column position) (size.row position) = position := by
  have quotient : position / size.width < size.height :=
    Nat.div_lt_of_lt_mul within
  show position / size.width % size.height * size.width + position % size.width = position
  rw [Nat.mod_eq_of_lt quotient, Nat.mul_comm]
  exact Nat.div_add_mod position size.width

end Size

/-! ## The grid -/

/-- An ocean with its creatures as values. -/
structure Ocean (size : Size) where
  starveTime : Int
  ocean_array : Fin size.width -> Fin size.height -> Creature
  bred : ∀ x y, (ocean_array x y).BredFor starveTime

namespace Ocean

variable {size : Size} {creature : Creature}

def new (size : Size) (starveTime : Int) : Ocean size where
  starveTime := starveTime
  ocean_array _ _ := .empty
  bred _ _ := trivial

def cellContents (ocean : Ocean size) (x y : Int) : Int :=
  (ocean.ocean_array (size.convertXCoord x) (size.convertYCoord y)).getType

/-- An array access without conversion, which fails outside the bounds. -/
def readArray (ocean : Ocean size) (x y : Int) : Option Creature :=
  if inside : (0 <= x ∧ x.toNat < size.width) ∧ 0 <= y ∧ y.toNat < size.height then
    some (ocean.ocean_array ⟨x.toNat, inside.1.2⟩ ⟨y.toNat, inside.2.2⟩)
  else
    none

def sharkFeeding (ocean : Ocean size) (x y : Int) : Option Int :=
  if ocean.cellContents x y = SHARK then
    (ocean.readArray x y).bind Creature.getTimeToDeath
  else
    some NULL_HUNGER

/-- A creature in a cell. -/
def put (ocean : Ocean size) (x : Fin size.width) (y : Fin size.height) (creature : Creature)
    (suits : creature.BredFor ocean.starveTime) : Ocean size where
  starveTime := ocean.starveTime
  ocean_array := fun column row =>
    if column = x ∧ row = y then creature else ocean.ocean_array column row
  bred := by
    intro column row
    split_ifs with here
    · exact suits
    · exact ocean.bred column row

/-- The three methods that place a creature in an empty cell differ in the creature. -/
def add (ocean : Ocean size) (x y : Int) (creature : Creature)
    (suits : creature.BredFor ocean.starveTime) : Ocean size :=
  if ocean.cellContents x y = EMPTY then
    ocean.put (size.convertXCoord x) (size.convertYCoord y) creature suits
  else
    ocean

def addFish (ocean : Ocean size) (x y : Int) : Ocean size :=
  ocean.add x y .fish trivial

def addShark (ocean : Ocean size) (x y : Int) : Ocean size :=
  ocean.add x y (.shark ocean.starveTime ocean.starveTime) rfl

/-- The method `addShark` with three parameters. -/
def addSharkFed (ocean : Ocean size) (x y feeding : Int) : Ocean size :=
  ocean.add x y (.shark ocean.starveTime feeding) rfl

/-! ## Cells in order -/

def cell (ocean : Ocean size) (position : Nat) : Creature :=
  ocean.ocean_array (size.column position) (size.row position)

/-- What `cellContents` and `sharkFeeding` see. -/
def contents (ocean : Ocean size) : List (Int × Int) :=
  (List.range size.area).map fun position => (ocean.cell position).content

/-- An ocean is known by its cells. -/
theorem ext_cell {first second : Ocean size} (starveTimes : first.starveTime = second.starveTime)
    (cells : ∀ position, position < size.area -> first.cell position = second.cell position) :
    first = second := by
  rcases first with ⟨starveTime, array, bred⟩
  rcases second with ⟨starveTimeToo, arrayToo, bredToo⟩
  cases starveTimes
  have same : array = arrayToo := by
    funext x y
    have here := cells (size.position x y) (Size.position_lt x y)
    simp only [cell, Size.column_position, Size.row_position] at here
    exact here
  cases same
  rfl

theorem length_contents (ocean : Ocean size) : ocean.contents.length = size.area := by
  rw [contents, length_map, length_range]

variable {position : Nat}

theorem contents_getElem? (ocean : Ocean size) (within : position < size.area) :
    ocean.contents[position]? = some (ocean.cell position).content := by
  rw [contents, getElem?_map, getElem?_range within]
  rfl

theorem cell_position (ocean : Ocean size) (x : Fin size.width) (y : Fin size.height) :
    ocean.cell (size.position x y) = ocean.ocean_array x y := by
  rw [cell, Size.column_position, Size.row_position]

theorem cell_put (ocean : Ocean size) (x : Fin size.width) (y : Fin size.height)
    (suits : creature.BredFor ocean.starveTime) (within : position < size.area) :
    (ocean.put x y creature suits).cell position =
      if position = size.position x y then creature else ocean.cell position := by
  have same : (size.column position = x ∧ size.row position = y) <->
      position = size.position x y := by
    constructor
    · rintro ⟨rfl, rfl⟩
      exact (Size.position_column_row within).symm
    · rintro rfl
      exact ⟨Size.column_position x y, Size.row_position x y⟩
  show (if size.column position = x ∧ size.row position = y then _ else _) = _
  rw [if_congr same rfl rfl]
  rfl

/-- The number of the cell that two coordinates name. -/
def target (size : Size) (x y : Int) : Nat :=
  size.position (size.convertXCoord x) (size.convertYCoord y)

theorem target_lt (x y : Int) : target size x y < size.area :=
  Size.position_lt _ _

theorem cellContents_eq (ocean : Ocean size) (x y : Int) :
    ocean.cellContents x y = (ocean.cell (target size x y)).getType := by
  rw [target, cell_position]
  rfl

theorem cell_add (ocean : Ocean size) (x y : Int) (suits : creature.BredFor ocean.starveTime)
    (within : position < size.area) :
    (ocean.add x y creature suits).cell position =
      if position = target size x y ∧ ocean.cell position = .empty then creature
      else ocean.cell position := by
  have contents : ocean.cellContents x y = EMPTY <-> ocean.cell (target size x y) = .empty := by
    rw [cellContents_eq, Creature.getType_eq_empty]
  by_cases empty : ocean.cell (target size x y) = .empty
  · rw [add, if_pos (contents.mpr empty), cell_put _ _ _ _ within]
    change (if position = target size x y then _ else _) = _
    by_cases here : position = target size x y
    · rw [if_pos here, if_pos ⟨here, here ▸ empty⟩]
    · rw [if_neg here, if_neg fun both => here both.1]
  · rw [add, if_neg fun same => empty (contents.mp same), if_neg]
    rintro ⟨rfl, empty'⟩
    exact empty empty'

theorem add_starveTime (ocean : Ocean size) (x y : Int)
    (suits : creature.BredFor ocean.starveTime) :
    (ocean.add x y creature suits).starveTime = ocean.starveTime := by
  rw [add]
  split_ifs <;> rfl

/-- Adding to an empty cell changes one content. -/
theorem contents_add (ocean : Ocean size) (x y : Int) (suits : creature.BredFor ocean.starveTime) :
    (ocean.add x y creature suits).contents =
      if ocean.cell (target size x y) = .empty then
        ocean.contents.set (target size x y) creature.content
      else ocean.contents := by
  apply ext_getElem?
  intro position
  by_cases within : position < size.area
  · rw [contents_getElem? _ within, cell_add ocean x y suits within]
    by_cases here : position = target size x y
    · cases here
      by_cases empty : ocean.cell (target size x y) = .empty
      · rw [if_pos ⟨rfl, empty⟩, if_pos empty, getElem?_set_self]
        rw [length_contents]
        exact within
      · rw [if_neg fun both => empty both.2, if_neg empty, contents_getElem? _ within]
    · rw [if_neg fun both => here both.1]
      split_ifs
      · rw [getElem?_set_ne fun same => here same.symm, contents_getElem? _ within]
      · rw [contents_getElem? _ within]
  · rw [getElem?_eq_none (by rw [length_contents]; exact Nat.le_of_not_lt within),
      getElem?_eq_none]
    split_ifs
    · rw [length_set, length_contents]
      exact Nat.le_of_not_lt within
    · rw [length_contents]
      exact Nat.le_of_not_lt within

/-! ## Reading by coordinates inside the grid -/

theorem target_natCast {x y : Nat} (inside : x < size.width) (below : y < size.height) :
    target size x y = y * size.width + x := by
  show (convertCoord y size.height).toNat * size.width + (convertCoord x size.width).toNat = _
  rw [convertCoord_natCast inside, convertCoord_natCast below]

theorem sharkFeeding_natCast (ocean : Ocean size) {x y : Nat} (inside : x < size.width)
    (below : y < size.height) :
    ocean.sharkFeeding x y = some (ocean.cell (y * size.width + x)).content.2 := by
  have read : ocean.readArray x y = some (ocean.cell (y * size.width + x)) := by
    have bounds : (0 <= (x : Int) ∧ (x : Int).toNat < size.width) ∧ 0 <= (y : Int) ∧
        (y : Int).toNat < size.height := ⟨⟨by omega, inside⟩, by omega, below⟩
    rw [readArray, dif_pos bounds]
    exact congrArg some (cell_position ocean ⟨x, inside⟩ ⟨y, below⟩).symm
  rw [sharkFeeding, cellContents_eq, target_natCast inside below, read]
  cases ocean.cell (y * size.width + x) <;> rfl

end Ocean

end SharksAndFish
end Codebank
