import Mathlib.Data.List.FinRange
import Mathlib.Data.List.ProdSigma

namespace Codebank
namespace Foundation
namespace Torus

open List

/-!
# Grids that wrap around

The cells of a grid whose columns and rows both continue at the other end.  Every
cell has eight neighbours; on a grid narrower than three some of them are the same
cell, which then counts several times, and can be the cell itself.
-/

variable {width height : Nat}

/-- The place on a ring that a coordinate names. -/
def wrap {bound : Nat} (positive : 0 < bound) (coordinate : Int) : Fin bound :=
  ⟨(coordinate % bound).toNat, by
    have below := Int.emod_lt_of_pos coordinate (Int.natCast_pos.mpr positive)
    omega⟩

variable {bound : Nat}

theorem wrap_val (positive : 0 < bound) (coordinate : Int) :
    ((wrap positive coordinate : Nat) : Int) = coordinate % bound :=
  Int.toNat_of_nonneg (Int.emod_nonneg coordinate (Int.natCast_ne_zero.mpr positive.ne'))

theorem wrap_natCast (positive : 0 < bound) (place : Fin bound) :
    wrap positive (place : Nat) = place := by
  apply Fin.ext
  apply Int.ofNat_inj.mp
  rw [wrap_val]
  exact Int.emod_eq_of_lt (Int.natCast_nonneg place) (Int.ofNat_lt.mpr place.isLt)

/-- A whole number of rounds leads back to the same place. -/
theorem wrap_add_mul (positive : 0 < bound) (coordinate rounds : Int) :
    wrap positive (coordinate + rounds * bound) = wrap positive coordinate := by
  apply Fin.ext
  show ((coordinate + rounds * bound) % bound).toNat = (coordinate % bound).toNat
  rw [Int.add_mul_emod_self_right]

/-! ## Neighbours -/

/-- The place some steps away. -/
def shift {bound : Nat} (place : Fin bound) (steps : Int) : Fin bound :=
  wrap place.pos (place + steps)

theorem shift_zero (place : Fin bound) : shift place 0 = place := by
  rw [shift, Int.add_zero]
  exact wrap_natCast place.pos place

def offsets : List (Int × Int) :=
  [(-1, -1), (-1, 0), (-1, 1), (0, -1), (0, 1), (1, -1), (1, 0), (1, 1)]

def neighbours (x : Fin width) (y : Fin height) : List (Fin width × Fin height) :=
  offsets.map fun offset => (shift x offset.1, shift y offset.2)

/-- The three columns and three rows around a cell, with the cell in the middle. -/
def window (x : Fin width) (y : Fin height) : List (Fin width × Fin height) :=
  [-1, 0, 1].flatMap fun column => [-1, 0, 1].map fun row => (shift x column, shift y row)

theorem window_perm (x : Fin width) (y : Fin height) :
    (window x y).Perm ((x, y) :: neighbours x y) := by
  have middle : (shift x 0, shift y 0) = (x, y) := by rw [shift_zero, shift_zero]
  rw [<- middle]
  let before := [(shift x (-1), shift y (-1)), (shift x (-1), shift y 0),
    (shift x (-1), shift y 1), (shift x 0, shift y (-1))]
  let behind := [(shift x 0, shift y 1), (shift x 1, shift y (-1)),
    (shift x 1, shift y 0), (shift x 1, shift y 1)]
  show (before ++ (shift x 0, shift y 0) :: behind).Perm _
  exact perm_middle

/-- How many neighbours have a property. -/
def near {Content : Type} (grid : Fin width -> Fin height -> Content) (property : Content -> Bool)
    (x : Fin width) (y : Fin height) : Nat :=
  (neighbours x y).countP fun cell => property (grid cell.1 cell.2)

/-- A cell without the property may be counted with its neighbours. -/
theorem countP_window {Content : Type} (grid : Fin width -> Fin height -> Content)
    (property : Content -> Bool) {x : Fin width} {y : Fin height}
    (lacks : property (grid x y) = false) :
    (window x y).countP (fun cell => property (grid cell.1 cell.2)) = near grid property x y := by
  rw [(window_perm x y).countP_eq, countP_cons_of_neg]
  · rfl
  · rw [lacks]
    exact Bool.false_ne_true

/-! ## Visiting all cells -/

/-- The cells in the order of two nested loops, column after column. -/
def cells (width height : Nat) : List (Fin width × Fin height) :=
  (finRange width).flatMap fun x => (finRange height).map fun y => (x, y)

theorem mem_cells (cell : Fin width × Fin height) : cell ∈ cells width height := by
  refine List.mem_flatMap.mpr ⟨cell.1, mem_finRange cell.1, ?_⟩
  exact List.mem_map.mpr ⟨cell.2, mem_finRange cell.2, rfl⟩

theorem nodup_cells : (cells width height).Nodup :=
  (nodup_finRange width).product (nodup_finRange height)

end Torus
end Foundation
end Codebank
