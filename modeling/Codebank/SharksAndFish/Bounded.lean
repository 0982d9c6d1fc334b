import Codebank.SharksAndFish.Constructors
import Codebank.SharksAndFish.RunList
import Codebank.SharksAndFish.Wrapping

namespace Codebank
namespace SharksAndFish

open Ocean Foundation Foundation.RunLength Option List

/-!
# Oceans whose cells an `int` can count

As long as an ocean has fewer than 2 ^ 31 cells, no position and no length leaves the
range of an `int`.  Decoding and encoding objects then does what it does with all
integers and an ocean that is a plain value.
-/

def Size.extent (size : Size) : Extent where
  width := size.width
  height := size.height
  width_pos := size.width_pos
  height_pos := size.height_pos

variable {size : Size}

theorem column_extent (x : Int) : Sea.column size.extent x = size.convertXCoord x := by
  apply Fin.ext
  show (x % size.width).toNat = (convertCoord x size.width).toNat
  rw [convertCoord_eq_emod x size.width_pos]

theorem row_extent (y : Int) : Sea.row size.extent y = size.convertYCoord y := by
  apply Fin.ext
  show (y % size.height).toNat = (convertCoord y size.height).toNat
  rw [convertCoord_eq_emod y size.height_pos]

/-- The object has the cells of the value. -/
structure Sea.Shows (sea : Sea size.extent) (memory : Memory) (ocean : Ocean size) : Prop where
  starveTime : sea.starveTime = ocean.starveTime
  sound : sea.Sound memory
  creatures : ∀ x y, sea.creature memory x y = ocean.ocean_array x y

namespace Sea

theorem shows_new (size : Size) (memory : Memory) (starveTime : Int) :
    ∃ state, Sea.new size.extent memory starveTime = some state ∧
      state.2.Shows state.1 (Ocean.new size starveTime) := by
  rcases Sea.new_filled size.extent memory starveTime with ⟨state, created, filled⟩
  exact ⟨state, created, filled.starveTime, filled.sound,
    fun x y => filled.empty x y (Torus.mem_cells (x, y))⟩

variable {sea : Sea size.extent} {memory : Memory} {ocean : Ocean size}

theorem Shows.creature_at (shows : sea.Shows memory ocean) (x y : Int) :
    sea.creature memory (column size.extent x) (row size.extent y) =
      ocean.ocean_array (size.convertXCoord x) (size.convertYCoord y) := by
  rw [shows.creatures, column_extent, row_extent]

theorem Shows.add (shows : sea.Shows memory ocean) (x y : Int) {creature : Creature}
    (suits : creature.BredFor ocean.starveTime) :
    ∃ state, sea.add memory x y creature = some state ∧
      state.2.Shows state.1 (ocean.add x y creature suits) := by
  rw [add_eq, shows.creature_at, Ocean.add]
  by_cases empty : ocean.cellContents x y = EMPTY
  · have here : (ocean.ocean_array (size.convertXCoord x) (size.convertYCoord y)).getType = EMPTY :=
      empty
    rw [if_pos here, if_pos empty]
    refine ⟨_, rfl, shows.starveTime, shows.sound.assign _ _ (shows.starveTime ▸ suits), ?_⟩
    intro (column : Fin size.width) (row : Fin size.height)
    show (memory.allocate creature).1.objects _ =
      if column = size.convertXCoord x ∧ row = size.convertYCoord y then creature
      else ocean.ocean_array column row
    by_cases same : column = Sea.column size.extent x ∧ row = Sea.row size.extent y
    · rcases same with ⟨rfl, rfl⟩
      rw [if_pos ⟨column_extent x, row_extent y⟩]
      exact (congrArg _ (sea.assign_same _ _ _)).trans (memory.objects_allocate_fresh creature)
    · rw [if_neg fun both => same ⟨both.1.trans (column_extent x).symm,
        both.2.trans (row_extent y).symm⟩]
      exact (congrArg _ (sea.assign_other (fun equal => same (Prod.mk.inj equal)) _)).trans
        ((memory.objects_allocate_old creature (shows.sound.allocated column row)).trans
          (shows.creatures column row))
  · have here : ¬ (ocean.ocean_array (size.convertXCoord x) (size.convertYCoord y)).getType =
      EMPTY :=
      empty
    rw [if_neg here, if_neg empty]
    exact ⟨_, rfl, shows⟩

end Sea

/-! ## Decoding -/

namespace RunList

open RunLengthEncoding

theorem int_of_le_area (size : Size) {number : Int} (nonnegative : 0 <= number)
    (within : number <= size.area) : int number = number := by
  have bound : size.area < 2147483648 := size.area_lt
  exact int_of_isInt ⟨by omega, by omega⟩

theorem canvas_draws (size : Size) :
    (canvas size.extent).Draws fun state (ocean : Ocean size) => state.2.Shows state.1 ocean where
  width := rfl
  int _ nonnegative within := int_of_le_area size nonnegative within
  addFish state ocean x y shows :=
    shows.add x y (show Creature.fish.BredFor ocean.starveTime from trivial)
  addSharkFed state ocean x y hunger shows := by
    show ∃ after, state.2.addSharkFed state.1 x y hunger = some after ∧ _
    rw [Sea.addSharkFed, shows.starveTime]
    exact shows.add x y
      (show (Creature.shark ocean.starveTime hunger).BredFor ocean.starveTime from rfl)

/-- An encoding whose runs expand to the cells of an ocean decodes to it. -/
theorem toOcean_shows {encoding : RunList size.extent} {entries : List DList.Entry}
    {runs : List Run} {ocean : Ocean size} (stores : Stores encoding.runs entries runs)
    (real : ∀ run, run ∈ runs -> Lifelike run.1) (expanded : expand runs = ocean.contents)
    (sameTime : encoding.starveTime = ocean.starveTime) (memory : Memory) :
    ∃ state, encoding.toOcean memory = some state ∧ state.2.Shows state.1 ocean := by
  rcases Sea.shows_new size memory ocean.starveTime with ⟨start, created, shows⟩
  rcases draws_sea (canvas_draws size) stores real expanded shows with ⟨drawing, finished, drawn⟩
  refine ⟨drawing.ocean, ?_, drawn⟩
  rw [toOcean, sameTime, created, bind_eq_bind, bind_some, stores.holds.getFirst_eq,
    bind_eq_bind, bind_some, stores.holds.size, Int.toNat_natCast, finished]
  rfl

/-! ## Encoding -/

theorem scanCell_eq {extent : Extent} (sea : Sea extent) (memory : Memory) (scan : Scan)
    (cell : Fin extent.width × Fin extent.height) :
    scanCell sea memory scan cell = scan.see int (sea.creature memory cell.1 cell.2).content := by
  rw [scanCell, Sea.cellContents_cell, Sea.sharkFeeding_cell, <- Creature.content_fst]
  rfl

theorem visitOrder_rowMajor (size : Size) :
    visitOrder size = (rowMajor size.extent).map fun cell => ((cell.1 : Nat), (cell.2 : Nat)) := by
  have rows : List.range size.height = (finRange size.extent.height).map Fin.val :=
    map_coe_finRange_eq_range.symm
  have columns : List.range size.width = (finRange size.extent.width).map Fin.val :=
    map_coe_finRange_eq_range.symm
  rw [visitOrder, rowMajor, rows, columns, map_flatMap, flatMap_map]
  simp only [List.map_map]
  rfl

section

variable {sea : Sea size.extent} {memory : Memory} {ocean : Ocean size}

/-- An object that shows an ocean has its cells in their order. -/
theorem map_rowMajor (shows : sea.Shows memory ocean) :
    (rowMajor size.extent).map (fun cell => sea.creature memory cell.1 cell.2) =
      (List.range size.area).map ocean.cell := by
  have cells : (rowMajor size.extent).map (fun cell => sea.creature memory cell.1 cell.2) =
      (visitOrder size).map fun cell => ocean.cell (cell.2 * size.width + cell.1) := by
    rw [visitOrder_rowMajor, List.map_map]
    refine map_congr_left fun cell _ => ?_
    exact (shows.creatures cell.1 cell.2).trans (cell_position ocean cell.1 cell.2).symm
  rw [cells, visitOrder_eq, List.map_map]
  refine map_congr_left fun position _ => ?_
  exact congrArg ocean.cell (Nat.div_add_mod' position size.width)

theorem foldlM_scanCell (shows : sea.Shows memory ocean) (scan : Scan) :
    (rowMajor size.extent).foldlM (scanCell sea memory) scan =
      ocean.contents.foldlM (Scan.see int) scan := by
  have contents : ocean.contents = (rowMajor size.extent).map fun cell =>
      (sea.creature memory cell.1 cell.2).content := by
    have mapped := congrArg (List.map Creature.content) (map_rowMajor shows)
    rw [List.map_map, List.map_map] at mapped
    exact mapped.symm
  rw [contents, foldlM_map, funext fun scan => funext (scanCell_eq sea memory scan)]

theorem see_length {scan next : Scan} {content : Int × Int}
    (seen : scan.see int content = some next) :
    next.currEncodeLength = int (scan.currEncodeLength + 1) ∨ next.currEncodeLength = 1 := by
  rw [scan.see_eq] at seen
  split_ifs at seen
  · cases some.inj seen
    exact .inl rfl
  · rcases map_eq_some_iff.mp seen with ⟨runs, -, rfl⟩
    exact .inr rfl

/-- The length of the growing run is at most the number of rounds, so it stays an `int`. -/
theorem foldlM_see (size : Size) (contents : List (Int × Int)) (scan : Scan)
    (nonnegative : 0 <= scan.currEncodeLength)
    (within : scan.currEncodeLength + contents.length <= size.area) :
    contents.foldlM (Scan.see int) scan = contents.foldlM (Scan.see id) scan := by
  induction contents generalizing scan with
  | nil => rfl
  | cons content contents ih =>
    rw [length_cons, Int.natCast_succ] at within
    have longer : int (scan.currEncodeLength + 1) = scan.currEncodeLength + 1 :=
      int_of_le_area size (by omega) (by omega)
    have step : scan.see id content = scan.see int content := by
      rw [scan.see_eq, scan.see_eq, longer]
      rfl
    rw [foldlM_cons, foldlM_cons, step]
    cases seen : scan.see int content with
    | none => rfl
    | some next =>
      have length := see_length seen
      exact ih next (by omega) (by omega)

/-- The two checks differ only in what they may print. -/
theorem check_returns {list : DList} {complaints : List Nat}
    (checked : RunLengthEncoding.check size list = some complaints) (extent : Extent) :
    ∃ printed, check extent list = some printed := by
  rcases bind_eq_some_iff.mp checked with ⟨first, found, checked⟩
  rcases bind_eq_some_iff.mp checked with ⟨walked, walking, -⟩
  rw [check, checkCells, found, bind_eq_bind, bind_some, walking]
  exact ⟨_, rfl⟩

theorem sharkFeeding_origin (shows : sea.Shows memory ocean) :
    sea.sharkFeeding memory 0 0 = ocean.sharkFeeding 0 0 := by
  refine (sea.sharkFeeding_cell memory ⟨0, size.width_pos⟩ ⟨0, size.height_pos⟩).trans ?_
  refine Eq.trans ?_ (ocean.sharkFeeding_natCast size.width_pos size.height_pos).symm
  rw [shows.creatures]
  exact congrArg (fun creature => some (Creature.content creature).2)
    (cell_position ocean ⟨0, size.width_pos⟩ ⟨0, size.height_pos⟩).symm

/-- The object is encoded by the same runs as the value. -/
theorem ofOcean_shows (shows : sea.Shows memory ocean) {encoding : RunLengthEncoding size}
    (made : RunLengthEncoding.ofOcean ocean = some encoding) :
    ∃ printed, ofOcean sea memory = some ⟨encoding.starveTime, encoding.runs, printed⟩ := by
  rw [RunLengthEncoding.ofOcean] at made
  rcases bind_eq_some_iff.mp made with ⟨feeding, fed, made⟩
  rcases bind_eq_some_iff.mp made with ⟨scan, scanned, made⟩
  rcases bind_eq_some_iff.mp made with ⟨runs, finished, made⟩
  rcases bind_eq_some_iff.mp made with ⟨complaints, checked, made⟩
  rw [RunLengthEncoding.foldlM_scanCell] at scanned
  rcases check_returns checked size.extent with ⟨printed, checkedToo⟩
  refine ⟨printed, ?_⟩
  have origin : sea.cellContents memory 0 0 = some (ocean.cellContents 0 0) := by
    rw [Sea.cellContents_eq, shows.creature_at]
    rfl
  have within : (0 : Int) + ocean.contents.length <= size.area := by
    rw [length_contents]
    exact (Int.zero_add _).le
  have scannedToo := ((foldlM_scanCell shows _).trans (foldlM_see size ocean.contents
    ⟨DList.new, ocean.cellContents 0 0, 0, feeding⟩ (Int.le_refl 0) within)).trans scanned
  rw [ofOcean, origin, bind_eq_bind, bind_some, (sharkFeeding_origin shows).trans fed,
    bind_eq_bind, bind_some, scannedToo, bind_eq_bind, bind_some,
    finished, bind_eq_bind, bind_some, checkedToo, shows.starveTime,
    <- some.inj made]
  rfl

end

end RunList

end SharksAndFish
end Codebank
