import Codebank.SharksAndFish.Encoding

namespace Codebank
namespace SharksAndFish

open Ocean Foundation.RunLength List Option

/-!
# Reading an encoding back

The enumeration returns the stored runs in order and then null for ever.  Decoding
draws the cells of the ocean one after the other; the two ways in which it moves to
a new row keep the same position in the order of cells.
-/

namespace RunLengthEncoding

variable {size : Size}

/-! ## Enumerating -/

/-- Some runs have been returned, the others come next. -/
structure Enumerating (list : DList) (passed rest : List DList.Entry) : Prop where
  holds : list.Holds (passed ++ rest)
  returned : list.numRunsReturned = passed.length
  tracker : list.runTracker =
    some (if passed = [] then list.sentinel else list.firstRef rest)

def summary (run : Run) : List Int :=
  [run.1.1, run.2]

variable {list : DList}

theorem Enumerating.trackerValue {passed rest : List DList.Entry} {ref : Ref} {content : List Int}
    (enumerating : Enumerating list passed ((ref, content) :: rest)) :
    ∃ after, list.trackerValue = some (ref, after) ∧ after.nodes = list.nodes ∧
      Enumerating after (passed ++ [(ref, content)]) rest := by
  have holds := enumerating.holds
  have tracked : list.trackedRun = some ref := by
    rw [DList.trackedRun, enumerating.tracker]
    by_cases started : passed = []
    · cases started
      rw [if_pos rfl, if_pos rfl]
      exact holds.getFirst_eq
    · rw [if_neg started, if_neg]
      · rfl
      · intro same
        exact holds.split.ne_sentinel (mem_append_right _ mem_cons_self)
          (some.inj same)
  refine ⟨{ list with
      runTracker := list.getNext ref
      numRunsReturned := list.numRunsReturned + 1 }, ?_, rfl, ?_, ?_, ?_⟩
  · rw [DList.trackerValue, tracked]
    rfl
  · rw [<- append_cons]
    exact ⟨holds.ring, holds.items, holds.sentinelItem, holds.allocated, holds.size⟩
  · rw [length_append, enumerating.returned]
    rfl
  · rw [if_neg (append_ne_nil_of_right_ne_nil passed (cons_ne_nil _ _))]
    exact holds.getNext_eq

/-- `nextRun` returns the next run and moves on. -/
theorem Enumerating.nextRun {passed rest : List DList.Entry} {ref : Ref} {type length : Int}
    {further : List Int}
    (enumerating : Enumerating list passed ((ref, type :: length :: further) :: rest)) :
    ∃ after, list.nextRun = some (some [type, length], after) ∧
      Enumerating after (passed ++ [(ref, type :: length :: further)]) rest := by
  have holds := enumerating.holds
  have more : list.isNextRun = true := by
    rw [DList.isNextRun, enumerating.returned, holds.size, length_append, length_cons]
    exact decide_eq_true (by omega)
  rcases enumerating.trackerValue with ⟨after, tracked, sameNodes, enumeratingAfter⟩
  have item : (after.nodes ref).item = type :: length :: further := by
    rw [sameNodes]
    exact holds.item_eq
  refine ⟨after, ?_, enumeratingAfter⟩
  rw [DList.nextRun, if_pos more, tracked]
  show some (some [(after.nodes ref).getRunType, (after.nodes ref).getRunLength], _) = _
  rw [DListNode.getRunType, DListNode.getRunLength, item]
  rfl

theorem Enumerating.finished {passed : List DList.Entry}
    (enumerating : Enumerating list passed []) :
    list.nextRun = some (none, list) := by
  have finished : list.isNextRun = false := by
    rw [DList.isNextRun, enumerating.returned, enumerating.holds.size, append_nil]
    exact decide_eq_false (Int.lt_irrefl _)
  rw [DList.nextRun, finished]
  rfl

variable {runs : List Run}

/-- The runs that have not been returned come next, and then null. -/
theorem nextRuns_eq (calls : Nat) {passed rest : List DList.Entry}
    (enumerating : Enumerating list passed rest) (items : rest.map Prod.snd = runs.map Run.item) :
    list.nextRuns calls = some (((runs.map summary).map some).take calls ++
      replicate (calls - runs.length) none) := by
  induction calls generalizing list passed rest runs with
  | zero => rw [Nat.zero_sub, take_zero]; rfl
  | succ calls ih =>
    cases rest with
    | nil =>
      cases runs with
      | cons run runs => cases items
      | nil =>
        rw [DList.nextRuns, enumerating.finished]
        simp only [bind_eq_bind, bind_some]
        rw [ih enumerating items]
        simp [replicate_succ]
    | cons entry rest =>
      cases runs with
      | nil => cases items
      | cons run runs =>
        rcases entry with ⟨ref, content⟩
        rcases List.cons.inj items with ⟨rfl, restItems⟩
        rcases enumerating.nextRun with ⟨after, step, enumeratingAfter⟩
        rw [DList.nextRuns, step, bind_eq_bind, bind_some]
        simp only [ih enumeratingAfter restItems, bind_eq_bind, bind_some,
          map_cons, take_succ_cons, cons_append, length_cons,
          Nat.add_sub_add_right]
        rfl

/-! ## Decoding -/

end RunLengthEncoding

namespace Ocean

variable {size : Size} (sea : Ocean size) {cells : Nat}

/-- The ocean with its first cells only. -/
def upTo (cells : Nat) : Ocean size where
  starveTime := sea.starveTime
  ocean_array x y := if size.position x y < cells then sea.ocean_array x y else .empty
  bred x y := by
    split_ifs
    · exact sea.bred x y
    · trivial

theorem cell_upTo {position : Nat} (within : position < size.area) :
    (sea.upTo cells).cell position = if position < cells then sea.cell position else .empty := by
  show (if size.position (size.column position) (size.row position) < cells then _ else _) = _
  rw [Size.position_column_row within]
  rfl

theorem upTo_zero : sea.upTo 0 = Ocean.new size sea.starveTime :=
  ext_cell rfl fun _ within => (sea.cell_upTo within).trans (if_neg (Nat.not_lt_zero _))

theorem upTo_area : sea.upTo size.area = sea :=
  ext_cell rfl fun _ within => (sea.cell_upTo within).trans (if_pos within)

variable {sea}

theorem upTo_add {length : Nat} (empty : ∀ position, cells <= position ->
    position < cells + length -> sea.cell position = .empty) :
    sea.upTo (cells + length) = sea.upTo cells := by
  refine ext_cell rfl fun position within => ?_
  rw [cell_upTo _ within, cell_upTo _ within]
  by_cases before : position < cells
  · rw [if_pos before, if_pos (by omega)]
  · rw [if_neg before]
    split_ifs with inside
    · exact empty position (by omega) inside
    · rfl

/-- The next cell is blank, so adding its creature draws it. -/
theorem upTo_succ {x y : Int} (here : target size x y = cells)
    (suits : (sea.cell cells).BredFor (sea.upTo cells).starveTime) :
    (sea.upTo cells).add x y (sea.cell cells) suits = sea.upTo (cells + 1) := by
  refine ext_cell (add_starveTime _ _ _ _) fun position within => ?_
  rw [cell_add _ _ _ _ within, cell_upTo _ within, cell_upTo _ within, here]
  by_cases same : position = cells
  · subst same
    rw [if_neg (Nat.lt_irrefl _), if_pos ⟨rfl, rfl⟩, if_pos (Nat.lt_succ_self _)]
  · rw [if_neg fun both => same both.1]
    exact if_congr (by omega) rfl rfl

end Ocean

/-- The canvas shows oceans, and computes with the numbers of their cells as they are. -/
structure Canvas.Draws {size : Size} {Surface : Type} (canvas : Canvas Surface)
    (Shows : Surface -> Ocean size -> Prop) : Prop where
  width : canvas.width = size.width
  int : ∀ number : Int, 0 <= number -> number <= size.area -> canvas.int number = number
  addFish : ∀ surface ocean x y, Shows surface ocean ->
    ∃ after, canvas.addFish surface x y = some after ∧ Shows after (ocean.addFish x y)
  addSharkFed : ∀ surface ocean x y hunger, Shows surface ocean ->
    ∃ after, canvas.addSharkFed surface x y hunger = some after ∧
      Shows after (ocean.addSharkFed x y hunger)

theorem Canvas.value_draws (size : Size) :
    (Canvas.value size).Draws fun surface (ocean : Ocean size) => surface = ocean where
  width := rfl
  int _ _ _ := rfl
  addFish _ _ _ _ same := ⟨_, rfl, same ▸ rfl⟩
  addSharkFed _ _ _ _ _ same := ⟨_, rfl, same ▸ rfl⟩

namespace RunLengthEncoding

variable {size : Size} {Surface : Type} {drawing : Drawing Surface} {cells : Nat} {list : DList}
  {runs : List Run}

/-- The position is that of the cell with this number. -/
structure Placed (size : Size) (drawing : Drawing Surface) (cells : Nat) : Prop where
  nonnegativeX : 0 <= drawing.insertX
  nonnegativeY : 0 <= drawing.insertY
  position : drawing.insertY * size.width + drawing.insertX = cells

/-- Both coordinates are at most the number of the cell. -/
theorem Placed.le (placed : Placed size drawing cells) :
    drawing.insertX <= cells ∧ drawing.insertY <= cells := by
  have nonnegativeX := placed.nonnegativeX
  have nonnegativeY := placed.nonnegativeY
  have position := placed.position
  have rows : drawing.insertY * 1 <= drawing.insertY * size.width :=
    Int.mul_le_mul_of_nonneg_left (by have := size.width_pos; omega) nonnegativeY
  omega

section

variable {canvas : Canvas Surface} {Shows : Surface -> Ocean size -> Prop}
  (draws : canvas.Draws Shows)

include draws

/-- Moving to the next row does not change the cell that is meant. -/
theorem Placed.newRow (placed : Placed size drawing cells) (within : cells <= size.area)
    (full : (size.width : Int) <= drawing.insertX) :
    (drawing.newRow canvas).insertX = drawing.insertX - size.width ∧
      Placed size (drawing.newRow canvas) cells := by
  have bound := placed.le
  have nonnegativeY := placed.nonnegativeY
  have position : (drawing.insertY + 1) * size.width + (drawing.insertX - size.width) = cells := by
    rw [<- placed.position, Int.add_mul, Int.one_mul]
    omega
  have rows : (drawing.insertY + 1) * 1 <= (drawing.insertY + 1) * size.width :=
    Int.mul_le_mul_of_nonneg_left (by have := size.width_pos; omega) (by omega)
  have column : (drawing.newRow canvas).insertX = drawing.insertX - size.width := by
    show canvas.int (drawing.insertX - canvas.width) = _
    rw [draws.width]
    exact draws.int _ (by omega) (by omega)
  have row : (drawing.newRow canvas).insertY = drawing.insertY + 1 :=
    draws.int _ (by omega) (by omega)
  refine ⟨column, ?_, ?_, ?_⟩
  · omega
  · omega
  · rw [column, row]
    exact position

theorem skipRows_eq (rounds : Nat) (placed : Placed size drawing cells)
    (within : cells <= size.area) (enough : drawing.insertX < rounds) :
    ∃ after, Drawing.skipRows canvas rounds drawing = some after ∧
      after.ocean = drawing.ocean ∧ after.insertX <= size.width ∧ Placed size after cells := by
  have width := size.width_pos
  induction rounds generalizing drawing with
  | zero =>
    have nonnegative := placed.nonnegativeX
    omega
  | succ rounds ih =>
    rw [Drawing.skipRows, draws.width]
    split_ifs with wide
    · rcases placed.newRow draws within (Int.le_of_lt wide) with ⟨column, moved⟩
      rcases ih moved (by omega) with ⟨after, skipped, same, inRow, placedAfter⟩
      exact ⟨after, skipped, same, inRow, placedAfter⟩
    · exact ⟨drawing, rfl, rfl, by omega, placed⟩

end

/-- The first cells of an ocean have been drawn, and the position is behind them. -/
structure Drawn (Shows : Surface -> Ocean size -> Prop) (drawing : Drawing Surface)
    (sea : Ocean size) (cells : Nat) : Prop where
  shows : Shows drawing.ocean (sea.upTo cells)
  inRow : drawing.insertX <= size.width
  placed : Placed size drawing cells

section

variable {canvas : Canvas Surface} {Shows : Surface -> Ocean size -> Prop} {sea : Ocean size}
  (draws : canvas.Draws Shows)

include draws

/-- A run of empty cells is skipped. -/
theorem Drawn.skip {length : Nat} (drawn : Drawn Shows drawing sea cells)
    (within : cells + length <= size.area)
    (empty : ∀ position, cells <= position -> position < cells + length ->
      sea.cell position = .empty) :
    ∃ after, drawing.skip canvas length = some after ∧
      Drawn Shows after sea (cells + length) := by
  have bound := drawn.placed.le
  have nonnegativeX := drawn.placed.nonnegativeX
  have position := drawn.placed.position
  have moved : Placed size { drawing with insertX := drawing.insertX + length }
      (cells + length) := by
    refine ⟨?_, drawn.placed.nonnegativeY, ?_⟩
    · show 0 <= drawing.insertX + length
      omega
    · show drawing.insertY * size.width + (drawing.insertX + length) = _
      omega
  rcases skipRows_eq draws ((drawing.insertX + length).toNat + 1) moved within
    (by dsimp only; omega) with ⟨after, skipped, same, inRow, placed⟩
  refine ⟨after, ?_, ?_, inRow, placed⟩
  · rw [Drawing.skip, draws.int _ (by omega) (by omega)]
    exact skipped
  · rw [same, Ocean.upTo_add empty]
    exact drawn.shows

omit draws in
/-- The position that comes after a possible new row is that of the next cell. -/
theorem Placed.target (placed : Placed size drawing cells) (inside : drawing.insertX < size.width)
    (within : cells < size.area) : target size drawing.insertX drawing.insertY = cells := by
  have position := placed.position
  have rows : (cells : Int) < size.width * size.height := by
    rw [Size.area] at within
    exact_mod_cast within
  have below : drawing.insertY < size.height := by
    by_contra high
    have bound : size.height * size.width <= drawing.insertY * size.width :=
      Int.mul_le_mul_of_nonneg_right (by omega) (Int.natCast_nonneg _)
    rw [Int.mul_comm] at bound
    have nonnegative := placed.nonnegativeX
    omega
  rcases Int.eq_ofNat_of_zero_le placed.nonnegativeX with ⟨x, column⟩
  rcases Int.eq_ofNat_of_zero_le placed.nonnegativeY with ⟨y, row⟩
  rw [column] at inside position ⊢
  rw [row] at below position ⊢
  rw [target_natCast (by exact_mod_cast inside) (by exact_mod_cast below)]
  exact_mod_cast position

/-- A method that adds creatures draws a cell of the sea. -/
def Adds (Shows : Surface -> Ocean size -> Prop) (sea : Ocean size)
    (add : Surface -> Int -> Int -> Option Surface) (position : Nat) : Prop :=
  ∀ surface ocean x y, Shows surface ocean -> ocean.starveTime = sea.starveTime ->
    ∃ after suits, add surface x y = some after ∧
      Shows after (ocean.add x y (sea.cell position) suits)

variable {add : Surface -> Int -> Int -> Option Surface}

theorem Drawn.drawCell (drawn : Drawn Shows drawing sea cells) (within : cells < size.area)
    (adds : Adds Shows sea add cells) :
    ∃ after, drawing.drawCell canvas add = some after ∧
      Drawn Shows after sea (cells + 1) := by
  have width := size.width_pos
  have nonnegative := drawn.placed.nonnegativeX
  have inRow := drawn.inRow
  -- after the test for a new row the position lies inside a row
  have moved : ∃ moved : Drawing Surface, moved.ocean = drawing.ocean ∧
      (if drawing.insertX ≥ size.width then drawing.newRow canvas else drawing) = moved ∧
      moved.insertX < size.width ∧ Placed size moved cells := by
    by_cases full : drawing.insertX ≥ size.width
    · rcases drawn.placed.newRow draws within.le full with ⟨column, placed⟩
      exact ⟨drawing.newRow canvas, rfl, if_pos full, by omega, placed⟩
    · exact ⟨drawing, rfl, if_neg full, by omega, drawn.placed⟩
  rcases moved with ⟨moved, sameOcean, chosen, inside, placed⟩
  rcases adds drawing.ocean _ moved.insertX moved.insertY drawn.shows rfl with
    ⟨after, suits, added, shows⟩
  rw [Ocean.upTo_succ (placed.target inside within)] at shows
  have bound := placed.le
  have start := placed.nonnegativeX
  have next : canvas.int (moved.insertX + 1) = moved.insertX + 1 :=
    draws.int _ (by omega) (by omega)
  refine ⟨⟨after, moved.insertX + 1, moved.insertY⟩, ?_, shows, ?_, ?_, placed.nonnegativeY, ?_⟩
  · rw [Drawing.drawCell, draws.width, chosen, sameOcean, added]
    show some (Drawing.mk after (canvas.int (moved.insertX + 1)) moved.insertY) = _
    rw [next]
  · show moved.insertX + 1 <= size.width
    omega
  · show 0 <= moved.insertX + 1
    omega
  · show moved.insertY * size.width + (moved.insertX + 1) = _
    have position := placed.position
    omega

/-- A run of creatures is added cell by cell. -/
theorem Drawn.drawCells (drawn : Drawn Shows drawing sea cells) {length : Nat}
    (within : cells + length <= size.area)
    (adds : ∀ position, cells <= position -> position < cells + length ->
      Adds Shows sea add position) :
    ∃ after, Drawing.drawCells canvas add length drawing = some after ∧
      Drawn Shows after sea (cells + length) := by
  induction length generalizing drawing cells with
  | zero => exact ⟨drawing, rfl, drawn⟩
  | succ length ih =>
    rcases drawn.drawCell draws (by omega) (adds cells (Nat.le_refl _) (by omega)) with
      ⟨next, stepped, drawnNext⟩
    rcases ih drawnNext (by omega) (fun position after before =>
      adds position (by omega) (by omega)) with ⟨after, finished, drawnAfter⟩
    refine ⟨after, ?_, ?_⟩
    · rw [Drawing.drawCells, stepped]
      exact finished
    · rwa [Nat.add_right_comm, Nat.add_assoc] at drawnAfter

omit draws in
/-- All cells of a run have its type and hunger. -/
def Covers (sea : Ocean size) (run : Run) (cells : Nat) : Prop :=
  ∀ position, cells <= position -> position < cells + run.2 ->
    (sea.cell position).content = run.1

theorem Drawn.drawRun {run : Run} {node : DListNode} (drawn : Drawn Shows drawing sea cells)
    (within : cells + run.2 <= size.area) (item : node.item = [run.1.1, run.2, run.1.2])
    (real : Lifelike run.1) (covers : Covers sea run cells) :
    ∃ after, drawing.drawRun canvas node = some after ∧
      Drawn Shows after sea (cells + run.2) := by
  rcases real with ⟨creature, kind⟩
  have sameKind : ∀ position, cells <= position -> position < cells + run.2 ->
      (sea.cell position).content = creature.content :=
    fun position start stop => (covers position start stop).trans kind.symm
  have type : node.getRunType = creature.getType := by
    rw [DListNode.getRunType_eq item, <- kind, Creature.content_fst]
  rw [Drawing.drawRun]
  cases creature with
  | empty =>
    change node.getRunType = EMPTY at type
    rw [if_pos type, DListNode.getRunLength_eq item]
    exact drawn.skip draws within fun position start stop =>
      Creature.content_eq_empty.mp (sameKind position start stop)
  | fish =>
    change node.getRunType = FISH at type
    have notEmpty : node.getRunType ≠ EMPTY := by
      rw [type]
      decide
    rw [if_neg notEmpty, if_pos type, DListNode.getRunLength_eq item, Int.toNat_natCast]
    refine drawn.drawCells draws within fun position start stop surface ocean x y shows _ => ?_
    have fish : sea.cell position = .fish :=
      Creature.content_injective (sea.bred _ _) trivial (sameKind position start stop)
    rcases draws.addFish surface ocean x y shows with ⟨after, added, shown⟩
    rw [fish]
    exact ⟨after, trivial, added, shown⟩
  | shark full timeToDeath =>
    change node.getRunType = SHARK at type
    have notEmpty : node.getRunType ≠ EMPTY := type ▸ (show SHARK ≠ EMPTY by decide)
    have notFish : node.getRunType ≠ FISH := type ▸ (show SHARK ≠ FISH by decide)
    rw [if_neg notEmpty, if_neg notFish, if_pos type, DListNode.getRunLength_eq item,
      Int.toNat_natCast, DListNode.getRunHunger_eq item, <- kind]
    refine drawn.drawCells draws within fun position start stop surface ocean x y shows sameTime =>
      ?_
    have shark : sea.cell position = .shark ocean.starveTime timeToDeath :=
      Creature.content_injective (sea.bred _ _) sameTime (sameKind position start stop)
    rcases draws.addSharkFed surface ocean x y timeToDeath shows with ⟨after, added, shown⟩
    rw [shark]
    exact ⟨after, rfl, added, shown⟩

theorem Drawn.drawRuns {passed rest : List DList.Entry} {left right : List Run}
    (drawn : Drawn Shows drawing sea (expand left).length) (holds : list.Holds (passed ++ rest))
    (items : rest.map Prod.snd = right.map Run.item)
    (real : ∀ run, run ∈ right -> Lifelike run.1)
    (expanded : expand (left ++ right) = sea.contents) :
    ∃ after, RunLengthEncoding.drawRuns canvas list rest.length (list.firstRef rest) drawing =
        some after ∧ Drawn Shows after sea size.area := by
  induction rest generalizing passed left right drawing with
  | nil =>
    cases right with
    | nil =>
      rw [append_nil] at expanded
      rw [expanded, length_contents] at drawn
      exact ⟨drawing, rfl, drawn⟩
    | cons run right => cases items
  | cons entry rest ih =>
    cases right with
    | nil => cases items
    | cons run right =>
      rcases entry with ⟨ref, content⟩
      rcases List.cons.inj items with ⟨rfl, restItems⟩
      have total : (expand left).length + run.2 + (expand right).length = size.area := by
        rw [<- sea.length_contents, <- expanded]
        simp [Nat.add_assoc]
      have covers : Covers sea run (expand left).length := by
        intro position start stop
        have short : position - (expand left).length < run.2 := by omega
        have here : (expand (left ++ (run.1, run.2) :: right))[(expand left).length +
            (position - (expand left).length)]? = some run.1 := expand_getElem? short
        rw [Nat.add_sub_cancel' start] at here
        exact some.inj ((sea.contents_getElem? (by omega)).symm.trans
          (expanded ▸ here))
      have item : (list.nodes ref).item = [run.1.1, run.2, run.1.2] := holds.item_eq
      rcases drawn.drawRun draws (by omega) item (real run mem_cons_self) covers with
        ⟨next, stepped, drawnNext⟩
      have holdsRest : list.Holds ((passed ++ [(ref, run.item)]) ++ rest) := by
        rwa [append_assoc]
      have lengths : (expand (left ++ [run])).length = (expand left).length + run.2 := by
        simp
      rw [<- lengths] at drawnNext
      rw [append_cons] at expanded
      rcases ih drawnNext holdsRest restItems
        (fun other member => real other (mem_cons_of_mem _ member)) expanded with
        ⟨after, finished, drawnAfter⟩
      refine ⟨after, ?_, drawnAfter⟩
      show (Drawing.drawRun canvas (list.nodes ref) drawing).bind _ = _
      rw [stepped, bind_some]
      show (list.getNext ref).bind _ = _
      rw [holds.getNext_eq]
      exact finished

/-- Runs that expand to the cells of a sea draw it, whether or not they are maximal. -/
theorem draws_sea {entries : List DList.Entry} (stores : Stores list entries runs)
    (real : ∀ run, run ∈ runs -> Lifelike run.1) (expanded : expand runs = sea.contents)
    {surface : Surface} (blank : Shows surface (Ocean.new size sea.starveTime)) :
    ∃ after, RunLengthEncoding.drawRuns canvas list entries.length (list.firstRef entries)
        ⟨surface, 0, 0⟩ = some after ∧ Shows after.ocean sea := by
  have start : Drawn Shows ⟨surface, 0, 0⟩ sea (expand ([] : List Run)).length := by
    refine ⟨?_, Int.natCast_nonneg _, Int.le_refl 0, Int.le_refl 0, ?_⟩
    · exact sea.upTo_zero ▸ blank
    · simp
  have held : list.Holds ([] ++ entries) := stores.holds
  rcases start.drawRuns draws held stores.items real expanded with ⟨after, finished, drawn⟩
  have shows := drawn.shows
  rw [Ocean.upTo_area] at shows
  exact ⟨after, finished, shows⟩

end

variable {sea : Ocean size} {encoding : RunLengthEncoding size}

/-- Decoding gives the ocean that the runs encode. -/
theorem toOcean_eq (encodes : Encodes encoding.runs sea runs)
    (sameTime : encoding.starveTime = sea.starveTime) : encoding.toOcean = some sea := by
  rcases encodes.stored with ⟨entries, stores⟩
  rcases draws_sea (Canvas.value_draws size) stores encodes.lifelike encodes.expanded rfl with
    ⟨after, finished, shows⟩
  rw [toOcean, stores.holds.getFirst_eq, stores.holds.size, Int.toNat_natCast, bind_eq_bind,
    bind_some, sameTime, finished, <- shows]
  rfl

end RunLengthEncoding

end SharksAndFish
end Codebank
