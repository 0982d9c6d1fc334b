import Mathlib.Algebra.Order.Ring.Int
import Codebank.SharksAndFish.Bounded

namespace Codebank
namespace SharksAndFish

open Ocean Foundation Foundation.RunLength List Option

/-!
# Runs given as arrays

Runs may be given in two arrays, also with neighbours of the same type.  Decoding them
draws one run after the other; encoding the ocean again merges neighbours of the same
type.  A merged run of 2 ^ 31 cells is too long for an `int`, and is lost.
-/

namespace RunList

/-- The creature that a run of a type is made of. -/
def newborn (starveTime type : Int) : Creature :=
  if type = SHARK then .shark starveTime starveTime else if type = FISH then .fish else .empty

/-- Type and hunger of the cells of a run. -/
def runValue (starveTime type : Int) : Int × Int :=
  (type, if type = SHARK then starveTime else NULL_HUNGER)

def IsType (type : Int) : Prop :=
  type = EMPTY ∨ type = SHARK ∨ type = FISH

theorem content_newborn {starveTime type : Int} (known : IsType type) :
    (newborn starveTime type).content = runValue starveTime type := by
  rcases known with rfl | rfl | rfl <;> rfl

theorem bredFor_newborn (starveTime type : Int) : (newborn starveTime type).BredFor starveTime := by
  rw [newborn]
  split_ifs
  · rfl
  · trivial
  · trivial

theorem runValue_injective (starveTime : Int) : Function.Injective (runValue starveTime) :=
  fun _ _ same => congrArg Prod.fst same

/-! ## The list that the constructor makes -/

variable {extent : Extent}

/-- The runs as the two arrays give them. -/
def arrayRuns (starveTime : Int) (runTypes runLengths : List Int) : List Run :=
  (runTypes.zip runLengths).map fun run => (runValue starveTime run.1, run.2.toNat)

theorem item_eq {starveTime type length : Int} (positive : 0 < length) :
    item starveTime type length = Run.item (runValue starveTime type, length.toNat) := by
  have exact : ((length.toNat : Nat) : Int) = length := Int.toNat_of_nonneg positive.le
  rw [item, Run.item, exact, runValue]
  split_ifs <;> rfl

variable {entries : List DList.Entry} {runs : List Run} {list : DList}

theorem append_stores (stores : Stores list entries runs) (run : Run) :
    ∃ after ref, append list run.item = some after ∧
      Stores after (entries ++ [(ref, run.item)]) (runs ++ [run]) := by
  rcases (stores.holds.allocate _).addLast (stores.holds.spare_allocate run.item) with
    ⟨after, added, -, held⟩
  refine ⟨after, _, added, held, ?_⟩
  rw [map_append, map_append, stores.items]
  rfl

theorem foldlM_append_stores (starveTime : Int) (pairs : List (Int × Int))
    (positive : ∀ run, run ∈ pairs -> 0 < run.2) (stores : Stores list entries runs) :
    ∃ after further,
      pairs.foldlM (fun list run => append list (item starveTime run.1 run.2)) list = some after ∧
      Stores after further
        (runs ++ pairs.map fun run => (runValue starveTime run.1, run.2.toNat)) := by
  induction pairs generalizing list entries runs with
  | nil =>
    rw [map_nil, append_nil]
    exact ⟨list, entries, rfl, stores⟩
  | cons pair pairs ih =>
    rcases append_stores stores (runValue starveTime pair.1, pair.2.toNat) with
      ⟨next, ref, added, storesNext⟩
    rcases ih (fun run member => positive run (mem_cons_of_mem pair member)) storesNext with
      ⟨after, further, rest, storesAfter⟩
    refine ⟨after, further, ?_, ?_⟩
    · rw [foldlM_cons, item_eq (positive pair mem_cons_self), added]
      exact rest
    · rw [map_cons, append_cons]
      exact storesAfter

/-- The constructor stores the runs in order. -/
theorem ofArrays_stores (extent : Extent) (starveTime : Int) (runTypes : List Int)
    {runLengths : List Int} (positive : ∀ length, length ∈ runLengths -> 0 < length) :
    ∃ encoding entries, ofArrays extent starveTime runTypes runLengths = some encoding ∧
      encoding.starveTime = starveTime ∧
      Stores encoding.runs entries (arrayRuns starveTime runTypes runLengths) := by
  have none : Stores DList.new [] [] := ⟨DList.holds_new, rfl⟩
  rcases foldlM_append_stores starveTime (runTypes.zip runLengths)
    (fun run member => positive run.2 (of_mem_zip member).2) none with
    ⟨runs, entries, made, stores⟩
  refine ⟨⟨starveTime, runs, []⟩, entries, ?_, rfl, stores⟩
  rw [ofArrays, made]
  rfl

/-! ## The ocean that is drawn -/

section

variable {size : Size} {starveTime : Int} {creatures : List Creature}

/-- The ocean with the given creatures, row after row. -/
def paint (size : Size) (starveTime : Int) (creatures : List Creature)
    (bred : ∀ creature, creature ∈ creatures -> creature.BredFor starveTime) : Ocean size where
  starveTime := starveTime
  ocean_array x y := creatures.getD (size.position x y) .empty
  bred x y := by
    rw [getD_eq_getElem?_getD]
    cases found : creatures[size.position x y]? with
    | none => trivial
    | some creature => exact bred creature (mem_of_getElem? found)

variable (bred : ∀ creature, creature ∈ creatures -> creature.BredFor starveTime)
  (covers : creatures.length = size.area)

include covers

theorem map_cell_paint :
    (List.range size.area).map (paint size starveTime creatures bred).cell = creatures := by
  apply ext_getElem?
  intro position
  by_cases within : position < size.area
  · rw [getElem?_map, getElem?_range within]
    show some (creatures.getD (size.position (size.column position) (size.row position)) .empty) = _
    rw [Size.position_column_row within, getD_eq_getElem _ _ (covers ▸ within),
      getElem?_eq_getElem (covers ▸ within)]
  · rw [getElem?_eq_none (by simpa using within), getElem?_eq_none (by omega)]

theorem contents_paint :
    (paint size starveTime creatures bred).contents = creatures.map Creature.content := by
  have mapped := congrArg (List.map Creature.content) (map_cell_paint bred covers)
  rw [List.map_map] at mapped
  exact mapped

end

variable {size : Size} {ocean : Ocean size}

/-! ## Enumerating -/

/-- A new encoding enumerates its runs from the first on. -/
theorem nextRuns_ofOcean {encoding : RunLengthEncoding size}
    (made : RunLengthEncoding.ofOcean ocean = some encoding)
    (encodes : Encodes encoding.runs ocean runs) (calls : Nat) :
    encoding.nextRuns calls = some (((runs.map RunLengthEncoding.summary).map some).take calls ++
      replicate (calls - runs.length) none) := by
  have start := RunLengthEncoding.atStart_ofOcean made
  rcases encodes.stored with ⟨entries, stores⟩
  have enumerating : RunLengthEncoding.Enumerating encoding.runs [] entries :=
    ⟨stores.holds, start.returned, start.tracker⟩
  exact RunLengthEncoding.nextRuns_eq calls enumerating stores.items

/-! ## Decoding and encoding again -/

section

variable {starveTime : Int} {runTypes runLengths : List Int}

/-- The creatures of all runs, one after the other. -/
def allCreatures (starveTime : Int) (runTypes runLengths : List Int) : List Creature :=
  (runTypes.zip runLengths).flatMap fun run =>
    replicate run.2.toNat (newborn starveTime run.1)

/-- The runs with neighbours of the same type merged. -/
def mergedRuns (runTypes runLengths : List Int) : List (Int × Nat) :=
  RunLength.merge ((runTypes.zip runLengths).map fun run => (run.1, run.2.toNat))

theorem length_allCreatures (starveTime : Int) (sameLength : runTypes.length = runLengths.length)
    (positive : ∀ length, length ∈ runLengths -> 0 < length) :
    ((allCreatures starveTime runTypes runLengths).length : Int) = runLengths.sum := by
  induction runTypes generalizing runLengths with
  | nil =>
    cases runLengths with
    | nil => rfl
    | cons length rest => cases sameLength
  | cons type types ih =>
    cases runLengths with
    | nil => cases sameLength
    | cons length rest =>
      have here := positive length mem_cons_self
      have later := ih (Nat.succ.inj sameLength)
        fun other member => positive other (mem_cons_of_mem length member)
      have split : allCreatures starveTime (type :: types) (length :: rest) =
          replicate length.toNat (newborn starveTime type) ++
            allCreatures starveTime types rest := rfl
      rw [split, length_append, length_replicate, sum_cons, <- later]
      omega

theorem bredFor_allCreatures : ∀ creature,
    creature ∈ allCreatures starveTime runTypes runLengths -> creature.BredFor starveTime := by
  intro creature member
  rcases List.mem_flatMap.mp member with ⟨run, -, copies⟩
  rw [(List.mem_replicate.mp copies).2]
  exact bredFor_newborn starveTime run.1

variable (types : ∀ type, type ∈ runTypes -> IsType type)

include types

theorem expand_arrayRuns : expand (arrayRuns starveTime runTypes runLengths) =
    (allCreatures starveTime runTypes runLengths).map Creature.content := by
  rw [arrayRuns, allCreatures, expand, flatMap_map, map_flatMap]
  refine flatMap_congr fun run member => ?_
  rw [map_replicate, content_newborn (types run.1 (of_mem_zip member).1)]

theorem lifelike_arrayRuns : ∀ run,
    run ∈ arrayRuns starveTime runTypes runLengths -> Lifelike run.1 := by
  intro run member
  rcases List.mem_map.mp member with ⟨pair, inside, rfl⟩
  exact ⟨newborn starveTime pair.1, content_newborn (types pair.1 (of_mem_zip inside).1)⟩

omit types in
theorem map_mergedRuns :
    RunLength.merge (arrayRuns starveTime runTypes runLengths) =
      (mergedRuns runTypes runLengths).map fun run => (runValue starveTime run.1, run.2) := by
  rw [mergedRuns, <- merge_map (runValue_injective starveTime), List.map_map]
  rfl

variable (positive : ∀ length, length ∈ runLengths -> 0 < length)

include positive

/-- The runs of an ocean that is decoded from arrays are the merged ones. -/
theorem runs_of_encodes {size : Size} {list : DList} {ocean : Ocean size} {runs : List Run}
    (encodes : Encodes list ocean runs)
    (drawn : ocean.contents = (allCreatures starveTime runTypes runLengths).map Creature.content) :
    runs = (mergedRuns runTypes runLengths).map fun run => (runValue starveTime run.1, run.2) := by
  have lengths : ∀ run, run ∈ arrayRuns starveTime runTypes runLengths -> 0 < run.2 := by
    intro run member
    rcases List.mem_map.mp member with ⟨pair, inside, rfl⟩
    have long := positive pair.2 (of_mem_zip inside).2
    show 0 < pair.2.toNat
    omega
  rw [<- map_mergedRuns]
  refine encodes.maximal.unique (maximal_merge lengths) ?_
  rw [encodes.expanded, drawn, expand_merge, expand_arrayRuns types]

end

/-- In an ocean whose cells an `int` can count, decoding runs from arrays gives exactly
their cells, and encoding these gives the merged runs. -/
theorem decoding_exact_encoding_merges (extent : Extent) (starveTime : Int)
    (runTypes runLengths : List Int) (countable : extent.width * extent.height < 2147483648)
    (sameLength : runTypes.length = runLengths.length)
    (types : ∀ type, type ∈ runTypes -> type = EMPTY ∨ type = SHARK ∨ type = FISH)
    (positive : ∀ length, length ∈ runLengths -> 0 < length)
    (total : runLengths.sum = extent.width * extent.height) (memory : Memory) :
    ∃ encoding state again,
      ofArrays extent starveTime runTypes runLengths = some encoding ∧
      encoding.toOcean memory = some state ∧ state.2.starveTime = starveTime ∧
      (rowMajor extent).map (fun cell => state.2.creature state.1 cell.1 cell.2) =
        allCreatures starveTime runTypes runLengths ∧
      ofOcean state.2 state.1 = some again ∧
      ∀ calls, again.nextRuns calls =
        some (((mergedRuns runTypes runLengths).map fun run => some [run.1, (run.2 : Int)]).take
          calls
          ++ replicate (calls - (mergedRuns runTypes runLengths).length) none) := by
  have counted : ∃ size : Size, size.extent = extent :=
    ⟨⟨extent.width, extent.height, extent.width_pos, extent.height_pos, countable⟩, rfl⟩
  rcases counted with ⟨size, rfl⟩
  have covers : (allCreatures starveTime runTypes runLengths).length = size.area := by
    have length := length_allCreatures starveTime sameLength positive
    rw [total, <- Int.natCast_mul] at length
    exact Int.ofNat_inj.mp length
  let ocean := paint size starveTime (allCreatures starveTime runTypes runLengths)
    bredFor_allCreatures
  have contents : ocean.contents =
      (allCreatures starveTime runTypes runLengths).map Creature.content :=
    contents_paint bredFor_allCreatures covers
  rcases ofArrays_stores size.extent starveTime runTypes positive with
    ⟨encoding, entries, made, sameTime, stores⟩
  have expanded : expand (arrayRuns starveTime runTypes runLengths) = ocean.contents :=
    (expand_arrayRuns types).trans contents.symm
  rcases toOcean_shows stores (lifelike_arrayRuns types) expanded sameTime memory with
    ⟨state, decoded, shows⟩
  rcases RunLengthEncoding.ofOcean_encodes ocean with ⟨value, runs, encoded, -, encodes, -⟩
  rcases ofOcean_shows shows encoded with ⟨printed, encodedToo⟩
  refine ⟨encoding, state, ⟨value.starveTime, value.runs, printed⟩, made, decoded, shows.starveTime,
    ?_, encodedToo, fun calls => ?_⟩
  · rw [map_rowMajor shows]
    exact map_cell_paint bredFor_allCreatures covers
  · refine (nextRuns_ofOcean encoded encodes calls).trans ?_
    rw [runs_of_encodes types positive encodes contents]
    simp only [List.map_map, length_map]
    rfl

/-- Four cells, with two fish in runs of their own. -/
def square : Extent where
  width := 2
  height := 2
  width_pos := Nat.two_pos
  height_pos := Nat.two_pos

theorem decoding_exact_encoding_merges_square :
    mergedRuns [FISH, FISH, EMPTY] [1, 1, 2] = [(FISH, 2), (EMPTY, 2)] ∧
      ∃ encoding state,
        ofArrays square 3 [FISH, FISH, EMPTY] [1, 1, 2] = some encoding ∧
        encoding.toOcean blankMemory = some state ∧
        (rowMajor square).map (fun cell => state.2.creature state.1 cell.1 cell.2) =
          [.fish, .fish, .empty, .empty] := by
  refine ⟨by decide, ?_⟩
  rcases decoding_exact_encoding_merges square 3 [FISH, FISH, EMPTY] [1, 1, 2] (by decide) rfl
    (by decide) (by decide) rfl blankMemory with ⟨encoding, state, again, made,
    decoded, -, cells, -⟩
  exact ⟨encoding, state, made, decoded, cells⟩

/-! ## A run that is too long -/

section

open RunLengthEncoding (Drawing)

variable {sea : Sea extent} {memory : Memory}

/-- The loop behind an empty run ends for every `int`, and draws nothing. -/
theorem skipRows_keeps (rounds : Nat) (sketch : Drawing (Memory × Sea extent))
    (range : IsInt sketch.insertX) (enough : sketch.insertX < rounds) (begins : 0 < rounds) :
    ∃ after, Drawing.skipRows (canvas extent) rounds sketch = some after ∧
      after.ocean = sketch.ocean := by
  have width := extent.width_pos
  induction rounds generalizing sketch with
  | zero => omega
  | succ rounds ih =>
    rw [Drawing.skipRows]
    change ∃ after, (if sketch.insertX > extent.width then _ else _) = some after ∧ _
    split_ifs with wide
    · have shorter : (sketch.newRow (canvas extent)).insertX = sketch.insertX - extent.width := by
        rcases range with ⟨low, high⟩
        change int (sketch.insertX - extent.width) = _
        exact int_of_isInt ⟨by omega, by omega⟩
      rcases range with ⟨low, high⟩
      exact ih (sketch.newRow (canvas extent)) ⟨by omega, by omega⟩ (by omega) (by omega)
    · exact ⟨sketch, rfl, rfl⟩

theorem isInt_int (number : Int) : IsInt (int number) := by
  have low := Int.le_bmod (x := number) (m := 4294967296) (by decide)
  have high := Int.bmod_lt (x := number) (m := 4294967296) (by decide)
  exact ⟨by rw [int]; omega, by rw [int]; omega⟩

theorem skip_keeps (sketch : Drawing (Memory × Sea extent)) (length : Int) :
    ∃ after, sketch.skip (canvas extent) length = some after ∧ after.ocean = sketch.ocean :=
  skipRows_keeps _ { sketch with insertX := int (sketch.insertX + length) } (isInt_int _)
    (by show int _ < ((int _).toNat + 1 : Nat); omega) (Nat.succ_pos _)

theorem drawRuns_keeps {list : DList} {passed rest : List DList.Entry} {runs : List Run}
    (holds : list.Holds (passed ++ rest)) (items : rest.map Prod.snd = runs.map Run.item)
    (empty : ∀ run, run ∈ runs -> run.1.1 = EMPTY) (sketch : Drawing (Memory × Sea extent)) :
    ∃ after, RunLengthEncoding.drawRuns (canvas extent) list rest.length (list.firstRef rest)
        sketch = some after ∧ after.ocean = sketch.ocean := by
  induction rest generalizing passed runs sketch with
  | nil => exact ⟨sketch, rfl, rfl⟩
  | cons entry rest ih =>
    cases runs with
    | nil => cases items
    | cons run runs =>
      rcases entry with ⟨ref, content⟩
      rcases List.cons.inj items with ⟨rfl, restItems⟩
      have item : (list.nodes ref).item = [run.1.1, run.2, run.1.2] := holds.item_eq
      have type : (list.nodes ref).getRunType = EMPTY :=
        (DListNode.getRunType_eq item).trans (empty run mem_cons_self)
      have holdsRest : list.Holds ((passed ++ [(ref, run.item)]) ++ rest) := by
        rwa [append_assoc]
      rcases skip_keeps sketch (list.nodes ref).getRunLength with ⟨next, skipped, same⟩
      rcases ih holdsRest restItems
        (fun other member => empty other (mem_cons_of_mem run member)) next with
        ⟨after, finished, sameAfter⟩
      refine ⟨after, ?_, sameAfter.trans same⟩
      show (Drawing.drawRun (canvas extent) (list.nodes ref) sketch).bind _ = _
      rw [Drawing.drawRun, if_pos type, skipped, bind_some]
      show (list.getNext ref).bind _ = _
      rw [holds.getNext_eq]
      exact finished

/-- Runs of empty cells decode to a new ocean, however long they are. -/
theorem toOcean_blank {encoding : RunList extent} {entries : List DList.Entry} {runs : List Run}
    (stores : Stores encoding.runs entries runs) (empty : ∀ run, run ∈ runs -> run.1.1 = EMPTY)
    (memory : Memory) : encoding.toOcean memory = Sea.new extent memory encoding.starveTime := by
  rcases Sea.new_filled extent memory encoding.starveTime with ⟨state, created, -⟩
  have held : encoding.runs.Holds ([] ++ entries) := stores.holds
  rcases drawRuns_keeps held stores.items empty ⟨state, 0, 0⟩ with ⟨after, drawn, same⟩
  rw [toOcean, created, bind_eq_bind, bind_some, stores.holds.getFirst_eq,
    bind_eq_bind, bind_some, stores.holds.size, Int.toNat_natCast, drawn]
  exact congrArg some same

theorem length_rowMajor (extent : Extent) :
    (rowMajor extent).length = extent.width * extent.height := by
  simp [rowMajor, length_flatMap, Nat.mul_comm]

/-- Equal cells only count, and the count wraps around. -/
theorem foldlM_scanCell_blank (blank : ∀ x y, sea.creature memory x y = .empty)
    (cells : List (Fin extent.width × Fin extent.height)) (length : Int) :
    cells.foldlM (scanCell sea memory) ⟨DList.new, EMPTY, int length, NULL_HUNGER⟩ =
      some ⟨DList.new, EMPTY, int (length + cells.length), NULL_HUNGER⟩ := by
  induction cells generalizing length with
  | nil => rw [length_nil, Int.natCast_zero, Int.add_zero]; rfl
  | cons cell cells ih =>
    have longer : int (int length + 1) = int (length + 1) := Int.bmod_add_bmod
    have step : scanCell sea memory ⟨DList.new, EMPTY, int length, NULL_HUNGER⟩ cell =
        some ⟨DList.new, EMPTY, int (length + 1), NULL_HUNGER⟩ := by
      rw [scanCell_eq, blank, <- longer, RunLengthEncoding.Scan.see_eq]
      exact if_pos rfl
    rw [foldlM_cons, step, bind_eq_bind, bind_some, ih, length_cons,
      Int.natCast_succ, Int.add_right_comm, Int.add_assoc]

/-- An empty ocean of 2 ^ 31 cells is encoded by no runs at all. -/
theorem ofOcean_too_long (blank : ∀ x y, sea.creature memory x y = .empty)
    (area : extent.width * extent.height = 2147483648) :
    ∃ again : RunList extent, ofOcean sea memory = some again ∧ again.runs = DList.new := by
  have contents : sea.cellContents memory 0 0 = some EMPTY := by
    rw [Sea.cellContents_eq, blank]
    rfl
  have feeding : sea.sharkFeeding memory 0 0 = some NULL_HUNGER := by
    rw [Sea.sharkFeeding_eq, blank, if_neg fun both => absurd both.1 (by decide)]
    rfl
  have scanned := foldlM_scanCell_blank blank (rowMajor extent) 0
  rw [length_rowMajor, area] at scanned
  have start : int 0 = 0 := by decide
  have length : int (0 + (2147483648 : Nat)) = -2147483648 := by decide
  rw [start, length] at scanned
  rw [ofOcean, contents, bind_eq_bind, bind_some, feeding, bind_eq_bind,
    bind_some, scanned]
  exact ⟨⟨sea.starveTime, DList.new, _⟩, rfl, rfl⟩

end

/-- Two columns of 2 ^ 30 cells. -/
def twoColumns : Extent where
  width := 2
  height := 1073741824
  width_pos := Nat.two_pos
  height_pos := Nat.succ_pos _

/-- Two empty runs of 2 ^ 30 cells should become one of 2 ^ 31, but none is enumerated. -/
theorem merged_run_lost :
    List.sum [(1073741824 : Int), 1073741824] = twoColumns.width * twoColumns.height ∧
      mergedRuns [EMPTY, EMPTY] [1073741824, 1073741824] = [(EMPTY, 2147483648)] ∧
      ∃ encoding state again,
        ofArrays twoColumns 3 [EMPTY, EMPTY] [1073741824, 1073741824] = some encoding ∧
        encoding.toOcean blankMemory = some state ∧ ofOcean state.2 state.1 = some again ∧
        again.nextRuns 1 = some [none] := by
  refine ⟨by decide, by decide, ?_⟩
  have positive : ∀ length, length ∈ [(1073741824 : Int), 1073741824] -> 0 < length := by
    decide
  rcases ofArrays_stores twoColumns 3 [EMPTY, EMPTY] positive with
    ⟨encoding, entries, made, sameTime, stores⟩
  rcases Sea.new_filled twoColumns blankMemory encoding.starveTime with ⟨state, created, filled⟩
  rcases ofOcean_too_long (fun x y => filled.empty x y (Torus.mem_cells (x, y))) rfl with
    ⟨again, encoded, none⟩
  refine ⟨encoding, state, again, made, (toOcean_blank stores ?_ blankMemory).trans created,
    encoded, ?_⟩
  · decide
  · rw [nextRuns, none]
    rfl

end RunList

end SharksAndFish
end Codebank
