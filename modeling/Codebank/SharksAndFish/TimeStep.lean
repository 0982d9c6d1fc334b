import Codebank.SharksAndFish.Objects

namespace Codebank
namespace SharksAndFish

open Ocean Foundation Option List

/-!
# What a time step does to the objects

A round of the loops changes at most the object in its own cell of the old ocean and
the same cell of the new one.  Later rounds still read the old ocean, but only the
types of its creatures, which never change.
-/

namespace Creature

/-- What becomes of the object in a cell with some fish around it. -/
def stepped (fish : Nat) : Creature -> Creature
  | shark starveTimeFull timeToDeath =>
    if 0 < fish then shark starveTimeFull starveTimeFull
    else shark starveTimeFull (int (timeToDeath - 1))
  | creature => creature

/-- The new object that takes its place in the next ocean, if any. -/
def replacement (starveTime : Int) (fish sharks : Nat) : Creature -> Option Creature
  | shark _ timeToDeath =>
    if 0 < fish then none else if int (timeToDeath - 1) < 0 then some empty else none
  | .fish =>
    if sharks = 0 then none else if sharks = 1 then some empty
    else some (shark starveTime starveTime)
  | empty =>
    if fish < 2 then none else if sharks <= 1 then some .fish
    else some (shark starveTime starveTime)

/-- The creature in the same cell of the next ocean. -/
def successor (starveTime : Int) (fish sharks : Nat) (creature : Creature) : Creature :=
  (creature.replacement starveTime fish sharks).getD (creature.stepped fish)

theorem aged_stepped (fish : Nat) (creature : Creature) :
    creature.Aged (creature.stepped fish) := by
  cases creature with
  | empty => rfl
  | fish => rfl
  | shark starveTimeFull timeToDeath =>
    rw [stepped]
    split_ifs
    · exact ⟨starveTimeFull, rfl⟩
    · exact ⟨int (timeToDeath - 1), rfl⟩

theorem bredFor_replacement {starveTime : Int} {fish sharks : Nat} {creature newborn : Creature}
    (replaced : creature.replacement starveTime fish sharks = some newborn) :
    newborn.BredFor starveTime := by
  cases creature with
  | empty | fish =>
    simp only [replacement] at replaced
    split_ifs at replaced <;> cases replaced
    · trivial
    · rfl
  | shark starveTimeFull timeToDeath =>
    simp only [replacement] at replaced
    split_ifs at replaced
    cases replaced
    trivial

end Creature

namespace Sea

variable {extent : Extent}

/-- How many of the eight neighbours of a cell are of a type. -/
def around (sea : Sea extent) (memory : Memory) (type : Int) (x : Fin extent.width)
    (y : Fin extent.height) : Nat :=
  Torus.near (sea.creature memory) (fun creature => decide (creature.getType = type)) x y

/-- A creature of another type is not among those counted. -/
theorem numNeighborType_other (sea : Sea extent) (memory : Memory) {x : Fin extent.width}
    {y : Fin extent.height} {type : Int} (other : (sea.creature memory x y).getType ≠ type) :
    sea.numNeighborType memory x y type = some (sea.around memory type x y : Int) := by
  rw [numNeighborType_eq]
  exact congrArg (fun count : Nat => some (count : Int))
    (Torus.countP_window (sea.creature memory) (fun creature => decide (creature.getType = type))
      (decide_eq_false other))

/-! ## One round -/

section

variable (sea afterOcean : Sea extent) (memory : Memory) (x : Fin extent.width)
  (y : Fin extent.height)

/-- Memory and new ocean behind a round: the object of the cell is changed and shared,
and then possibly replaced. -/
def turned : Memory × Sea extent :=
  let fish := sea.around memory FISH x y
  let changed := memory.set (sea.ocean_array x y) ((sea.creature memory x y).stepped fish)
  let shared := afterOcean.assign x y (sea.ocean_array x y)
  ((sea.creature memory x y).replacement sea.starveTime fish (sea.around memory SHARK x y)).elim
    (changed, shared)
    fun newborn => ((changed.allocate newborn).1, shared.assign x y changed.fresh)

variable {sea memory x y}

/-- The turn of a shark is that of the rules. -/
theorem sharkTurn_eq {starveTimeFull timeToDeath : Int}
    (known : sea.creature memory x y = .shark starveTimeFull timeToDeath) :
    sea.sharkTurn (afterOcean.assign x y (sea.ocean_array x y)) memory x y =
      some (sea.turned afterOcean memory x y) := by
  have object : memory.objects (sea.ocean_array x y) = .shark starveTimeFull timeToDeath := known
  have other : (sea.creature memory x y).getType ≠ FISH := by
    rw [known]
    exact (by decide : SHARK ≠ FISH)
  rw [sharkTurn, read_cell, assign_same, sea.numNeighborType_other memory other, turned, known]
  simp only [bind_eq_bind, bind_some, Memory.call, object, Creature.resetHunger,
    Creature.starve, Creature.stepped, Creature.replacement, Memory.objects_set_same,
    Creature.getTimeToDeath, place_cell]
  by_cases fish : 0 < sea.around memory FISH x y
  · have positive : ((sea.around memory FISH x y : Nat) : Int) > 0 := Int.natCast_pos.mpr fish
    rw [if_pos positive, if_pos fish, if_pos fish]
    rfl
  · have none : ¬ ((sea.around memory FISH x y : Nat) : Int) > 0 :=
      fun positive => fish (Int.natCast_pos.mp positive)
    rw [if_neg none, if_neg fish, if_neg fish]
    split_ifs <;> rfl

theorem fishTurn_eq (known : sea.creature memory x y = .fish) :
    sea.fishTurn (afterOcean.assign x y (sea.ocean_array x y)) memory x y =
      some (sea.turned afterOcean memory x y) := by
  have unchanged : memory.set (sea.ocean_array x y) .fish = memory := by
    rw [<- known]
    exact memory.set_self _
  have other : (sea.creature memory x y).getType ≠ SHARK := by
    rw [known]
    decide
  rw [fishTurn, sea.numNeighborType_other memory other, turned, known]
  simp only [bind_eq_bind, bind_some, Creature.stepped, Creature.replacement,
    unchanged, place_cell]
  by_cases none : sea.around memory SHARK x y = 0
  · rw [if_pos (by omega), if_pos none]
    rfl
  · rw [if_neg (by omega), if_neg none]
    by_cases one : sea.around memory SHARK x y = 1
    · rw [if_pos (by omega), if_pos one]
      rfl
    · rw [if_neg (by omega), if_neg one, if_pos (by omega)]
      rfl

theorem emptyTurn_eq (known : sea.creature memory x y = .empty) :
    sea.emptyTurn (afterOcean.assign x y (sea.ocean_array x y)) memory x y =
      some (sea.turned afterOcean memory x y) := by
  have unchanged : memory.set (sea.ocean_array x y) .empty = memory := by
    rw [<- known]
    exact memory.set_self _
  have notFish : (sea.creature memory x y).getType ≠ FISH := by
    rw [known]
    decide
  have notShark : (sea.creature memory x y).getType ≠ SHARK := by
    rw [known]
    decide
  rw [emptyTurn, sea.numNeighborType_other memory notFish,
    sea.numNeighborType_other memory notShark, turned, known]
  simp only [bind_eq_bind, bind_some, Creature.stepped, Creature.replacement,
    unchanged, place_cell]
  by_cases few : sea.around memory FISH x y < 2
  · rw [if_pos (by omega), if_pos few]
    rfl
  · rw [if_neg (by omega), if_neg few]
    by_cases calm : sea.around memory SHARK x y <= 1
    · rw [if_pos (by omega), if_pos calm]
      rfl
    · rw [if_neg (by omega), if_neg calm, if_pos (by omega)]
      rfl

theorem turn_eq (sea afterOcean : Sea extent) (memory : Memory) (x : Fin extent.width)
    (y : Fin extent.height) :
    sea.turn afterOcean memory x y = some (sea.turned afterOcean memory x y) := by
  have begun : sea.turn afterOcean memory x y =
      if (sea.creature memory x y).getType = SHARK then
        sea.sharkTurn (afterOcean.assign x y (sea.ocean_array x y)) memory x y
      else if (sea.creature memory x y).getType = FISH then
        sea.fishTurn (afterOcean.assign x y (sea.ocean_array x y)) memory x y
      else if (sea.creature memory x y).getType = EMPTY then
        sea.emptyTurn (afterOcean.assign x y (sea.ocean_array x y)) memory x y
      else some (memory, afterOcean.assign x y (sea.ocean_array x y)) := by
    rw [turn, read_cell, bind_eq_bind, bind_some, write_cell]
    rfl
  rw [begun]
  cases known : sea.creature memory x y with
  | empty => exact emptyTurn_eq afterOcean known
  | fish => exact fishTurn_eq afterOcean known
  | shark starveTimeFull timeToDeath => exact sharkTurn_eq afterOcean known

end

/-! ## The loops -/

/-- Counting sees only the types, which the objects keep. -/
theorem around_evolves {sea : Sea extent} {memory later : Memory} (sound : sea.Sound memory)
    (evolves : memory.Evolves later) (type : Int) (x : Fin extent.width) (y : Fin extent.height) :
    sea.around later type x y = sea.around memory type x y := by
  have types : ∀ column row, (sea.creature later column row).getType =
      (sea.creature memory column row).getType := fun column row =>
    (evolves.aged _ (sound.allocated column row)).getType_eq
  simp only [around, Torus.near, types]

variable {after : Fin extent.width -> Fin extent.height -> Creature}

section

variable {sea : Sea extent} {memory : Memory} {x : Fin extent.width} {y : Fin extent.height}
  {done : List (Fin extent.width × Fin extent.height)} {state : Memory × Sea extent}
  {expected : Fin extent.width -> Fin extent.height -> Creature}

/-- The cells done have their changed object in the old ocean and the expected creature
in the new one.  An object of the old ocean occurs in the new one only in its own cell. -/
structure Progress (sea : Sea extent) (memory : Memory)
    (expected : Fin extent.width -> Fin extent.height -> Creature)
    (done : List (Fin extent.width × Fin extent.height)) (state : Memory × Sea extent) : Prop where
  starveTime : state.2.starveTime = sea.starveTime
  evolves : memory.Evolves state.1
  sound : state.2.Sound state.1
  changed : ∀ x y, (x, y) ∈ done ->
    sea.creature state.1 x y = (sea.creature memory x y).stepped (sea.around memory FISH x y)
  waiting : ∀ x y, (x, y) ∉ done -> sea.creature state.1 x y = sea.creature memory x y
  origin : ∀ x y, state.2.ocean_array x y = sea.ocean_array x y ∨
    memory.fresh <= state.2.ocean_array x y
  result : ∀ x y, (x, y) ∈ done -> state.2.creature state.1 x y = expected x y

section

variable (progress : Progress sea memory expected done state)

include progress

theorem Progress.unused (sound : sea.Sound memory) {column : Fin extent.width}
    {row : Fin extent.height} (other : (column, row) ≠ (x, y)) :
    state.2.ocean_array column row ≠ sea.ocean_array x y := by
  intro same
  rcases progress.origin column row with shared | new
  · exact other (sound.apart column row x y (shared.symm.trans same))
  · rw [same] at new
    exact Nat.not_le_of_lt (sound.allocated x y) new

/-- The new ocean takes over the object, which is changed. -/
theorem Progress.share (sound : sea.Sound memory) (waits : (x, y) ∉ done)
    (others : ∀ column row, (column, row) ∈ done -> after column row = expected column row)
    (here : after x y = (sea.creature memory x y).stepped (sea.around memory FISH x y)) :
    Progress sea memory after (done ++ [(x, y)])
      (state.1.set (sea.ocean_array x y)
        ((sea.creature memory x y).stepped (sea.around memory FISH x y)),
        state.2.assign x y (sea.ocean_array x y)) := by
  have aged : (state.1.objects (sea.ocean_array x y)).Aged
      ((sea.creature memory x y).stepped (sea.around memory FISH x y)) := by
    rw [show state.1.objects (sea.ocean_array x y) = sea.creature memory x y from
      progress.waiting x y waits]
    exact Creature.aged_stepped _ _
  have evolves := state.1.evolves_set aged
  have object : ∀ column row, (column, row) ≠ (x, y) ->
      sea.creature (state.1.set (sea.ocean_array x y)
        ((sea.creature memory x y).stepped (sea.around memory FISH x y))) column row =
      sea.creature state.1 column row := by
    intro column row other
    exact Memory.objects_set_other _ (fun same => other (sound.apart column row x y same)) _
  have apart : ∀ column row, (column, row) ∈ done -> (column, row) ≠ (x, y) :=
    fun column row member same => waits (same ▸ member)
  refine ⟨progress.starveTime, progress.evolves.trans evolves, ?_, ?_, ?_, ?_, ?_⟩
  · refine (progress.sound.evolves evolves).share ?_ ?_ ?_
    · exact (sound.allocated x y).trans_le (progress.evolves.grown.trans evolves.grown)
    · exact fun column row other => progress.unused sound other
    · rw [Memory.objects_set_same, progress.starveTime]
      exact (Creature.aged_stepped _ _).bredFor (sound.bred x y)
  · intro column row member
    rcases mem_append.mp member with old | new
    · rw [object column row (apart column row old)]
      exact progress.changed column row old
    · cases mem_singleton.mp new
      exact Memory.objects_set_same _ _ _
  · intro column row outside
    rw [mem_append, mem_singleton, not_or] at outside
    rw [object column row outside.2]
    exact progress.waiting column row outside.1
  · intro column row
    by_cases same : (column, row) = (x, y)
    · cases same
      exact .inl (assign_same _ _ _ _)
    · rw [assign_other state.2 same]
      exact progress.origin column row
  · intro column row member
    show (Memory.set _ _ _).objects _ = _
    rcases mem_append.mp member with old | new
    · have other := apart column row old
      rw [assign_other state.2 other, Memory.objects_set_other _ (progress.unused sound other),
        others column row old]
      exact progress.result column row old
    · cases mem_singleton.mp new
      rw [assign_same, Memory.objects_set_same]
      exact here.symm

/-- The new ocean gets another object instead. -/
theorem Progress.replace (sound : sea.Sound memory) {newborn : Creature}
    (suits : newborn.BredFor sea.starveTime)
    (others : ∀ column row, (column, row) ≠ (x, y) -> after column row = expected column row)
    (here : after x y = newborn) :
    Progress sea memory after done
      ((state.1.allocate newborn).1, state.2.assign x y state.1.fresh) := by
  have object : ∀ column row,
      sea.creature (state.1.allocate newborn).1 column row = sea.creature state.1 column row := by
    intro column row
    exact Memory.objects_allocate_old _ _
      ((sound.allocated column row).trans_le progress.evolves.grown)
  refine ⟨progress.starveTime, progress.evolves.trans (state.1.evolves_allocate newborn),
    progress.sound.assign x y (progress.starveTime ▸ suits), ?_, ?_, ?_, ?_⟩
  · intro column row member
    rw [object]
    exact progress.changed column row member
  · intro column row outside
    rw [object]
    exact progress.waiting column row outside
  · intro column row
    by_cases same : (column, row) = (x, y)
    · cases same
      rw [assign_same]
      exact .inr progress.evolves.grown
    · rw [assign_other state.2 same]
      exact progress.origin column row
  · intro column row member
    show (Memory.allocate _ _).1.objects _ = _
    by_cases same : (column, row) = (x, y)
    · cases same
      rw [assign_same, Memory.objects_allocate_fresh]
      exact here.symm
    · rw [assign_other state.2 same,
        Memory.objects_allocate_old _ _ (progress.sound.allocated column row), others _ _ same]
      exact progress.result column row member

end

/-- The creature that a cell has after a time step. -/
def next (sea : Sea extent) (memory : Memory) (x : Fin extent.width) (y : Fin extent.height) :
    Creature :=
  (sea.creature memory x y).successor sea.starveTime (sea.around memory FISH x y)
    (sea.around memory SHARK x y)

theorem Progress.turned (progress : Progress sea memory (sea.next memory) done state)
    (sound : sea.Sound memory) (waits : (x, y) ∉ done) :
    Progress sea memory (sea.next memory) (done ++ [(x, y)])
      (sea.turned state.2 state.1 x y) := by
  have counts := around_evolves sound progress.evolves
  rw [Sea.turned, progress.waiting x y waits, counts FISH, counts SHARK]
  cases replaced : (sea.creature memory x y).replacement sea.starveTime
    (sea.around memory FISH x y) (sea.around memory SHARK x y) with
  | none =>
    refine progress.share sound waits (fun _ _ _ => rfl) ?_
    rw [next, Creature.successor, replaced]
    rfl
  | some newborn =>
    -- between the two assignments the cell has the changed object
    let between := fun column row => if (column, row) = (x, y) then
      (sea.creature memory x y).stepped (sea.around memory FISH x y)
      else sea.next memory column row
    have shared : Progress sea memory between (done ++ [(x, y)])
        (state.1.set (sea.ocean_array x y)
          ((sea.creature memory x y).stepped (sea.around memory FISH x y)),
          state.2.assign x y (sea.ocean_array x y)) := by
      refine progress.share sound waits (fun column row member => ?_) (if_pos rfl)
      have other : (column, row) ≠ (x, y) := fun same => waits (same ▸ member)
      exact if_neg other
    refine shared.replace sound (Creature.bredFor_replacement replaced) ?_ ?_
    · exact fun column row other => (if_neg other).symm
    · rw [next, Creature.successor, replaced]
      rfl

/-- A time step returns, and its loops have done all cells. -/
theorem timeStep_progress (sound : sea.Sound memory) :
    ∃ state, sea.timeStep memory = some state ∧
      Progress sea memory (sea.next memory) (Torus.cells extent.width extent.height) state := by
  rcases new_filled extent memory sea.starveTime with ⟨start, created, filled⟩
  have begun : Progress sea memory (sea.next memory) [] start := by
    refine ⟨filled.starveTime, filled.evolves, filled.sound, ?_, ?_, ?_, ?_⟩
    · exact fun _ _ member => absurd member not_mem_nil
    · exact fun x y _ => filled.kept _ (sound.allocated x y)
    · exact fun x y => .inr (filled.above x y (Torus.mem_cells (x, y)))
    · exact fun _ _ member => absurd member not_mem_nil
  rcases foldlM_total (Progress sea memory (sea.next memory)) Torus.nodup_cells begun
    (fun done cell state _ waits progress =>
      ⟨_, turn_eq sea state.2 state.1 cell.1 cell.2, progress.turned sound waits⟩) with
    ⟨state, looped, progress⟩
  refine ⟨state, ?_, progress⟩
  rw [timeStep, created]
  exact looped

end

end Sea

/-! ## All oceans of a program -/

/-- An ocean with the memory of its creatures. -/
structure Waters (extent : Extent) where
  memory : Memory
  sea : Sea extent
  sound : sea.Sound memory

theorem Waters.timeStep_waters {extent : Extent} (waters : Waters extent) :
    ∃ after : Waters extent,
      waters.sea.timeStep waters.memory = some (after.memory, after.sea) ∧
      Sea.Progress waters.sea waters.memory (waters.sea.next waters.memory)
        (Torus.cells extent.width extent.height) (after.memory, after.sea) := by
  rcases Sea.timeStep_progress waters.sound with ⟨state, stepped, progress⟩
  exact ⟨⟨state.1, state.2, progress.sound⟩, stepped, progress⟩

/-- The oceans that a program has made, in the memory that they share. -/
structure Program where
  memory : Memory
  oceans : List (Sigma Sea)

namespace Program

/-- The methods that put a creature into an empty cell. -/
inductive Adding where
  | addFish
  | addShark
  | addSharkFed (feeding : Int)

def Adding.call (method : Adding) {extent : Extent} (sea : Sea extent) (memory : Memory)
    (x y : Int) : Option (Memory × Sea extent) :=
  match method with
  | addFish => sea.addFish memory x y
  | addShark => sea.addShark memory x y
  | addSharkFed feeding => sea.addSharkFed memory x y feeding

/-- A time step leaves its receiver among the oceans. -/
inductive Step (program : Program) : Program -> Prop where
  | new (extent : Extent) (starveTime : Int) (state : Memory × Sea extent)
      (created : Sea.new extent program.memory starveTime = some state) :
      Step program ⟨state.1, ⟨extent, state.2⟩ :: program.oceans⟩
  | add {extent : Extent} (sea : Sea extent) (before behind : List (Sigma Sea)) (method : Adding)
      (x y : Int) (state : Memory × Sea extent)
      (receiver : program.oceans = before ++ ⟨extent, sea⟩ :: behind)
      (added : method.call sea program.memory x y = some state) :
      Step program ⟨state.1, before ++ ⟨extent, state.2⟩ :: behind⟩
  | timeStep {extent : Extent} (sea : Sea extent) (state : Memory × Sea extent)
      (receiver : ⟨extent, sea⟩ ∈ program.oceans)
      (stepped : sea.timeStep program.memory = some state) :
      Step program ⟨state.1, ⟨extent, state.2⟩ :: program.oceans⟩

/-- What a program that uses oceans can reach. -/
inductive Reached : Program -> Prop where
  | start (memory : Memory) : Reached ⟨memory, []⟩
  | step {program next : Program} (reached : Reached program) (step : Step program next) :
      Reached next

def Sound (program : Program) : Prop :=
  ∀ ocean, ocean ∈ program.oceans -> ocean.2.Sound program.memory

theorem Adding.sound (method : Adding) {extent : Extent} {sea : Sea extent} {memory : Memory}
    {x y : Int} {state : Memory × Sea extent} (sound : sea.Sound memory)
    (added : method.call sea memory x y = some state) :
    state.2.Sound state.1 ∧ memory.Evolves state.1 := by
  have general : ∀ creature : Creature, creature.BredFor sea.starveTime ->
      sea.add memory x y creature = some state -> state.2.Sound state.1 ∧
        memory.Evolves state.1 := by
    intro creature suits known
    rw [Sea.add_eq] at known
    split_ifs at known
    · cases known
      exact ⟨sound.assign _ _ suits, memory.evolves_allocate creature⟩
    · cases known
      exact ⟨sound, memory.evolves_self⟩
  cases method with
  | addFish => exact general .fish trivial added
  | addShark => exact general (.shark sea.starveTime sea.starveTime) rfl added
  | addSharkFed feeding => exact general (.shark sea.starveTime feeding) rfl added

/-- A step of the program keeps all its oceans sound. -/
theorem Sound.step {program next : Program} (sound : program.Sound) (step : program.Step next) :
    next.Sound := by
  cases step with
  | new extent starveTime state created =>
    rcases Sea.new_filled extent program.memory starveTime with ⟨expected, known, filled⟩
    cases known.symm.trans created
    intro ocean member
    rcases mem_cons.mp member with rfl | old
    · exact filled.sound
    · exact (sound ocean old).evolves filled.evolves
  | @add extent sea before behind method x y state receiver added =>
    have here : (⟨extent, sea⟩ : Sigma Sea) ∈ program.oceans := by
      rw [receiver]
      exact mem_append_right _ mem_cons_self
    rcases method.sound (sound _ here) added with ⟨soundAfter, evolves⟩
    intro ocean member
    have kept : ocean ∈ program.oceans -> ocean.2.Sound state.1 :=
      fun old => (sound ocean old).evolves evolves
    rw [receiver] at kept
    rcases mem_append.mp member with first | rest
    · exact kept (mem_append_left _ first)
    · rcases mem_cons.mp rest with rfl | last
      · exact soundAfter
      · exact kept (mem_append_right _ (mem_cons_of_mem _ last))
  | @timeStep extent sea state receiver stepped =>
    rcases Sea.timeStep_progress (sound _ receiver) with ⟨expected, known, progress⟩
    cases known.symm.trans stepped
    intro ocean member
    rcases mem_cons.mp member with rfl | old
    · exact progress.sound
    · exact (sound ocean old).evolves progress.evolves

/-- However the methods are called, no two cells of one ocean ever share a creature. -/
theorem reached_sound {program : Program} (reached : Reached program) : program.Sound := by
  induction reached with
  | start memory => exact fun ocean member => absurd member not_mem_nil
  | step reached step ih => exact ih.step step

/-- A shark lives through a time step on four cells, and a fish is added to the receiver: the
memory, the new ocean and the receiver. -/
def sharedShark : Option (Memory × Sea ⟨2, 2, by decide, by decide⟩ ×
    Sea ⟨2, 2, by decide, by decide⟩) := do
  let created <- Sea.new ⟨2, 2, by decide, by decide⟩ ⟨fun _ => .empty, 0⟩ 3
  let populated <- Adding.addShark.call created.2 created.1 0 0
  let stepped <- populated.2.timeStep populated.1
  let added <- Adding.addFish.call populated.2 stepped.1 1 1
  some (added.1, stepped.2, added.2)

/-- Both oceans refer to the same shark, which has one time step less, and only the receiver to
the fish. -/
theorem reached_sound_sharedShark :
    ∃ memory next receiver, sharedShark = some (memory, next, receiver) ∧
      next.read 0 0 = receiver.read 0 0 ∧ receiver.sharkFeeding memory 0 0 = some 2 ∧
      receiver.cellContents memory 1 1 = some FISH ∧ next.cellContents memory 1 1 = some EMPTY ∧
      Sound ⟨memory, [⟨_, next⟩, ⟨_, receiver⟩]⟩ := by
  have observed : sharedShark.map (fun result =>
      (decide (result.2.1.read 0 0 = result.2.2.read 0 0),
      result.2.2.sharkFeeding result.1 0 0, result.2.2.cellContents result.1 1 1,
      result.2.1.cellContents result.1 1 1)) =
        some (true, some 2, some FISH, some EMPTY) := by
    decide +kernel
  rcases map_eq_some_iff.mp observed with ⟨⟨memory, next, receiver⟩, done, same⟩
  simp only [Prod.mk.injEq, decide_eq_true_eq] at same
  refine ⟨memory, next, receiver, done, same.1, same.2.1, same.2.2.1, same.2.2.2, reached_sound ?_⟩
  simp only [sharedShark, bind_eq_bind, bind_eq_some_iff, some.injEq,
    Prod.mk.injEq] at done
  rcases done with ⟨_, created, _, populated, _, stepped, _, added, rfl, rfl, rfl⟩
  exact .step (.step (.step (.step (.start _) (.new _ _ _ created)) (.add _ [] [] _ _ _ _ rfl
    populated)) (.timeStep _ _ mem_cons_self stepped)) (.add _ [_] [] _ _ _ _ rfl added)

end Program

end SharksAndFish
end Codebank
