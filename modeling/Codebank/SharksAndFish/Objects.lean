import Codebank.Foundation.Loop
import Codebank.Foundation.Torus
import Codebank.SharksAndFish.DList

namespace Codebank
namespace SharksAndFish

open Ocean Foundation List Function

/-!
# Oceans as objects

The cells of an `Ocean` object hold references to creatures.  A time step hands the
references on to the ocean that it returns, and changes the sharks through them, so
here the creatures live in a memory that several oceans share.  An array access
fails outside the bounds.
-/

/-- The value that an `int` takes for a number. -/
def int (number : Int) : Int :=
  number.bmod 4294967296

/-- The numbers that an `int` can hold. -/
def IsInt (number : Int) : Prop :=
  -2147483648 <= number ∧ number <= 2147483647

theorem int_of_isInt {number : Int} (holds : IsInt number) : int number = number := by
  rcases holds with ⟨low, high⟩
  exact Int.bmod_eq_of_le (by omega) (by omega)

/-- Width and height of an ocean. -/
structure Extent where
  width : Nat
  height : Nat
  width_pos : 0 < width
  height_pos : 0 < height

namespace Creature

/-- The methods of `Shark` are called through a cast, which fails for the others. -/
def resetHunger : Creature -> Option Creature
  | shark starveTimeFull _ => some (shark starveTimeFull starveTimeFull)
  | _ => none

/-- One time step less to live. -/
def starve : Creature -> Option Creature
  | shark starveTimeFull timeToDeath => some (shark starveTimeFull (int (timeToDeath - 1)))
  | _ => none

end Creature

/-- The creatures by reference. -/
structure Memory where
  objects : Ref -> Creature
  /-- The next unused reference. -/
  fresh : Ref

namespace Memory

def allocate (memory : Memory) (creature : Creature) : Memory × Ref :=
  (⟨update memory.objects memory.fresh creature, memory.fresh + 1⟩, memory.fresh)

def set (memory : Memory) (ref : Ref) (creature : Creature) : Memory :=
  { memory with objects := update memory.objects ref creature }

/-- A method call on an object; it may throw. -/
def call (memory : Memory) (ref : Ref) (method : Creature -> Option Creature) : Option Memory := do
  let changed <- method (memory.objects ref)
  some (memory.set ref changed)

end Memory

/-- An `Ocean` object. -/
structure Sea (extent : Extent) where
  starveTime : Int
  ocean_array : Fin extent.width -> Fin extent.height -> Ref

namespace Sea

variable {extent : Extent}

def Inside (extent : Extent) (x y : Int) : Prop :=
  (0 <= x ∧ x.toNat < extent.width) ∧ 0 <= y ∧ y.toNat < extent.height

instance (x y : Int) : Decidable (Inside extent x y) :=
  inferInstanceAs (Decidable (_ ∧ _))

/-- An access to the array; outside it throws. -/
def read (sea : Sea extent) (x y : Int) : Option Ref :=
  if inside : Inside extent x y then
    some (sea.ocean_array ⟨x.toNat, inside.1.2⟩ ⟨y.toNat, inside.2.2⟩)
  else
    none

def assign (sea : Sea extent) (x : Fin extent.width) (y : Fin extent.height) (ref : Ref) :
    Sea extent :=
  { sea with ocean_array := fun column row =>
      if column = x ∧ row = y then ref else sea.ocean_array column row }

def write (sea : Sea extent) (x y : Int) (ref : Ref) : Option (Sea extent) :=
  if inside : Inside extent x y then
    some (sea.assign ⟨x.toNat, inside.1.2⟩ ⟨y.toNat, inside.2.2⟩ ref)
  else
    none

/-- A coordinate outside the ocean wraps around. -/
def convertXCoord (extent : Extent) (x : Int) : Int :=
  convertCoord x extent.width

def convertYCoord (extent : Extent) (y : Int) : Int :=
  convertCoord y extent.height

/-- The object that a cell of the grid refers to. -/
def creature (sea : Sea extent) (memory : Memory) (x : Fin extent.width) (y : Fin extent.height) :
    Creature :=
  memory.objects (sea.ocean_array x y)

/-! ## The methods -/

/-- A new object in a cell. -/
def place (sea : Sea extent) (memory : Memory) (x y : Int) (creature : Creature) :
    Option (Memory × Sea extent) := do
  let allocated := memory.allocate creature
  let sea <- sea.write x y allocated.2
  some (allocated.1, sea)

/-- The constructor, which fills the whole array with empty creatures. -/
def new (extent : Extent) (memory : Memory) (starveTime : Int) : Option (Memory × Sea extent) :=
  (Torus.cells extent.width extent.height).foldlM
    (fun state cell => state.2.place state.1 cell.1 cell.2 .empty)
    (memory, ⟨starveTime, fun _ _ => memory.fresh⟩)

def cellContents (sea : Sea extent) (memory : Memory) (x y : Int) : Option Int := do
  let ref <- sea.read (convertXCoord extent x) (convertYCoord extent y)
  some (memory.objects ref).getType

/-- The shark itself is read without conversion. -/
def sharkFeeding (sea : Sea extent) (memory : Memory) (x y : Int) : Option Int := do
  let type <- sea.cellContents memory x y
  if type = SHARK then do
    let ref <- sea.read x y
    (memory.objects ref).getTimeToDeath
  else
    some NULL_HUNGER

/-- A new creature, if the cell is empty. -/
def add (sea : Sea extent) (memory : Memory) (x y : Int) (creature : Creature) :
    Option (Memory × Sea extent) := do
  let type <- sea.cellContents memory x y
  if type = EMPTY then
    sea.place memory (convertXCoord extent x) (convertYCoord extent y) creature
  else
    some (memory, sea)

def addFish (sea : Sea extent) (memory : Memory) (x y : Int) : Option (Memory × Sea extent) :=
  sea.add memory x y .fish

def addShark (sea : Sea extent) (memory : Memory) (x y : Int) : Option (Memory × Sea extent) :=
  sea.add memory x y (.shark sea.starveTime sea.starveTime)

/-- The method `addShark` with three parameters. -/
def addSharkFed (sea : Sea extent) (memory : Memory) (x y feeding : Int) :
    Option (Memory × Sea extent) :=
  sea.add memory x y (.shark sea.starveTime feeding)

/-- One cell of `numNeighborType`. -/
def countCell (sea : Sea extent) (memory : Memory) (type typeCounter : Int) (cell : Int × Int) :
    Option Int := do
  let ref <- sea.read (convertXCoord extent cell.1) (convertYCoord extent cell.2)
  some (if (memory.objects ref).getType = type then typeCounter + 1 else typeCounter)

/-- The loops run over a window that has the cell itself in the middle. -/
def numNeighborType (sea : Sea extent) (memory : Memory) (x y type : Int) : Option Int :=
  let x := convertXCoord extent x
  let y := convertYCoord extent y
  ([x - 1, x, x + 1].flatMap fun i => [y - 1, y, y + 1].map fun j => (i, j)).foldlM
    (sea.countCell memory type) 0

/-! ## The time step -/

section

variable (sea afterOcean : Sea extent) (memory : Memory) (i j : Int)

/-- The shark eats or starves, and is shared with the new ocean. -/
def sharkTurn : Option (Memory × Sea extent) := do
  let currShark <- afterOcean.read i j
  let fish <- sea.numNeighborType memory i j FISH
  if fish > 0 then
    let memory <- memory.call currShark Creature.resetHunger
    some (memory, afterOcean)
  else
    let memory <- memory.call currShark Creature.starve
    let timeToDeath <- (memory.objects currShark).getTimeToDeath
    if timeToDeath < 0 then afterOcean.place memory i j .empty else some (memory, afterOcean)

/-- The fish stays, is eaten or makes way for a shark. -/
def fishTurn : Option (Memory × Sea extent) := do
  let sharks <- sea.numNeighborType memory i j SHARK
  if sharks = 0 then
    some (memory, afterOcean)
  else if sharks = 1 then
    afterOcean.place memory i j .empty
  else if sharks ≥ 2 then
    afterOcean.place memory i j (.shark sea.starveTime sea.starveTime)
  else
    some (memory, afterOcean)

def emptyTurn : Option (Memory × Sea extent) := do
  let fish <- sea.numNeighborType memory i j FISH
  let sharks <- sea.numNeighborType memory i j SHARK
  if fish < 2 then
    some (memory, afterOcean)
  else if fish ≥ 2 ∧ sharks <= 1 then
    afterOcean.place memory i j .fish
  else if fish ≥ 2 ∧ sharks ≥ 2 then
    afterOcean.place memory i j (.shark sea.starveTime sea.starveTime)
  else
    some (memory, afterOcean)

/-- One round of the loops: the new ocean first gets the same object. -/
def turn : Option (Memory × Sea extent) := do
  let ref <- sea.read i j
  let afterOcean <- afterOcean.write i j ref
  let type := (memory.objects ref).getType
  if type = SHARK then
    sea.sharkTurn afterOcean memory i j
  else if type = FISH then
    sea.fishTurn afterOcean memory i j
  else if type = EMPTY then
    sea.emptyTurn afterOcean memory i j
  else
    some (memory, afterOcean)

end

/-- The new ocean is filled cell by cell. -/
def timeStep (sea : Sea extent) (memory : Memory) : Option (Memory × Sea extent) := do
  let start <- new extent memory sea.starveTime
  (Torus.cells extent.width extent.height).foldlM
    (fun state cell => sea.turn state.2 state.1 cell.1 cell.2) start

/-! ## Array accesses at cells -/

section

variable (sea : Sea extent)

include sea

theorem read_cell (x : Fin extent.width) (y : Fin extent.height) :
    sea.read x y = some (sea.ocean_array x y) := by
  have inside : Inside extent x y :=
    ⟨⟨Int.natCast_nonneg x, x.isLt⟩, Int.natCast_nonneg y, y.isLt⟩
  rw [read, dif_pos inside]
  rfl

theorem write_cell (x : Fin extent.width) (y : Fin extent.height) (ref : Ref) :
    sea.write x y ref = some (sea.assign x y ref) := by
  have inside : Inside extent x y :=
    ⟨⟨Int.natCast_nonneg x, x.isLt⟩, Int.natCast_nonneg y, y.isLt⟩
  rw [write, dif_pos inside]
  rfl

theorem assign_same (x : Fin extent.width) (y : Fin extent.height) (ref : Ref) :
    (sea.assign x y ref).ocean_array x y = ref :=
  if_pos ⟨rfl, rfl⟩

theorem assign_other {x column : Fin extent.width} {y row : Fin extent.height}
    (other : (column, row) ≠ (x, y)) (ref : Ref) :
    (sea.assign x y ref).ocean_array column row = sea.ocean_array column row :=
  if_neg fun same => other (Prod.ext same.1 same.2)

theorem place_cell (memory : Memory) (x : Fin extent.width) (y : Fin extent.height)
    (creature : Creature) :
    sea.place memory x y creature =
      some ((memory.allocate creature).1, sea.assign x y memory.fresh) := by
  show (sea.write x y memory.fresh).bind _ = _
  rw [write_cell]
  rfl

end

/-! ## Coordinates around the torus -/

/-- The cell that two coordinates name. -/
def column (extent : Extent) (x : Int) : Fin extent.width :=
  Torus.wrap extent.width_pos x

def row (extent : Extent) (y : Int) : Fin extent.height :=
  Torus.wrap extent.height_pos y

theorem convertXCoord_eq (x : Int) : convertXCoord extent x = (column extent x : Nat) := by
  rw [convertXCoord, convertCoord_eq_emod x extent.width_pos]
  exact (Torus.wrap_val extent.width_pos x).symm

theorem convertYCoord_eq (y : Int) : convertYCoord extent y = (row extent y : Nat) := by
  rw [convertYCoord, convertCoord_eq_emod y extent.height_pos]
  exact (Torus.wrap_val extent.height_pos y).symm

theorem column_cell (x : Fin extent.width) : column extent x = x :=
  Torus.wrap_natCast extent.width_pos x

theorem row_cell (y : Fin extent.height) : row extent y = y :=
  Torus.wrap_natCast extent.height_pos y

theorem read_converted (sea : Sea extent) (x y : Int) :
    sea.read (convertXCoord extent x) (convertYCoord extent y) =
      some (sea.ocean_array (column extent x) (row extent y)) := by
  rw [convertXCoord_eq, convertYCoord_eq, read_cell]

theorem cellContents_eq (sea : Sea extent) (memory : Memory) (x y : Int) :
    sea.cellContents memory x y =
      some (sea.creature memory (column extent x) (row extent y)).getType := by
  rw [cellContents, read_converted]
  rfl

theorem add_eq (sea : Sea extent) (memory : Memory) (x y : Int) (creature : Creature) :
    sea.add memory x y creature =
      if (sea.creature memory (column extent x) (row extent y)).getType = EMPTY then
        some ((memory.allocate creature).1,
          sea.assign (column extent x) (row extent y) memory.fresh)
      else some (memory, sea) := by
  rw [add, cellContents_eq, convertXCoord_eq, convertYCoord_eq, place_cell]
  rfl

/-! ## Counting neighbours -/

theorem countCell_eq (sea : Sea extent) (memory : Memory) (type typeCounter : Int)
    (cell : Int × Int) :
    sea.countCell memory type typeCounter cell =
      some (if (sea.creature memory (column extent cell.1) (row extent cell.2)).getType = type
        then typeCounter + 1 else typeCounter) := by
  rw [countCell, read_converted]
  rfl

theorem foldlM_countCell (sea : Sea extent) (memory : Memory) (type : Int)
    (cells : List (Int × Int)) (start : Int) :
    cells.foldlM (sea.countCell memory type) start =
      some (start + ((cells.map fun cell => (column extent cell.1, row extent cell.2)).countP
        fun cell => decide ((sea.creature memory cell.1 cell.2).getType = type) : Nat)) := by
  induction cells generalizing start with
  | nil => exact congrArg some (Int.add_zero start).symm
  | cons cell cells ih =>
    rw [foldlM_cons, countCell_eq, Option.bind_eq_bind, Option.bind_some, ih, map_cons,
      countP_cons]
    by_cases same :
        (sea.creature memory (column extent cell.1) (row extent cell.2)).getType = type
    · simp only [same, if_true, decide_true]
      congr 1
      omega
    · simp only [same, if_false, decide_false, Bool.false_eq_true]
      rfl

/-- The count is over the window on the torus. -/
theorem numNeighborType_eq (sea : Sea extent) (memory : Memory) (x : Fin extent.width)
    (y : Fin extent.height) (type : Int) :
    sea.numNeighborType memory x y type =
      some (((Torus.window x y).countP fun cell =>
        decide ((sea.creature memory cell.1 cell.2).getType = type) : Nat) : Int) := by
  have window : ([(x : Int) - 1, x, x + 1].flatMap fun i =>
      [(y : Int) - 1, y, y + 1].map fun j => (i, j)).map
        (fun cell => (column extent cell.1, row extent cell.2)) = Torus.window x y := by
    have middleX : column extent x = Torus.shift x 0 := by
      rw [column_cell, Torus.shift_zero]
    have middleY : row extent y = Torus.shift y 0 := by
      rw [row_cell, Torus.shift_zero]
    simp only [flatMap_cons, flatMap_nil, map_cons, map_nil, append_nil,
      cons_append, nil_append, middleX, middleY]
    rfl
  rw [numNeighborType, convertXCoord_eq, convertYCoord_eq, column_cell, row_cell,
    foldlM_countCell, window, Int.zero_add]

end Sea

/-! ## Which objects exist -/

namespace Creature

/-- The same object at another time: only the hunger of a shark can have changed. -/
def Aged : Creature -> Creature -> Prop
  | shark starveTimeFull _, later => ∃ timeToDeath, later = shark starveTimeFull timeToDeath
  | creature, later => later = creature

theorem aged_self (creature : Creature) : creature.Aged creature := by
  cases creature with
  | empty => rfl
  | fish => rfl
  | shark starveTimeFull timeToDeath => exact ⟨timeToDeath, rfl⟩

theorem Aged.trans {creature later last : Creature} (first : creature.Aged later)
    (second : later.Aged last) : creature.Aged last := by
  cases creature with
  | empty | fish =>
    cases first
    exact second
  | shark starveTimeFull timeToDeath =>
    rcases first with ⟨time, rfl⟩
    exact second

theorem Aged.getType_eq {creature later : Creature} (aged : creature.Aged later) :
    later.getType = creature.getType := by
  cases creature with
  | empty => rw [show later = empty from aged]
  | fish => rw [show later = fish from aged]
  | shark starveTimeFull timeToDeath =>
    rcases aged with ⟨time, rfl⟩
    rfl

theorem Aged.bredFor {creature later : Creature} {starveTime : Int} (aged : creature.Aged later)
    (bred : creature.BredFor starveTime) : later.BredFor starveTime := by
  cases creature with
  | empty => rw [show later = empty from aged]; trivial
  | fish => rw [show later = fish from aged]; trivial
  | shark starveTimeFull timeToDeath =>
    rcases aged with ⟨time, rfl⟩
    exact bred

end Creature

/-- The memory at a later time. -/
structure Memory.Evolves (memory later : Memory) : Prop where
  grown : memory.fresh <= later.fresh
  aged : ∀ ref, ref < memory.fresh -> (memory.objects ref).Aged (later.objects ref)

namespace Memory

theorem evolves_self (memory : Memory) : memory.Evolves memory :=
  ⟨Nat.le_refl _, fun ref _ => (memory.objects ref).aged_self⟩

theorem Evolves.trans {memory later last : Memory} (first : memory.Evolves later)
    (second : later.Evolves last) : memory.Evolves last :=
  ⟨first.grown.trans second.grown, fun ref old =>
    (first.aged ref old).trans (second.aged ref (old.trans_le first.grown))⟩

section

variable (memory : Memory)

include memory

theorem objects_allocate_old (creature : Creature) {ref : Ref} (old : ref < memory.fresh) :
    (memory.allocate creature).1.objects ref = memory.objects ref :=
  update_of_ne (Nat.ne_of_lt old) _ _

theorem objects_allocate_fresh (creature : Creature) :
    (memory.allocate creature).1.objects memory.fresh = creature :=
  update_self _ _ _

theorem evolves_allocate (creature : Creature) : memory.Evolves (memory.allocate creature).1 :=
  ⟨Nat.le_succ _, fun ref old => by
    rw [objects_allocate_old memory creature old]
    exact (memory.objects ref).aged_self⟩

theorem objects_set_same (ref : Ref) (creature : Creature) :
    (memory.set ref creature).objects ref = creature :=
  update_self _ _ _

theorem objects_set_other {ref other : Ref} (apart : other ≠ ref) (creature : Creature) :
    (memory.set ref creature).objects other = memory.objects other :=
  update_of_ne apart _ _

theorem set_self (ref : Ref) : memory.set ref (memory.objects ref) = memory := by
  rw [set, update_eq_self]

theorem evolves_set {ref : Ref} {creature : Creature} (aged : (memory.objects ref).Aged creature) :
    memory.Evolves (memory.set ref creature) := by
  refine ⟨Nat.le_refl _, fun other old => ?_⟩
  by_cases same : other = ref
  · rw [same, objects_set_same]
    exact aged
  · rw [objects_set_other memory same]
    exact (memory.objects other).aged_self

end

end Memory

namespace Sea

variable {extent : Extent} {memory : Memory} {starveTime : Int}

/-- No two cells of an ocean share a creature, and its sharks are its own kind. -/
structure Sound (sea : Sea extent) (memory : Memory) : Prop where
  allocated : ∀ x y, sea.ocean_array x y < memory.fresh
  apart : ∀ x y column row, sea.ocean_array x y = sea.ocean_array column row ->
    (x, y) = (column, row)
  bred : ∀ x y, (sea.creature memory x y).BredFor sea.starveTime

variable {sea : Sea extent}

/-- Whatever happens to other oceans, an ocean stays sound. -/
theorem Sound.evolves {later : Memory} (sound : sea.Sound memory) (evolves : memory.Evolves later) :
    sea.Sound later where
  allocated x y := (sound.allocated x y).trans_le evolves.grown
  apart := sound.apart
  bred x y := (evolves.aged _ (sound.allocated x y)).bredFor (sound.bred x y)

variable {y : Fin extent.height} {x : Fin extent.width}

/-- Another reference in a cell keeps the cells apart if no other cell has it. -/
theorem Sound.share (sound : sea.Sound memory) {ref : Ref} (allocated : ref < memory.fresh)
    (unused : ∀ column row, (column, row) ≠ (x, y) -> sea.ocean_array column row ≠ ref)
    (suits : (memory.objects ref).BredFor sea.starveTime) : (sea.assign x y ref).Sound memory := by
  refine ⟨fun column row => ?_, fun column row column' row' same => ?_, fun column row => ?_⟩
  · by_cases here : (column, row) = (x, y)
    · cases here
      rw [assign_same]
      exact allocated
    · rw [assign_other sea here]
      exact sound.allocated column row
  · by_cases here : (column, row) = (x, y)
    · cases here
      by_contra other
      rw [assign_same, assign_other sea (fun equal => other equal.symm)] at same
      exact unused column' row' (fun equal => other equal.symm) same.symm
    · by_cases there : (column', row') = (x, y)
      · cases there
        rw [assign_same, assign_other sea here] at same
        exact absurd same (unused column row here)
      · rw [assign_other sea here, assign_other sea there] at same
        exact sound.apart column row column' row' same
  · show (memory.objects _).BredFor sea.starveTime
    by_cases here : (column, row) = (x, y)
    · cases here
      rw [assign_same]
      exact suits
    · rw [assign_other sea here]
      exact sound.bred column row

/-- A new object in a cell keeps the cells apart. -/
theorem Sound.assign (sound : sea.Sound memory) (x : Fin extent.width) (y : Fin extent.height)
    {creature : Creature} (suits : creature.BredFor sea.starveTime) :
    (sea.assign x y memory.fresh).Sound (memory.allocate creature).1 := by
  refine (sound.evolves (memory.evolves_allocate creature)).share (Nat.lt_succ_self _) ?_ ?_
  · exact fun column row _ => Nat.ne_of_lt (sound.allocated column row)
  · rw [Memory.objects_allocate_fresh]
    exact suits

/-! ## A new ocean -/

/-- The cells filled so far have empty creatures of their own. -/
structure Filled (memory : Memory) (starveTime : Int)
    (done : List (Fin extent.width × Fin extent.height)) (state : Memory × Sea extent) : Prop where
  starveTime : state.2.starveTime = starveTime
  grown : memory.fresh <= state.1.fresh
  kept : ∀ ref, ref < memory.fresh -> state.1.objects ref = memory.objects ref
  above : ∀ x y, (x, y) ∈ done -> memory.fresh <= state.2.ocean_array x y
  allocated : ∀ x y, (x, y) ∈ done -> state.2.ocean_array x y < state.1.fresh
  empty : ∀ x y, (x, y) ∈ done -> state.2.creature state.1 x y = .empty
  apart : ∀ x y column row, (x, y) ∈ done -> (column, row) ∈ done ->
    state.2.ocean_array x y = state.2.ocean_array column row -> (x, y) = (column, row)

variable {state : Memory × Sea extent} {done : List (Fin extent.width × Fin extent.height)}

theorem Filled.place (filled : Filled memory starveTime done state) (new : (x, y) ∉ done) :
    Filled memory starveTime (done ++ [(x, y)])
      ((state.1.allocate .empty).1, state.2.assign x y state.1.fresh) := by
  have cases : ∀ column row, (column, row) ∈ done ++ [(x, y)] ->
      (column, row) = (x, y) ∨ (column, row) ∈ done ∧ (column, row) ≠ (x, y) := by
    intro column row member
    rcases mem_append.mp member with old | here
    · exact .inr ⟨old, fun same => new (same ▸ old)⟩
    · exact .inl (mem_singleton.mp here)
  refine ⟨filled.starveTime, filled.grown.trans (Nat.le_succ _), ?_, ?_, ?_, ?_, ?_⟩
  · intro ref old
    rw [Memory.objects_allocate_old _ _ (old.trans_le filled.grown)]
    exact filled.kept ref old
  · intro column row member
    rcases cases column row member with here | ⟨old, other⟩
    · cases here
      rw [assign_same]
      exact filled.grown
    · rw [assign_other state.2 other]
      exact filled.above column row old
  · intro column row member
    rcases cases column row member with here | ⟨old, other⟩
    · cases here
      rw [assign_same]
      exact Nat.lt_succ_self _
    · rw [assign_other state.2 other]
      exact (filled.allocated column row old).trans (Nat.lt_succ_self _)
  · intro column row member
    show (state.1.allocate .empty).1.objects _ = _
    rcases cases column row member with here | ⟨old, other⟩
    · cases here
      rw [assign_same, Memory.objects_allocate_fresh]
    · rw [assign_other state.2 other,
        Memory.objects_allocate_old _ _ (filled.allocated column row old)]
      exact filled.empty column row old
  · intro column row column' row' member member' same
    rcases cases column row member with here | ⟨old, other⟩
    · rcases cases column' row' member' with here' | ⟨old', other'⟩
      · rw [here, here']
      · cases here
        rw [assign_same, assign_other state.2 other'] at same
        exact absurd same (Nat.ne_of_gt (filled.allocated column' row' old'))
    · rcases cases column' row' member' with here' | ⟨old', other'⟩
      · cases here'
        rw [assign_same, assign_other state.2 other] at same
        exact absurd same (Nat.ne_of_lt (filled.allocated column row old))
      · rw [assign_other state.2 other, assign_other state.2 other'] at same
        exact filled.apart column row column' row' old old' same

theorem new_filled (extent : Extent) (memory : Memory) (starveTime : Int) :
    ∃ state, new extent memory starveTime = some state ∧
      Filled memory starveTime (Torus.cells extent.width extent.height) state := by
  refine foldlM_total (Filled memory starveTime) Torus.nodup_cells ?_ ?_
  · refine ⟨rfl, Nat.le_refl _, fun _ _ => rfl, ?_, ?_, ?_, ?_⟩
    · exact fun _ _ member => absurd member not_mem_nil
    · exact fun _ _ member => absurd member not_mem_nil
    · exact fun _ _ member => absurd member not_mem_nil
    · exact fun _ _ _ _ member => absurd member not_mem_nil
  · intro done cell state _ fresh filled
    exact ⟨_, place_cell state.2 state.1 cell.1 cell.2 .empty, filled.place fresh⟩

theorem Filled.evolves (filled : Filled memory starveTime done state) : memory.Evolves state.1 :=
  ⟨filled.grown, fun ref old => by
    rw [filled.kept ref old]
    exact (memory.objects ref).aged_self⟩

/-- A new ocean has an object for every cell. -/
theorem Filled.sound
    (filled : Filled memory starveTime (Torus.cells extent.width extent.height) state) :
    state.2.Sound state.1 where
  allocated x y := filled.allocated x y (Torus.mem_cells (x, y))
  apart x y column row :=
    filled.apart x y column row (Torus.mem_cells (x, y)) (Torus.mem_cells (column, row))
  bred x y := by
    rw [filled.empty x y (Torus.mem_cells (x, y))]
    trivial

end Sea

end SharksAndFish
end Codebank
