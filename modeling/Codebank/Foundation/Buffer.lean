import Mathlib.Data.List.Perm.Basic
import Mathlib.Data.List.Range
import Codebank.Foundation.Loop

namespace Codebank
namespace Foundation

open List

/-!
# Arrays with checked access, and loops over them

A buffer is an array of a fixed size whose cells may be unwritten.  Reading outside
the array, reading an unwritten cell and writing outside the array all fail, so a
computation that yields a value has used every index correctly.  `Written` says what
a piece of code has done to a buffer: the cells of a region hold their target values
and all others are as before.
-/

/-! ## Computations that yield a value -/

section

variable {Value Other State : Type}

/-- The computation succeeds, and its value meets the postcondition. -/
def Yields (outcome : Option Value) (post : Value -> Prop) : Prop :=
  ∃ value, outcome = some value ∧ post value

variable {post : Value -> Prop}

theorem yields_some {value : Value} (holds : post value) : Yields (some value) post :=
  ⟨value, rfl, holds⟩

variable {outcome : Option Value}

theorem Yields.bind {next : Value -> Option Other} {last : Other -> Prop}
    (first : Yields outcome post) (rest : ∀ value, post value -> Yields (next value) last) :
    Yields (outcome >>= next) last := by
  rcases first with ⟨value, rfl, holds⟩
  exact rest value holds

theorem Yields.mono {weaker : Value -> Prop} (holds : Yields outcome post)
    (implies : ∀ value, post value -> weaker value) : Yields outcome weaker := by
  rcases holds with ⟨value, same, meets⟩
  exact ⟨value, same, implies value meets⟩

theorem Yields.branch {condition : Prop} [Decidable condition] {first second : Option Value}
    (positive : condition -> Yields first post) (negative : ¬ condition -> Yields second post) :
    Yields (if condition then first else second) post := by
  by_cases holds : condition
  · rw [if_pos holds]
    exact positive holds
  · rw [if_neg holds]
    exact negative holds

/-- The invariant rule for a loop that counts up from zero. -/
theorem foldlM_range_yields {body : State -> Nat -> Option State} (Invariant : Nat -> State -> Prop)
    {count : Nat} {start : State} (initially : Invariant 0 start)
    (turn : ∀ index state, index < count -> Invariant index state ->
      Yields (body state index) (Invariant (index + 1))) :
    Yields ((List.range count).foldlM body start) (Invariant count) := by
  induction count with
  | zero => exact yields_some initially
  | succ count ih =>
    rw [range_succ, foldlM_append]
    refine (ih (fun index state below => turn index state (Nat.lt_succ_of_lt below))).bind ?_
    intro state holds
    rw [foldlM_cons]
    exact (turn count state (Nat.lt_succ_self count) holds).bind (fun next kept => yields_some kept)

/-- The loop `for ( ; x + ahead < bound; x += step)`, with the last value of `x`; the
first number is a limit on its turns. -/
def strideFrom (body : Nat -> State -> Option State) (step ahead bound : Nat) :
    Nat -> Nat -> State -> Option (Nat × State)
  | 0, _, _ => none
  | limit + 1, x, state =>
    if x + ahead < bound then do
      let next <- body x state
      strideFrom body step ahead bound limit (x + step) next
    else some (x, state)

/-- The loop with enough turns for a positive step. -/
def stride (body : Nat -> State -> Option State) (step ahead bound x : Nat) (state : State) :
    Option (Nat × State) :=
  strideFrom body step ahead bound (bound + 1) x state

theorem strideFrom_yields {body : Nat -> State -> Option State} {step ahead bound : Nat}
    (Invariant : Nat -> State -> Prop) (positive : 0 < step)
    (turn : ∀ x state, x + ahead < bound -> Invariant x state ->
      Yields (body x state) (Invariant (x + step)))
    {limit x : Nat} {state : State} (enough : bound - x < limit) (holds : Invariant x state) :
    Yields (strideFrom body step ahead bound limit x state)
      (fun last => Invariant last.1 last.2 ∧ ¬ last.1 + ahead < bound) := by
  induction limit generalizing x state with
  | zero => exact absurd enough (Nat.not_lt_zero _)
  | succ limit ih =>
    rw [strideFrom]
    by_cases inside : x + ahead < bound
    · rw [if_pos inside]
      exact (turn x state inside holds).bind (fun next kept => ih (by omega) kept)
    · rw [if_neg inside]
      exact yields_some ⟨holds, inside⟩

theorem stride_yields {body : Nat -> State -> Option State} {step ahead bound x : Nat}
    (Invariant : Nat -> State -> Prop) (positive : 0 < step)
    (turn : ∀ x state, x + ahead < bound -> Invariant x state ->
      Yields (body x state) (Invariant (x + step))) {state : State} (holds : Invariant x state) :
    Yields (stride body step ahead bound x state)
      (fun last => Invariant last.1 last.2 ∧ ¬ last.1 + ahead < bound) :=
  strideFrom_yields Invariant positive turn (Nat.lt_succ_of_le (Nat.sub_le bound x)) holds

end

/-! ## Buffers -/

structure Buffer (Value : Type) where
  size : Nat
  cell : Nat -> Option Value

namespace Buffer

variable {Value : Type}

/-- An array that has been allocated and not yet written. -/
def fresh (size : Nat) : Buffer Value where
  size := size
  cell := fun _ => none

def ofList (values : List Value) : Buffer Value where
  size := values.length
  cell := fun index => values[index]?

def load (buffer : Buffer Value) (index : Nat) : Option Value :=
  if index < buffer.size then buffer.cell index else none

/-- A read at an index that may be negative. -/
def loadInt (buffer : Buffer Value) (index : Int) : Option Value :=
  if 0 <= index then buffer.load index.toNat else none

def store (buffer : Buffer Value) (index : Nat) (value : Value) : Option (Buffer Value) :=
  if index < buffer.size then
    some { buffer with cell := fun other =>
      if other = index then some value else buffer.cell other }
  else none

/-- The cells that an index below the limit reaches. -/
def below (buffer : Buffer Value) (limit : Nat) : Buffer Value :=
  { buffer with size := min buffer.size limit }

theorem below_eq {buffer : Buffer Value} {limit : Nat} (small : buffer.size <= limit) :
    buffer.below limit = buffer := by
  rw [below, Nat.min_eq_left small]

/-- The cells of the buffer hold the given values. -/
def Holds (buffer : Buffer Value) (size : Nat) (values : Nat -> Value) : Prop :=
  buffer.size = size ∧ ∀ index, index < size -> buffer.cell index = some (values index)

theorem Holds.load {buffer : Buffer Value} {size index : Nat} {values : Nat -> Value}
    (holds : buffer.Holds size values) (inside : index < size) :
    buffer.load index = some (values index) := by
  rw [Buffer.load, holds.1, if_pos inside, holds.2 index inside]

theorem ofList_holds {values : List Value} {size : Nat} (length : values.length = size)
    {value : Nat -> Value} (same : ∀ index (inside : index < values.length),
      values[index] = value index) : (ofList values).Holds size value := by
  refine ⟨length, fun index inside => ?_⟩
  rw [<- length] at inside
  show values[index]? = some (value index)
  rw [getElem?_eq_getElem inside, same index inside]

end Buffer

/-! ## What code has written -/

/-- The cells of the region hold the target, and the others are as they were. -/
structure Written {Value : Type} (old : Buffer Value) (target : Nat -> Value)
    (Region : Nat -> Prop) (now : Buffer Value) : Prop where
  size : now.size = old.size
  inside : ∀ index, Region index -> now.cell index = some (target index)
  outside : ∀ index, ¬ Region index -> now.cell index = old.cell index

section

variable {Value : Type} {old now later : Buffer Value} {target : Nat -> Value}
  {Region Other : Nat -> Prop}

theorem Written.none (old : Buffer Value) (target : Nat -> Value)
    (empty : ∀ index, ¬ Region index) :
    Written old target Region old :=
  ⟨rfl, fun index member => absurd member (empty index), fun _ _ => rfl⟩

theorem Written.congr (written : Written old target Region now)
    (same : ∀ index, Region index <-> Other index) : Written old target Other now :=
  ⟨written.size, fun index member => written.inside index ((same index).mpr member),
    fun index away => written.outside index (fun member => away ((same index).mp member))⟩

variable {values : Nat -> Value}

theorem Written.retarget (written : Written old target Region now)
    (same : ∀ index, Region index -> target index = values index) :
    Written old values Region now :=
  ⟨written.size, fun index member => by rw [written.inside index member, same index member],
    written.outside⟩

/-- Two pieces of code one after the other. -/
theorem Written.trans (first : Written old target Region now)
    (second : Written now target Other later) :
    Written old target (fun index => Region index ∨ Other index) later := by
  refine ⟨second.size.trans first.size, fun index member => ?_, fun index away => ?_⟩
  · by_cases again : Other index
    · exact second.inside index again
    · rw [second.outside index again]
      exact first.inside index (member.resolve_right again)
  · rw [second.outside index (fun member => away (.inr member)),
      first.outside index (fun member => away (.inl member))]

theorem Written.unique (first : Written old target Region now)
    (second : Written old target Region later) : now = later := by
  have cells : now.cell = later.cell := by
    funext index
    by_cases member : Region index
    · rw [first.inside index member, second.inside index member]
    · rw [first.outside index member, second.outside index member]
  have sizes : now.size = later.size := first.size.trans second.size.symm
  cases now
  cases later
  cases cells
  cases sizes
  rfl

variable {index : Nat} {value : Value}

theorem store_written (target : Nat -> Value) (inside : index < now.size)
    (same : value = target index) :
    Yields (now.store index value) (Written now target (fun other => other = index)) := by
  rw [Buffer.store, if_pos inside]
  refine yields_some ⟨rfl, ?_, ?_⟩
  · rintro other rfl
    show (if other = other then some value else now.cell other) = _
    rw [if_pos rfl, same]
  · intro other away
    exact if_neg away

/-- A cell that already holds the value. -/
theorem Written.unchanged (holds : old.cell index = some value) :
    Written old (fun _ => value) (fun other => other = index) old :=
  ⟨rfl, fun _ same => same ▸ holds, fun _ _ => rfl⟩

/-- A region that is written again. -/
theorem Written.overwrite (first : Written old values Region now)
    (second : Written now target Region later) : Written old target Region later :=
  ⟨second.size.trans first.size, second.inside, fun index away => by
    rw [second.outside index away, first.outside index away]⟩

/-- A region is an interval that is written from its lower end on. -/
theorem Written.extend {low middle high : Nat}
    (first : Written old target (fun index => low <= index ∧ index < middle) now)
    (second : Written now target (fun index => middle <= index ∧ index < high) later)
    (ordered : low <= middle ∧ middle <= high) :
    Written old target (fun index => low <= index ∧ index < high) later :=
  (first.trans second).congr (fun index => by omega)

theorem Written.one (written : Written old target (fun other => other = index) now) :
    Written old target (fun other => index <= other ∧ other < index + 1) now :=
  written.congr (fun other => by omega)

/-- A loop that fills an interval from its lower end on, a step at a time.  A turn may
rely on the cells it has not yet reached being as they were. -/
theorem stride_written {body : Nat -> Buffer Value -> Option (Buffer Value)} {ahead bound x : Nat}
    (base : Nat) (target : Nat -> Value) (below : x <= bound)
    (turn : ∀ here buffer, (∃ count, here = x + count * (ahead + 1)) ->
      here + ahead < bound -> buffer.size = old.size ->
      (∀ index, base + here <= index -> buffer.cell index = old.cell index) ->
      Yields (body here buffer) (Written buffer target
        (fun index => base + here <= index ∧ index < base + here + (ahead + 1)))) :
    Yields (stride body (ahead + 1) ahead bound x old) (fun last =>
      (last.1 <= bound ∧ bound <= last.1 + ahead) ∧
        (∃ count, last.1 = x + count * (ahead + 1)) ∧
        Written old target (fun index => base + x <= index ∧ index < base + last.1) last.2) := by
  refine (stride_yields (fun here now => here <= bound ∧
    (∃ count, here = x + count * (ahead + 1)) ∧
    Written old target (fun index => base + x <= index ∧ index < base + here) now)
    (Nat.succ_pos ahead) ?_ ?_).mono ?_
  · rintro here now inside ⟨_, ⟨count, reached⟩, written⟩
    have later : x <= here := reached ▸ Nat.le_add_right _ _
    refine (turn here now ⟨count, reached⟩ inside written.size (fun index far =>
      written.outside index (by omega))).mono (fun next last => ?_)
    refine ⟨by omega, ⟨count + 1, ?_⟩, ?_⟩
    · rw [reached, Nat.add_mul, Nat.one_mul, Nat.add_assoc]
    · exact (written.extend last (by omega)).congr (fun index => by omega)
  · exact ⟨below, ⟨0, by rw [Nat.zero_mul, Nat.add_zero]⟩,
      Written.none old target (fun index => by omega)⟩
  · rintro last ⟨⟨most, reached, written⟩, done⟩
    exact ⟨⟨most, Nat.le_of_not_lt done⟩, reached, written⟩

/-- The regions of the keys done, and of one key more. -/
theorem regions_snoc {Key : Type} (regions : Key -> Nat -> Prop) (done : List Key) (key : Key)
    (index : Nat) :
    (∃ other, other ∈ done ∧ regions other index) ∨ regions key index <->
      ∃ other, other ∈ done ++ [key] ∧ regions other index := by
  simp only [mem_append, mem_singleton, or_and_right, exists_or, exists_eq_left]

/-- A loop whose turns write regions of their own. -/
theorem foldlM_written {Key : Type} {body : Buffer Value -> Key -> Option (Buffer Value)}
    {keys : List Key} (target : Nat -> Value) (regions : Key -> Nat -> Prop)
    (turn : ∀ key buffer, key ∈ keys -> buffer.size = old.size ->
      Yields (body buffer key) (Written buffer target (regions key))) :
    Yields (keys.foldlM body old)
      (Written old target (fun index => ∃ key, key ∈ keys ∧ regions key index)) := by
  refine foldlM_succeeds
    (fun done => Written old target (fun index => ∃ key, key ∈ done ∧ regions key index))
    (Written.none old target (fun index none => ?_)) ?_
  · rcases none with ⟨key, member, _⟩
    exact not_mem_nil member
  · intro done key rest buffer whole written
    have member : key ∈ keys := whole ▸ mem_append_right _ mem_cons_self
    exact (turn key buffer member written.size).mono (fun next now =>
      (written.trans now).congr (regions_snoc regions done key))

end

/-! ## Loops shared by threads -/

/-- How a team of threads shares the iterations of parallel loops: for each loop and each
number of iterations, which thread runs which iteration, in the order in which they are
run.  Every iteration is run once. -/
structure Team where
  turns : Nat -> Nat -> List (Nat × Nat)
  shared : ∀ loop count, ((turns loop count).map Prod.snd).Perm (List.range count)

namespace Team

variable {State : Type} (team : Team) (loop count : Nat)

def parallelFor (body : Nat -> Nat -> State -> Option State) (state : State) : Option State :=
  (team.turns loop count).foldlM (fun now turn => body turn.1 turn.2 now) state

theorem iteration_lt {turn : Nat × Nat} (member : turn ∈ team.turns loop count) : turn.2 < count :=
  mem_range.mp ((team.shared loop count).mem_iff.mp (mem_map_of_mem member))

theorem iteration_run {index : Nat} (inside : index < count) :
    ∃ turn, turn ∈ team.turns loop count ∧ turn.2 = index :=
  mem_map.mp ((team.shared loop count).mem_iff.mpr (mem_range.mpr inside))

theorem iterations_nodup : ((team.turns loop count).map Prod.snd).Nodup :=
  (team.shared loop count).nodup_iff.mpr nodup_range

/-- The iterations before a turn are other iterations. -/
theorem earlier_ne {before after : List (Nat × Nat)} {turn earlier : Nat × Nat}
    (whole : before ++ turn :: after = team.turns loop count) (member : earlier ∈ before) :
    earlier.2 ≠ turn.2 := by
  have nodup := team.iterations_nodup loop count
  rw [<- whole, map_append, map_cons] at nodup
  exact (nodup_append.mp nodup).2.2 earlier.2 (mem_map_of_mem member) turn.2
    mem_cons_self

/-- A parallel loop whose iterations write regions of their own. -/
theorem parallelFor_written {Value : Type} {old : Buffer Value}
    {body : Nat -> Nat -> Buffer Value -> Option (Buffer Value)} (target : Nat -> Value)
    (regions : Nat -> Nat -> Prop)
    (turn : ∀ thread index buffer, index < count -> buffer.size = old.size ->
      Yields (body thread index buffer) (Written buffer target (regions index))) :
    Yields (team.parallelFor loop count body old)
      (Written old target (fun cell => ∃ index, index < count ∧ regions index cell)) := by
  refine (foldlM_written target (fun turn => regions turn.2) ?_).mono ?_
  · intro next buffer member size
    exact turn next.1 next.2 buffer (team.iteration_lt loop count member) size
  · intro now written
    refine written.congr (fun cell => ?_)
    constructor
    · rintro ⟨next, member, inside⟩
      exact ⟨next.2, team.iteration_lt loop count member, inside⟩
    · rintro ⟨index, below, inside⟩
      rcases team.iteration_run loop count below with ⟨next, member, rfl⟩
      exact ⟨next, member, inside⟩

end Team

end Foundation
end Codebank
