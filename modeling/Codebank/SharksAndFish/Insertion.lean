import Codebank.SharksAndFish.Encoding

namespace Codebank
namespace SharksAndFish

open Ocean Foundation.RunLength List Option

/-!
# Inserting a creature into an encoding

The search finds the run of a cell, and each branch of the insertion leaves the
maximal runs of the ocean in which that cell has been replaced.
-/

namespace RunLengthEncoding

variable {size : Size}

/-! ## Finding the run of a cell -/

variable {entries : List DList.Entry} {runs : List Run} {list : DList}

theorem addRows_eq (width rows : Nat) (encodedPosition : Int) :
    addRows width rows encodedPosition = encodedPosition + (rows * width : Nat) := by
  induction rows generalizing encodedPosition with
  | zero => simp [addRows]
  | succ rows ih =>
    rw [addRows, ih, Nat.succ_mul]
    omega

theorem getEncodedPosition_eq (x y : Int) :
    getEncodedPosition size x y = (target size x y : Nat) := by
  have nonnegative : 0 <= convertCoord x size.width := by
    rw [convertCoord_eq_emod x size.width_pos]
    exact Int.emod_nonneg x (Int.natCast_ne_zero.mpr size.width_pos.ne')
  rw [getEncodedPosition, addRows_eq, Int.zero_add]
  show _ = (((convertCoord y size.height).toNat * size.width +
    (convertCoord x size.width).toNat : Nat) : Int)
  rw [Int.natCast_add, Int.toNat_of_nonneg nonnegative]

/-- A run in the middle of those that are stored, with its node. -/
structure Located (entries : List DList.Entry) (runs : List Run) (before after : List DList.Entry)
    (left right : List Run) (ref : Ref) (run : Run) : Prop where
  entries : entries = before ++ (ref, run.item) :: after
  runs : runs = left ++ run :: right
  before : before.map Prod.snd = left.map Run.item
  after : after.map Prod.snd = right.map Run.item

theorem Located.cons {before after : List DList.Entry} {left right : List Run} {ref first : Ref}
    {run leading : Run} (located : Located entries runs before after left right ref run) :
    Located ((first, leading.item) :: entries) (leading :: runs) ((first, leading.item) :: before)
      after (leading :: left) right ref run := by
  refine ⟨?_, ?_, ?_, located.after⟩
  · rw [located.entries]
    rfl
  · rw [located.runs]
    rfl
  · rw [map_cons, map_cons, located.before]

/-- What is left of the position when the search has found a run: nothing at its
start, otherwise less than nothing. -/
def restOf (run : Run) (offset : Nat) : Int :=
  if offset = 0 then 0 else offset - run.2

open DListNode (getRunLength_eq getRunType_eq setEntry)

/-- The search stops at the run itself or, inside a run, at the node behind it. -/
theorem walk_eq {passed : List DList.Entry} (holds : list.Holds (passed ++ entries))
    (items : entries.map Prod.snd = runs.map Run.item)
    (positive : ∀ run, run ∈ runs -> 0 < run.2) {position rounds : Nat}
    (within : position < (expand runs).length) (enough : position < rounds) :
    ∃ before after left right ref run offset,
      Located entries runs before after left right ref run ∧ offset < run.2 ∧
      position = (expand left).length + offset ∧
      walk list rounds position (list.firstRef entries) =
        some (restOf run offset, if offset = 0 then ref else list.firstRef after) := by
  induction entries generalizing passed runs position rounds with
  | nil =>
    cases runs with
    | nil => exact absurd within (Nat.not_lt_zero position)
    | cons run rest => cases items
  | cons entry rest ih =>
    cases runs with
    | nil => cases items
    | cons run runs =>
      rcases entry with ⟨ref, content⟩
      rcases List.cons.inj items with ⟨rfl, restItems⟩
      have filled := positive run mem_cons_self
      have located : Located ((ref, run.item) :: rest) (run :: runs) [] rest [] runs ref run :=
        ⟨rfl, rfl, rfl, restItems⟩
      have known : (list.nodes ref).item = [run.1.1, run.2, run.1.2] := holds.item_eq
      cases rounds with
      | zero => exact absurd enough (Nat.not_lt_zero position)
      | succ rounds =>
        by_cases atStart : position = 0
        · cases atStart
          exact ⟨[], rest, [], runs, ref, run, 0, located, filled, rfl, rfl⟩
        · have moved : walk list (rounds + 1) position (list.firstRef ((ref, run.item) :: rest)) =
              walk list rounds (position - run.2) (list.firstRef rest) := by
            rw [walk, if_pos (by omega)]
            show (list.getNext ref).bind _ = _
            rw [holds.getNext_eq, bind_some]
            show walk list rounds (position - (list.nodes ref).getRunLength) _ = _
            rw [getRunLength_eq known]
          rw [moved]
          by_cases inside : position < run.2
          · refine ⟨[], rest, [], runs, ref, run, position, located, inside,
              (Nat.zero_add _).symm, ?_⟩
            cases rounds with
            | zero => omega
            | succ rounds =>
              rw [walk, if_neg (by omega), restOf, if_neg atStart, if_neg atStart]
          · have holdsRest : list.Holds ((passed ++ [(ref, run.item)]) ++ rest) := by
              rwa [append_assoc]
            rw [expand_cons, length_append, length_replicate] at within
            have withinRest : position - run.2 < (expand runs).length := by omega
            have enoughRest : position - run.2 < rounds := by omega
            rcases ih holdsRest restItems
              (fun other member => positive other (mem_cons_of_mem _ member))
              withinRest enoughRest with
              ⟨before, after, left, right, found, hit, offset, locatedRest, short, same, walked⟩
            refine ⟨_, after, run :: left, right, found, hit, offset, locatedRest.cons, short,
              ?_, ?_⟩
            · rw [expand_cons, length_append, length_replicate]
              omega
            · rw [<- walked]
              congr 1
              omega

theorem getPrev_firstRef {before after : List DList.Entry} {ref : Ref} {content : List Int}
    (holds : list.Holds (before ++ (ref, content) :: after)) :
    list.getPrev (list.firstRef after) = some ref := by
  rw [append_cons] at holds
  have joined := holds.split.joined.2
  rwa [map_append, map_cons, map_nil, getLastD_concat] at joined

/-- The walk stops at the run of the position. -/
theorem findRun_eq (stores : Stores list entries runs)
    (positive : ∀ run, run ∈ runs -> 0 < run.2) {position : Nat}
    (within : position < (expand runs).length) :
    ∃ before after left right ref run offset,
      Located entries runs before after left right ref run ∧ offset < run.2 ∧
      position = (expand left).length + offset ∧
      findRun list position = some (restOf run offset, ref) := by
  have held : list.Holds ([] ++ entries) := stores.holds
  rcases walk_eq held stores.items positive within (Nat.lt_succ_self position) with
    ⟨before, after, left, right, ref, run, offset, located, short, same, walked⟩
  refine ⟨before, after, left, right, ref, run, offset, located, short, same, ?_⟩
  have holds := stores.holds
  rw [located.entries] at holds
  rw [findRun, stores.holds.getFirst_eq, bind_eq_bind, bind_some, Int.toNat_natCast,
    walked]
  by_cases atStart : offset = 0
  · simp [restOf, atStart]
  · simp only [restOf, if_neg atStart, bind_eq_bind, bind_some]
    rw [if_pos (by omega), getPrev_firstRef holds, bind_some]

/-! ## Newcomers -/

namespace Newcomer

def value (newcomer : Newcomer) : Int × Int :=
  (newcomer.type, newcomer.hunger)

/-- The newcomer makes a run of a creature, and recognises neighbours of its kind. -/
structure Sound (newcomer : Newcomer) : Prop where
  real : Lifelike newcomer.value
  occupies : newcomer.type ≠ EMPTY
  joins : ∀ {node : DListNode} {value : Int × Int} {length : Int},
    node.item = [value.1, length, value.2] -> Lifelike value ∨ value = nullValue ->
      newcomer.joins node = some (decide (value = newcomer.value))

theorem fish_sound : Newcomer.fish.Sound where
  real := ⟨.fish, rfl⟩
  occupies := by decide
  joins := by
    intro node value length known real
    show some (decide (node.getRunType = FISH)) = _
    rw [getRunType_eq known]
    rcases real with ⟨creature, rfl⟩ | rfl
    · cases creature <;> simp [Creature.content, Newcomer.value, fish, EMPTY, FISH, SHARK]
    · simp [nullValue, Newcomer.value, fish, FISH, NULL_TYPE]

theorem shark_sound (starveTime : Int) : (Newcomer.shark starveTime).Sound where
  real := ⟨.shark starveTime starveTime, rfl⟩
  occupies := by
    show SHARK ≠ EMPTY
    decide
  joins := by
    intro node value length known real
    show (node.getRunHunger).bind _ = _
    rw [DListNode.getRunHunger_eq known, bind_some, getRunType_eq known]
    rcases value with ⟨type, hunger⟩
    simp [Newcomer.value, shark]

end Newcomer

/-! ## Writing items -/

theorem setEntry_next (node : DListNode) (index : Nat) (entry : Int) :
    (node.setEntry index entry).next = node.next := by
  rw [setEntry]
  split_ifs <;> rfl

theorem setEntry_prev (node : DListNode) (index : Nat) (entry : Int) :
    (node.setEntry index entry).prev = node.prev := by
  rw [setEntry]
  split_ifs <;> rfl

theorem setEntry_item {node : DListNode} {type length hunger : Int} {index : Nat} (entry : Int)
    (known : node.item = [type, length, hunger]) (within : index < 3) :
    (node.setEntry index entry).item = [type, length, hunger].set index entry := by
  rw [setEntry, known, if_pos (show index + 1 <= [type, length, hunger].length from within)]

section

variable {list : DList} {before after : List DList.Entry} {ref : Ref} {type length hunger : Int}

theorem holds_setEntry (holds : list.Holds (before ++ (ref, [type, length, hunger]) :: after))
    (index : Nat) (entry : Int) (within : index < 3) :
    (list.change ref fun node => node.setEntry index entry).Holds
      (before ++ (ref, [type, length, hunger].set index entry) :: after) :=
  holds.change (fun node => setEntry_next node index entry)
    (fun node => setEntry_prev node index entry) fun _ known => setEntry_item entry known within

theorem holds_takeOver (holds : list.Holds (before ++ (ref, [type, length, hunger]) :: after))
    (newcomer : Newcomer) (newLength : Int) :
    (newcomer.takeOver list ref newLength).Holds
      (before ++ (ref, [newcomer.type, newLength, newcomer.hunger]) :: after) :=
  holds_setEntry (holds_setEntry (holds_setEntry holds 0 newcomer.type (by decide)) 1 newLength
    (by decide)) 2 newcomer.hunger (by decide)

theorem spare_takeOver {entry : DList.Entry} {content : List Int}
    (spare : DList.Spare list (before ++ (ref, content) :: after) entry) (newcomer : Newcomer)
    (newLength : Int) (changed : List Int) :
    DList.Spare (newcomer.takeOver list ref newLength) (before ++ (ref, changed) :: after) entry :=
  ((spare.change _ changed).change _ changed).change _ changed

/-- A new length that is computed from the old one. -/
theorem holds_setRunLength (holds : list.Holds (before ++ (ref, [type, length, hunger]) :: after))
    (update : Int -> Int) :
    (list.change ref fun node => node.setRunLength (update node.getRunLength)).Holds
      (before ++ (ref, [type, update length, hunger]) :: after) := by
  refine holds.change (fun node => setEntry_next node 1 _) (fun node => setEntry_prev node 1 _) ?_
  intro node known
  rw [DListNode.setRunLength, setEntry_item _ known (by decide), getRunLength_eq known]
  rfl

end

/-! ## The four cases -/

def emptyValue : Int × Int := (EMPTY, NULL_HUNGER)

/-- An empty run among maximal runs, with its node. -/
structure EmptyRun (list : DList) (before after : List DList.Entry) (left right : List Run)
    (ref : Ref) (count : Nat) : Prop where
  holds : list.Holds (before ++ (ref, [EMPTY, count, NULL_HUNGER]) :: after)
  before : before.map Prod.snd = left.map Run.item
  after : after.map Prod.snd = right.map Run.item
  maximal : Maximal (left ++ (emptyValue, count) :: right)
  realLeft : ∀ run, run ∈ left -> Lifelike run.1
  realRight : ∀ run, run ∈ right -> Lifelike run.1

/-- The list now stores the maximal runs after one value has been replaced. -/
def Gives (result : Option DList) (runs : List Run) (position : Nat) (value : Int × Int) : Prop :=
  ∃ list after, result = some list ∧ (∃ entries, Stores list entries after) ∧
    Replaced runs position value after

section

variable {list : DList} {before after : List DList.Entry} {left right : List Run} {ref : Ref}
  {count : Nat} {newcomer : Newcomer}

theorem lastRef_concat (list : DList) (entries : List DList.Entry) (entry : DList.Entry) :
    list.lastRef (entries ++ [entry]) = entry.1 := by
  rw [DList.lastRef, map_append]
  exact getLastD_concat

theorem firstRef_cons (list : DList) (entry : DList.Entry) (entries : List DList.Entry) :
    list.firstRef (entry :: entries) = entry.1 := rfl

theorem Newcomer.Sound.ne_empty (sound : newcomer.Sound) : emptyValue ≠ newcomer.value :=
  fun same => sound.occupies (congrArg Prod.fst same).symm

/-- The node before the run either holds a run of the newcomer's kind or does not
continue it. -/
theorem EmptyRun.prev (empty : EmptyRun list before after left right ref count)
    (sound : newcomer.Sound) :
    (newcomer.joins (list.nodes (list.lastRef before)) = some true ∧
      ∃ start startRuns neighbour copies, before = start ++ [(neighbour,
          Run.item (newcomer.value, copies))] ∧ left = startRuns ++ [(newcomer.value, copies)] ∧
        start.map Prod.snd = startRuns.map Run.item) ∨
    (newcomer.joins (list.nodes (list.lastRef before)) = some false ∧
      Trailing newcomer.value left left 0) := by
  rcases item_lastRef empty.holds empty.before with ⟨length, item⟩
  rcases eq_nil_or_concat left with rfl | ⟨startRuns, run, same⟩
  · refine .inr ⟨?_, trailing_self maximal_nil fun last member => by cases member⟩
    rw [sound.joins item (.inr rfl)]
    exact congrArg some (decide_eq_false sound.real.ne_null.symm)
  · rw [concat_eq_append] at same
    subst same
    have value : lastValue (startRuns ++ [run]) = run.1 := by
      rw [lastValue, getLast?_concat]
      rfl
    have real := empty.realLeft run (mem_append_right startRuns mem_cons_self)
    rw [value] at item
    have joins := sound.joins item (.inl real)
    by_cases same : run.1 = newcomer.value
    · refine .inl ⟨by rw [joins, decide_eq_true same], ?_⟩
      have items := empty.before
      rw [map_append, map_eq_append_iff] at items
      rcases items with ⟨start, last, rfl, startItems, lastItems⟩
      rcases map_eq_singleton_iff.mp lastItems with ⟨⟨neighbour, content⟩, rfl, rfl⟩
      refine ⟨start, startRuns, neighbour, run.2, ?_, ?_, startItems⟩
      · rw [<- same]
      · rw [<- same]
    · refine .inr ⟨by rw [joins, decide_eq_false same], ?_⟩
      refine trailing_self (maximal_append.mp empty.maximal).1 fun last member => ?_
      rw [getLast?_concat] at member
      cases member
      exact same

theorem EmptyRun.next (empty : EmptyRun list before after left right ref count)
    (sound : newcomer.Sound) :
    (newcomer.joins (list.nodes (list.firstRef after)) = some true ∧
      ∃ rest restRuns neighbour copies, after = (neighbour,
          Run.item (newcomer.value, copies)) :: rest ∧ right =
            (newcomer.value, copies) :: restRuns ∧
        rest.map Prod.snd = restRuns.map Run.item) ∨
    (newcomer.joins (list.nodes (list.firstRef after)) = some false ∧
      Leading newcomer.value right right 0) := by
  have holds := empty.holds
  rw [append_cons] at holds
  rcases item_firstRef holds empty.after with ⟨length, item⟩
  cases right with
  | nil =>
    refine .inr ⟨?_, leading_self maximal_nil fun last member => by cases member⟩
    rw [sound.joins item (.inr rfl)]
    exact congrArg some (decide_eq_false sound.real.ne_null.symm)
  | cons run restRuns =>
    have joins := sound.joins item (.inl (empty.realRight run mem_cons_self))
    change _ = some (decide (run.1 = newcomer.value)) at joins
    by_cases same : run.1 = newcomer.value
    · refine .inl ⟨by rw [joins, decide_eq_true same], ?_⟩
      have items := empty.after
      rw [map_cons, map_eq_cons_iff] at items
      rcases items with ⟨⟨neighbour, content⟩, rest, rfl, rfl, restItems⟩
      refine ⟨rest, restRuns, neighbour, run.2, ?_, ?_, restItems⟩
      · rw [<- same]
      · rw [<- same]
    · refine .inr ⟨by rw [joins, decide_eq_false same], ?_⟩
      refine leading_self (maximal_cons.mp (maximal_append.mp empty.maximal).2.1).2.2
        fun first member => ?_
      cases member
      exact fun alike => same alike.symm

theorem removeNext {nextRef : Ref} {content nextContent : List Int} {rest : List DList.Entry}
    (holds : list.Holds (before ++ (ref, content) :: (nextRef, nextContent) :: rest)) :
    ∃ result, list.removeNode nextRef = some result ∧
      result.Holds (before ++ (ref, content) :: rest) := by
  rw [append_cons] at holds
  rcases holds.removeNode with ⟨result, gone, -, held⟩
  rw [<- append_cons] at held
  exact ⟨result, gone, held⟩

theorem runLength_of_mem {entry : Ref} {run : Run} (holds : list.Holds entries)
    (member : (entry, run.item) ∈ entries) : (list.nodes entry).getRunLength = run.2 :=
  getRunLength_eq (holds.items _ member)

/-- The run changes its kind and absorbs what is left of its neighbours. -/
theorem gives_takeOver {copies number : Nat} {beforeRuns afterRuns : List Run}
    {entriesBefore entriesAfter : List DList.Entry} {length : Int}
    (holds : list.Holds (entriesBefore ++ (ref, [EMPTY, 1, NULL_HUNGER]) :: entriesAfter))
    (itemsBefore : entriesBefore.map Prod.snd = beforeRuns.map Run.item)
    (itemsAfter : entriesAfter.map Prod.snd = afterRuns.map Run.item)
    (trailing : Trailing newcomer.value left beforeRuns copies)
    (leading : Leading newcomer.value right afterRuns number)
    (total : length = (1 + copies + number : Nat)) :
    Gives (some (newcomer.takeOver list ref length)) (left ++ (emptyValue, 1) :: right)
      ((expand left).length + 0) newcomer.value := by
  refine ⟨_, _, rfl, ⟨_, holds_takeOver holds newcomer length, ?_⟩,
    replaced_single trailing leading⟩
  rw [map_append, map_cons, map_append, map_cons, itemsBefore, itemsAfter, total]
  rfl

/-- A run of one cell is replaced, and joined to its neighbours. -/
theorem EmptyRun.replaceRun (empty : EmptyRun list before after left right ref 1)
    (sound : newcomer.Sound) :
    Gives (newcomer.replaceRun list ref) (left ++ (emptyValue, 1) :: right)
      ((expand left).length + 0) newcomer.value := by
  have holds := empty.holds
  have maximalLeft := (maximal_append.mp empty.maximal).1
  have maximalRight := (maximal_cons.mp (maximal_append.mp empty.maximal).2.1).2.2
  rw [Newcomer.replaceRun, holds.getPrev_eq, holds.getNext_eq]
  simp only [bind_eq_bind, bind_some]
  rcases empty.prev sound with
    ⟨prevJoins, start, startRuns, prevRef, copies, rfl, rfl, startItems⟩ | ⟨prevJoins, trailing⟩
  · have prevLength := runLength_of_mem holds (mem_append_left _
      (mem_append_right start mem_cons_self))
    rw [lastRef_concat] at prevJoins ⊢
    rw [<- append_cons] at holds
    rcases holds.removeNode with ⟨withoutPrev, prevGone, -, held⟩
    rcases empty.next sound with
      ⟨nextJoins, rest, restRuns, nextRef, number, rfl, rfl, restItems⟩ | ⟨nextJoins, leading⟩
    · have nextLength := runLength_of_mem holds (mem_append_right start
        (mem_cons_of_mem _ (mem_cons_of_mem _ mem_cons_self)))
      rcases removeNext held with ⟨alone, nextGone, heldAlone⟩
      rw [firstRef_cons] at nextJoins
      simp only [prevJoins, nextJoins, bind_some, Bool.and_self, if_true, prevGone,
        held.getNext_eq, firstRef_cons, nextGone, prevLength, nextLength]
      exact gives_takeOver heldAlone startItems restItems (trailing_concat maximalLeft)
        (leading_cons maximalRight) (by simp)
    · simp only [prevJoins, nextJoins, bind_some, Bool.and_false, Bool.false_eq_true,
        if_false, if_true, prevGone, prevLength]
      exact gives_takeOver held startItems empty.after (trailing_concat maximalLeft)
        leading (by simp)
  · rcases empty.next sound with
      ⟨nextJoins, rest, restRuns, nextRef, number, rfl, rfl, restItems⟩ | ⟨nextJoins, leading⟩
    · have nextLength := runLength_of_mem holds (mem_append_right before
        (mem_cons_of_mem _ mem_cons_self))
      rcases removeNext holds with ⟨withoutNext, nextGone, held⟩
      rw [firstRef_cons] at nextJoins
      simp only [prevJoins, nextJoins, bind_some, Bool.and_true, Bool.false_eq_true,
        if_false, if_true, firstRef_cons, nextGone, nextLength]
      exact gives_takeOver held empty.before restItems trailing
        (leading_cons maximalRight) (by simp)
    · simp only [prevJoins, nextJoins, bind_some, Bool.and_false, Bool.false_eq_true,
        if_false]
      refine ⟨_, _, rfl, ⟨_, holds_setEntry (holds_setEntry holds 0 newcomer.type (by decide)) 2
        newcomer.hunger (by decide), ?_⟩, replaced_single trailing leading⟩
      rw [map_append, map_cons, map_append, map_cons, empty.before, empty.after]
      rfl

/-- The current run gives up a cell to a run that is put before or behind it. -/
theorem shorten_holds {content : Nat} (holds : list.Holds
      (before ++ (ref, [EMPTY, content, NULL_HUNGER]) :: after)) (positive : 0 < content) :
    (Newcomer.shorten list ref).Holds (before ++ (ref, Run.item (emptyValue, content - 1)) ::
      after) := by
  have held := holds_setRunLength holds fun length => length - 1
  rw [show (content : Int) - 1 = (content - 1 : Nat) by omega] at held
  exact held

section

variable (empty : EmptyRun list before after left right ref count)

include empty

/-- The cell goes to the run before, or to a new one. -/
theorem EmptyRun.insertAtStart (more : 1 < count) (sound : newcomer.Sound) :
    Gives (newcomer.insertAtStart list ref) (left ++ (emptyValue, count) :: right)
      ((expand left).length + 0) newcomer.value := by
  have holds := empty.holds
  have positive : 0 < count := Nat.lt_of_succ_lt more
  rw [Newcomer.insertAtStart, holds.getPrev_eq]
  simp only [bind_eq_bind, bind_some]
  rcases empty.prev sound with
    ⟨joins, start, startRuns, prevRef, copies, rfl, rfl, startItems⟩ | ⟨joins, trailing⟩
  · have trailing := trailing_concat (maximal_append.mp empty.maximal).1
    rw [lastRef_concat] at joins ⊢
    simp only [joins, bind_some, if_true]
    rw [<- append_cons] at holds
    have longer := holds_setRunLength holds fun length => 1 + length
    rw [append_cons] at longer
    refine ⟨_, _, rfl, ⟨_, shorten_holds longer positive, ?_⟩,
      replaced_first more sound.ne_empty empty.maximal trailing⟩
    simp only [map_append, map_cons, startItems, empty.after, append_assoc,
      cons_append, nil_append]
    simp [Run.item, Newcomer.value]
  · simp only [joins, bind_some, Bool.false_eq_true, if_false]
    have spare := holds.spare_allocate [newcomer.type, 1, newcomer.hunger]
    rcases (holds.allocate _).addBefore spare with ⟨result, added, -, held⟩
    rw [append_cons] at held
    refine ⟨_, _, ?_, ⟨_, shorten_holds held positive, ?_⟩,
      replaced_first more sound.ne_empty empty.maximal trailing⟩
    · show (DList.addBefore _ ref list.fresh).bind _ = _
      rw [added]
      rfl
    · simp only [map_append, map_cons, empty.before, empty.after, append_assoc,
        cons_append, nil_append]
      rfl

theorem EmptyRun.insertAtEnd (more : 1 < count) (sound : newcomer.Sound) :
    Gives (newcomer.insertAtEnd list ref) (left ++ (emptyValue, count) :: right)
      ((expand left).length + (count - 1)) newcomer.value := by
  have holds := empty.holds
  have positive : 0 < count := Nat.lt_of_succ_lt more
  have maximalRight := (maximal_cons.mp (maximal_append.mp empty.maximal).2.1).2.2
  rw [Newcomer.insertAtEnd, holds.getNext_eq]
  simp only [bind_eq_bind, bind_some]
  rcases empty.next sound with
    ⟨joins, rest, restRuns, nextRef, number, rfl, rfl, restItems⟩ | ⟨joins, leading⟩
  · rw [firstRef_cons] at joins ⊢
    simp only [joins, bind_some, if_true]
    rw [append_cons] at holds
    have longer := holds_setRunLength holds fun length => 1 + length
    rw [<- append_cons] at longer
    refine ⟨_, _, rfl, ⟨_, shorten_holds longer positive, ?_⟩,
      replaced_last more sound.ne_empty empty.maximal (leading_cons maximalRight)⟩
    simp only [map_append, map_cons, restItems, empty.before]
    simp [Run.item, Newcomer.value]
  · simp only [joins, bind_some, Bool.false_eq_true, if_false]
    have spare := holds.spare_allocate [newcomer.type, 1, newcomer.hunger]
    rcases (holds.allocate _).addAfter spare with ⟨result, added, -, held⟩
    refine ⟨_, _, ?_, ⟨_, shorten_holds held positive, ?_⟩,
      replaced_last more sound.ne_empty empty.maximal leading⟩
    · show (DList.addAfter _ ref list.fresh).bind _ = _
      rw [added]
      rfl
    · simp only [map_append, map_cons, empty.before, empty.after]
      rfl

/-- The run is split around the cell. -/
theorem EmptyRun.insertInside {offset : Nat} (inside : 0 < offset) (short : offset + 1 < count)
    (sound : newcomer.Sound) :
    Gives (newcomer.insertInside list ref (offset - count)) (left ++ (emptyValue, count) :: right)
      ((expand left).length + offset) newcomer.value := by
  have holds := empty.holds
  have firstLength : (count : Int) + (offset - count) = (offset : Nat) := by omega
  have secondLength : (count : Int) - (offset : Nat) - 1 = (count - offset - 1 : Nat) := by omega
  rw [Newcomer.insertInside, getRunLength_eq holds.item_eq, firstLength, secondLength]
  have holdsFirst := holds.allocate [EMPTY, offset, NULL_HUNGER]
  have firstSplit := (holds.spare_allocate [EMPTY, offset, NULL_HUNGER]).allocate
    [EMPTY, (count - offset - 1 : Nat), NULL_HUNGER]
  have secondSplit := holdsFirst.spare_allocate [EMPTY, (count - offset - 1 : Nat), NULL_HUNGER]
  have taken := holds_takeOver (holdsFirst.allocate
      [EMPTY, (count - offset - 1 : Nat), NULL_HUNGER])
    newcomer 1
  rcases taken.addBefore (spare_takeOver firstSplit newcomer 1 _) with
    ⟨withFirst, addedFirst, relinked, heldFirst⟩
  have secondStill := (spare_takeOver secondSplit newcomer 1
    [newcomer.type, 1, newcomer.hunger]).relinked relinked
    (list.fresh, [EMPTY, offset, NULL_HUNGER]) (Nat.succ_ne_self list.fresh)
  rw [append_cons] at heldFirst secondStill
  rcases heldFirst.addAfter secondStill with ⟨result, addedSecond, -, held⟩
  refine ⟨result, _, ?_, ⟨_, held, ?_⟩, replaced_middle inside short sound.ne_empty empty.maximal⟩
  · exact bind_eq_some_iff.mpr ⟨withFirst, addedFirst, addedSecond⟩
  · simp only [map_append, map_cons, empty.before, empty.after, append_assoc,
      cons_append, nil_append]
    rfl

end

theorem Lifelike.eq_emptyValue {value : Int × Int} (real : Lifelike value)
    (empty : value.1 = EMPTY) :
    value = emptyValue := by
  rcases real with ⟨creature, rfl⟩
  rw [Creature.content_fst, Creature.getType_eq_empty] at empty
  rw [empty]
  rfl

/-- The branches of the insertion, at any offset of an empty run. -/
theorem EmptyRun.insertInto (empty : EmptyRun list before after left right ref count)
    {offset : Nat} (within : offset < count) (sound : newcomer.Sound) :
    Gives (newcomer.insertInto list ref (restOf (emptyValue, count) offset))
      (left ++ (emptyValue, count) :: right) ((expand left).length + offset) newcomer.value := by
  have item := empty.holds.item_eq
  rw [Newcomer.insertInto, getRunType_eq item, getRunLength_eq item,
    if_neg fun different => different rfl]
  by_cases single : count = 1
  · cases single
    cases Nat.lt_one_iff.mp within
    rw [if_pos (show ((1 : Nat) : Int) = 1 from rfl)]
    exact empty.replaceRun sound
  · have more : 1 < count := by omega
    rw [if_neg (by omega)]
    by_cases atStart : offset = 0
    · cases atStart
      rw [if_pos (show restOf (emptyValue, count) 0 = 0 from rfl)]
      exact empty.insertAtStart more sound
    · have rest : restOf (emptyValue, count) offset = offset - count := if_neg atStart
      rw [rest, if_neg (by omega)]
      by_cases atEnd : offset + 1 = count
      · rw [if_pos (by omega), show offset = count - 1 by omega]
        exact empty.insertAtEnd more sound
      · rw [if_neg (by omega)]
        exact empty.insertInside (by omega) (by omega) sound

end

/-! ## The two methods -/

theorem Located.emptyRun {list : DList} {before after : List DList.Entry}
    {runs left right : List Run} {ref : Ref} {run : Run}
    (located : Located entries runs before after left right ref run)
    (stores : Stores list entries runs) (maximal : Maximal runs)
    (real : ∀ run, run ∈ runs -> Lifelike run.1) (empty : run.1 = emptyValue) :
    EmptyRun list before after left right ref run.2 := by
  rcases run with ⟨value, count⟩
  cases empty
  have holds := stores.holds
  rw [located.entries] at holds
  rw [located.runs] at maximal real
  exact ⟨holds, located.before, located.after, maximal,
    fun run member => real run (mem_append_left _ member),
    fun run member => real run (mem_append_right left (mem_cons_of_mem _ member))⟩

/-- Adding to the encoding is adding to the ocean. -/
theorem insert_encodes {encoding : RunLengthEncoding size} {ocean : Ocean size} {runs : List Run}
    (encodes : Encodes encoding.runs ocean runs) (quiet : encoding.Quiet) {newcomer : Newcomer}
    (sound : newcomer.Sound) {creature : Creature} (suits : creature.BredFor ocean.starveTime)
    (same : creature.content = newcomer.value) (x y : Int) :
    ∃ result runsAfter, encoding.insert newcomer x y = some result ∧
      result.starveTime = encoding.starveTime ∧
      Encodes result.runs (ocean.add x y creature suits) runsAfter ∧ result.Quiet := by
  rcases encodes.stored with ⟨entries, stores⟩
  have within : target size x y < (expand runs).length := by
    rw [encodes.expanded, length_contents]
    exact target_lt x y
  rcases findRun_eq stores encodes.maximal.positive within with
    ⟨before, after, left, right, ref, run, offset, located, short, position, found⟩
  have real := encodes.lifelike run (by
    rw [located.runs]
    exact mem_append_right left mem_cons_self)
  have content : (ocean.cell (target size x y)).content = run.1 := by
    have here := ocean.contents_getElem? (target_lt x y)
    rw [<- encodes.expanded, located.runs, position, expand_getElem? short] at here
    rw [position]
    exact (some.inj here).symm
  have inserted : ∃ list runsAfter,
      newcomer.insertInto encoding.runs ref (restOf run offset) = some list ∧
      Encodes list (ocean.add x y creature suits) runsAfter := by
    by_cases empty : run.1 = emptyValue
    · have free : ocean.cell (target size x y) = .empty :=
        Creature.content_eq_empty.mp (content.trans empty)
      have emptyRun := located.emptyRun stores encodes.maximal encodes.lifelike empty
      rcases emptyRun.insertInto short sound with ⟨list, runsAfter, done, stored, replaced⟩
      rw [<- empty] at done replaced
      refine ⟨list, runsAfter, done, stored, replaced.maximal, ?_⟩
      rw [replaced.expanded, contents_add, if_pos free, same, <- encodes.expanded, located.runs,
        position]
    · have occupied : run.1.1 ≠ EMPTY := fun type => empty (Lifelike.eq_emptyValue real type)
      have holds := stores.holds
      rw [located.entries] at holds
      refine ⟨encoding.runs, runs, ?_, encodes.stored, encodes.maximal, ?_⟩
      · rw [Newcomer.insertInto, getRunType_eq holds.item_eq, if_pos occupied]
      · rw [encodes.expanded, contents_add, if_neg]
        intro free
        exact empty (content.symm.trans (Creature.content_eq_empty.mpr free))
  rcases inserted with ⟨list, runsAfter, done, encodesAfter⟩
  rcases checked_eq encoding encodesAfter with ⟨printed, checkedRuns, quietNow⟩
  refine ⟨{ encoding with runs := list, printed := encoding.printed ++ printed },
    runsAfter, ?_, rfl,
    encodesAfter, ?_⟩
  · rw [RunLengthEncoding.insert, getEncodedPosition_eq, found, bind_eq_bind, bind_some]
    show (newcomer.insertInto encoding.runs ref (restOf run offset)).bind _ = _
    rw [done]
    exact checkedRuns
  · intro code member
    rcases mem_append.mp member with earlier | now
    · exact quiet code earlier
    · exact quietNow code now

end RunLengthEncoding

end SharksAndFish
end Codebank
