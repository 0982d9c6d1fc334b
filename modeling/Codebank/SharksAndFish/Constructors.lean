import Codebank.SharksAndFish.Refinement

namespace Codebank
namespace SharksAndFish

open Ocean Foundation.RunLength List Option

/-!
# Two ways to encode an empty ocean

The constructor with three parameters makes the one run of an empty ocean itself, and its item
has no entry for the hunger.  Reading the runs never asks for that entry, but the check at the
end of both inserting methods reads it of every run.
-/

inductive Operation where
  | addFish (x y : Int)
  | addShark (x y : Int)
  | restartRuns
  | nextRun
  | toOcean

namespace Operation

/-- The operations that insert nothing. -/
def reads : Operation -> Bool
  | addFish _ _ => false
  | addShark _ _ => false
  | _ => true

end Operation

/-- What a method returns. -/
inductive Answer (size : Size) where
  | done
  | run (run : Option (List Int))
  | ocean (ocean : Ocean size)

namespace RunLengthEncoding

variable {size : Size}

/-- The constructor with three parameters.  It does not check what it made. -/
def new (size : Size) (starveTime : Int) : Option (RunLengthEncoding size) := do
  let (list, emptyOceanNode) := DList.new.allocate [EMPTY, size.width * size.height]
  let runs <- list.addLast emptyOceanNode
  some ⟨starveTime, runs, []⟩

/-- The answer to an operation, and the encoding afterwards; none if it throws. -/
def operate (encoding : RunLengthEncoding size) :
    Operation -> Option (Answer size × RunLengthEncoding size)
  | .addFish x y => (encoding.addFish x y).map fun after => (.done, after)
  | .addShark x y => (encoding.addShark x y).map fun after => (.done, after)
  | .restartRuns => some (.done, encoding.restartRuns)
  | .nextRun => encoding.nextRun.map fun result => (.run result.1, result.2)
  | .toOcean => encoding.toOcean.map fun ocean => (.ocean ocean, encoding)

/-- The answers to some operations in a row; none if one of them throws. -/
def answers : List Operation -> RunLengthEncoding size -> Option (List (Answer size))
  | [], _ => some []
  | operation :: rest, encoding => do
      let (answer, after) <- encoding.operate operation
      let more <- answers rest after
      some (answer :: more)

variable {encoding : RunLengthEncoding size}

theorem answers_cons {after : RunLengthEncoding size} {operation : Operation} {answer : Answer size}
    (done : encoding.operate operation = some (answer, after)) (rest : List Operation) :
    encoding.answers (operation :: rest) = (after.answers rest).map (List.cons answer) := by
  rw [answers, done]
  show (after.answers rest).bind (fun more => some (answer :: more)) = _
  cases after.answers rest <;> rfl

/-! ## The enumeration has not begun -/

/-- No run has been returned. -/
structure AtStart (list : DList) : Prop where
  tracker : list.runTracker = some list.sentinel
  returned : list.numRunsReturned = 0

variable {ref : Ref}

/-- The tracker stays at the start of a growing list. -/
theorem AtStart.addLast {list after : DList} (start : AtStart list)
    (added : list.addLast ref = some after) : AtStart after := by
  rw [DList.addLast] at added
  rcases bind_eq_some_iff.mp added with ⟨last, _, same⟩
  rw [<- some.inj same]
  exact ⟨start.tracker, start.returned⟩

theorem AtStart.flush {scan : Scan} {after : DList} (start : AtStart scan.runs)
    (flushed : scan.flush = some after) : AtStart after := by
  have allocated : AtStart (scan.runs.allocate
      [scan.currEncodeType, scan.currEncodeLength, scan.currSharkHunger]).1 :=
    ⟨start.tracker, start.returned⟩
  exact allocated.addLast flushed

variable {sea : Ocean size}

theorem AtStart.see {scan after : Scan} {int : Int -> Int} {content : Int × Int}
    (start : AtStart scan.runs) (seen : scan.see int content = some after) :
    AtStart after.runs := by
  rw [scan.see_eq] at seen
  split_ifs at seen with same
  · rw [<- some.inj seen]
    exact start
  · rcases map_eq_some_iff.mp seen with ⟨runs, flushed, rfl⟩
    exact start.flush flushed

theorem AtStart.foldlM_see {start scan : Scan} {int : Int -> Int} {contents : List (Int × Int)}
    (begun : AtStart start.runs) (seen : contents.foldlM (Scan.see int) start = some scan) :
    AtStart scan.runs := by
  induction contents generalizing start with
  | nil =>
    rw [<- some.inj seen]
    exact begun
  | cons content contents ih =>
    rw [foldlM_cons] at seen
    rcases bind_eq_some_iff.mp seen with ⟨next, first, later⟩
    exact ih (begun.see first) later

theorem atStart_ofOcean (made : ofOcean sea = some encoding) : AtStart encoding.runs := by
  rw [ofOcean] at made
  rcases bind_eq_some_iff.mp made with ⟨feeding, _, made⟩
  rcases bind_eq_some_iff.mp made with ⟨scan, scanned, made⟩
  rcases bind_eq_some_iff.mp made with ⟨list, finished, made⟩
  rcases bind_eq_some_iff.mp made with ⟨printed, _, made⟩
  rw [foldlM_scanCell] at scanned
  have begun : AtStart scan.runs := AtStart.foldlM_see ⟨rfl, rfl⟩ scanned
  rw [<- some.inj made]
  rw [Scan.finish] at finished
  split_ifs at finished
  · exact begun.flush finished
  · rw [<- some.inj finished]
    exact begun

/-! ## Encodings of an empty ocean -/

/-- The encoding has one run, of empty cells, whose item may have more entries than the type and
the length.  The flag tells whether the enumeration has returned the run. -/
structure Blank (encoding : RunLengthEncoding size) (starveTime : Int) (further : List Int)
    (returned : Bool) : Prop where
  held : ∃ ref, encoding.runs.Holds [(ref, EMPTY :: (size.area : Int) :: further)]
  starveTime : encoding.starveTime = starveTime
  tracker : encoding.runs.runTracker = some encoding.runs.sentinel
  returned : encoding.runs.numRunsReturned = if returned then 1 else 0

theorem new_blank (size : Size) (starveTime : Int) :
    ∃ encoding, new size starveTime = some encoding ∧ encoding.Blank starveTime [] false := by
  have holds := DList.holds_new
  rcases (holds.allocate _).addLast
    (holds.spare_allocate [EMPTY, (size.width : Int) * size.height]) with ⟨list, added, _, held⟩
  have allocated : AtStart (DList.new.allocate [EMPTY, (size.width : Int) * size.height]).1 :=
    ⟨rfl, rfl⟩
  have start := allocated.addLast added
  refine ⟨⟨starveTime, list, []⟩, ?_, ⟨DList.new.fresh, ?_⟩, rfl, start.tracker, start.returned⟩
  · rw [new]
    exact bind_eq_some_iff.mpr ⟨list, added, rfl⟩
  · rw [Size.area, Int.natCast_mul]
    exact held

/-- The ocean without creatures is one run. -/
theorem maximal_blank (size : Size) : Maximal [(emptyValue, size.area)] :=
  maximal_singleton size.area_pos

theorem contents_new (size : Size) (starveTime : Int) :
    (Ocean.new size starveTime).contents = replicate size.area emptyValue := by
  rw [eq_replicate_iff]
  refine ⟨length_contents _, fun value member => ?_⟩
  rcases List.mem_map.mp member with ⟨position, _, rfl⟩
  rfl

theorem ofOcean_blank (size : Size) (starveTime : Int) :
    ∃ encoding, ofOcean (Ocean.new size starveTime) = some encoding ∧
      encoding.Blank starveTime [NULL_HUNGER] false := by
  rcases ofOcean_encodes (Ocean.new size starveTime) with
    ⟨encoding, runs, made, sameTime, encodes, _⟩
  have one : runs = [(emptyValue, size.area)] := by
    refine encodes.maximal.unique (maximal_blank size) ?_
    rw [encodes.expanded, contents_new]
    simp
  subst one
  have start := atStart_ofOcean made
  rcases encodes.stored with ⟨entries, holds, items⟩
  refine ⟨encoding, made, ?_, sameTime, start.tracker, start.returned⟩
  rcases map_eq_singleton_iff.mp items with ⟨⟨ref, content⟩, rfl, same⟩
  refine ⟨ref, ?_⟩
  cases same
  exact holds

/-! ## Reading -/

/-- What an encoding of an empty ocean answers, and whether its run has been returned then. -/
def blankAnswer (size : Size) (starveTime : Int) (returned : Bool) :
    Operation -> Answer size × Bool
  | .restartRuns => (.done, false)
  | .nextRun => (.run (if returned then none else some [EMPTY, size.area]), true)
  | .toOcean => (.ocean (Ocean.new size starveTime), returned)
  | _ => (.done, returned)

section

variable {encoding : RunLengthEncoding size} {starveTime : Int} {further : List Int}
  {returned : Bool}

section

variable (blank : encoding.Blank starveTime further returned)

include blank

theorem Blank.restartRuns : encoding.restartRuns.Blank starveTime further false := by
  rcases blank.held with ⟨ref, holds⟩
  exact ⟨⟨ref, holds.ring, holds.items, holds.sentinelItem, holds.allocated, holds.size⟩,
    blank.starveTime, rfl, rfl⟩

theorem Blank.nextRun :
    ∃ after, encoding.nextRun =
        some (if returned then none else some [EMPTY, (size.area : Int)], after) ∧
      after.Blank starveTime further true := by
  rcases blank.held with ⟨ref, holds⟩
  cases returned with
  | true =>
    have enumerating : Enumerating encoding.runs [(ref, EMPTY :: (size.area : Int) :: further)]
        [] :=
      ⟨holds, blank.returned, blank.tracker⟩
    refine ⟨encoding, ?_, blank⟩
    rw [RunLengthEncoding.nextRun, enumerating.finished]
    rfl
  | false =>
    have enumerating : Enumerating encoding.runs []
        [(ref, EMPTY :: (size.area : Int) :: further)] :=
      ⟨holds, blank.returned, blank.tracker⟩
    rcases enumerating.nextRun with ⟨after, done, behind⟩
    refine ⟨{ encoding with runs := after }, ?_, ⟨ref, behind.holds⟩, blank.starveTime,
      behind.tracker, behind.returned⟩
    rw [RunLengthEncoding.nextRun, done]
    rfl

/-- A blank encoding decodes to an empty ocean. -/
theorem Blank.toOcean : encoding.toOcean = some (Ocean.new size starveTime) := by
  rcases blank.held with ⟨ref, holds⟩
  have item : (encoding.runs.nodes ref).item = EMPTY :: (size.area : Int) :: further :=
    holds.items _ mem_cons_self
  have alone : encoding.runs.Holds ([] ++ (ref, EMPTY :: (size.area : Int) :: further) :: []) :=
    holds
  have next : encoding.runs.getNext ref = some encoding.runs.sentinel := alone.getNext_eq
  have type : (encoding.runs.nodes ref).getRunType = EMPTY := by
    rw [DListNode.getRunType, item]
    rfl
  have length : (encoding.runs.nodes ref).getRunLength = size.area := by
    rw [DListNode.getRunLength, item]
    rfl
  have placed : Placed size (⟨Ocean.new size starveTime, 0 + size.area, 0⟩ : Drawing (Ocean size))
      size.area := ⟨by simp only; omega, Int.le_refl 0, by simp only; omega⟩
  rcases skipRows_eq (Canvas.value_draws size) (((0 : Int) + size.area).toNat + 1) placed
    (Nat.le_refl _) (by simp only; omega) with ⟨after, skipped, same, _⟩
  rw [RunLengthEncoding.toOcean, holds.getFirst_eq, holds.size, bind_eq_bind,
    bind_some]
  show (((Drawing.drawRun (.value size) (encoding.runs.nodes ref) _).bind fun after =>
    (encoding.runs.getNext ref).bind fun _ => some after).bind fun drawing =>
      some drawing.ocean) = _
  have moved : Drawing.skip (.value size) ⟨Ocean.new size starveTime, 0, 0⟩ size.area =
      some after :=
    skipped
  rw [Drawing.drawRun, if_pos type, length, blank.starveTime, moved, bind_some, next, bind_some,
    bind_some, same]

/-- Reading does not depend on further entries of the item. -/
theorem Blank.operate {operation : Operation} (reading : operation.reads = true) :
    ∃ after, encoding.operate operation =
        some ((blankAnswer size starveTime returned operation).1, after) ∧
      after.Blank starveTime further (blankAnswer size starveTime returned operation).2 := by
  cases operation with
  | addFish x y | addShark x y => cases reading
  | restartRuns => exact ⟨encoding.restartRuns, rfl, blank.restartRuns⟩
  | nextRun =>
    rcases blank.nextRun with ⟨after, done, blankAfter⟩
    exact ⟨after, by rw [RunLengthEncoding.operate, done]; rfl, blankAfter⟩
  | toOcean =>
    exact ⟨encoding, by rw [RunLengthEncoding.operate, blank.toOcean]; rfl, blank⟩

theorem Blank.answers_eq {second : RunLengthEncoding size} {furtherToo : List Int}
    (blankToo : second.Blank starveTime furtherToo returned) {operations : List Operation}
    (reading : ∀ operation, operation ∈ operations -> operation.reads = true) :
    ∃ results, encoding.answers operations = some results ∧
      second.answers operations = some results := by
  induction operations generalizing encoding second returned with
  | nil => exact ⟨[], rfl, rfl⟩
  | cons operation operations ih =>
    have reads := reading operation mem_cons_self
    rcases blank.operate reads with ⟨after, done, blankAfter⟩
    rcases blankToo.operate reads with ⟨afterToo, doneToo, blankAfterToo⟩
    rcases ih blankAfter blankAfterToo fun other member =>
      reading other (mem_cons_of_mem _ member) with ⟨results, first, second⟩
    refine ⟨(blankAnswer size starveTime returned operation).1 :: results, ?_, ?_⟩
    · rw [answers_cons done, first]
      rfl
    · rw [answers_cons doneToo, second]
      rfl

end

end

/-! ## Inserting -/

variable {creature : Creature} {length : Int} {list : DList}

/-- A run of cells whose item has no hunger makes the check fail. -/
theorem wrongHunger_short {node : DListNode} (item : node.item = [creature.getType, length]) :
    wrongHunger node = none := by
  have type : node.getRunType = creature.getType := by
    rw [DListNode.getRunType, item]
    rfl
  have hunger : node.getRunHunger = none := by
    rw [DListNode.getRunHunger, item]
    rfl
  rw [wrongHunger, type, hunger]
  cases creature <;> rfl

theorem checkRuns_fails {currRun nextRun : Ref} {remaining : Nat}
    (next : list.getNext currRun = some nextRun) (fails : wrongHunger (list.nodes currRun) = none ∨
      ∀ cells, checkRuns list remaining nextRun cells = none) (numCells : Int) :
    checkRuns list (remaining + 1) currRun numCells = none := by
  rw [checkRuns, next]
  rcases fails with here | later
  · simp [here]
  · simp [later]

/-- A run without hunger makes the check throw. -/
theorem checkRuns_short {passed left right : List DList.Entry}
    (holds : list.Holds (passed ++ (left ++ (ref, [creature.getType, length]) :: right)))
    (numCells : Int) :
    checkRuns list (left ++ (ref, [creature.getType, length]) :: right).length
      (list.firstRef (left ++ (ref, [creature.getType, length]) :: right)) numCells = none := by
  induction left generalizing passed numCells with
  | nil =>
    exact checkRuns_fails holds.getNext_eq (.inl (wrongHunger_short holds.item_eq)) numCells
  | cons entry left ih =>
    rcases entry with ⟨current, content⟩
    have later : list.Holds ((passed ++ [(current, content)]) ++
        (left ++ (ref, [creature.getType, length]) :: right)) := by
      rwa [append_assoc]
    exact checkRuns_fails holds.getNext_eq (.inr fun cells => ih later cells) numCells

theorem checked_short {left right : List DList.Entry} (encoding : RunLengthEncoding size)
    (holds : list.Holds (left ++ (ref, [creature.getType, length]) :: right)) :
    encoding.checked list = none := by
  have held : list.Holds ([] ++ (left ++ (ref, [creature.getType, length]) :: right)) := holds
  have fails : check size list = none := by
    rw [check, checkCells, holds.getFirst_eq, holds.size, Int.toNat_natCast, bind_eq_bind,
      bind_some, checkRuns_short held 0]
    rfl
  rw [checked, fails]
  rfl

theorem item_setEntry (node : DListNode) (index : Nat) (entry : Int) :
    (node.setEntry index entry).item = node.item.set index entry := by
  rw [DListNode.setEntry]
  split_ifs with within
  · rfl
  · exact (set_eq_of_length_le (by omega)).symm

section

variable {list : DList} {left right : List DList.Entry} {ref : Ref} {content : List Int}

theorem holds_set (holds : list.Holds (left ++ (ref, content) :: right)) (index : Nat)
    (entry : Int) :
    (list.change ref fun node => node.setEntry index entry).Holds
      (left ++ (ref, content.set index entry) :: right) := by
  refine holds.change (fun node => setEntry_next node index entry)
    (fun node => setEntry_prev node index entry) fun node known => ?_
  rw [item_setEntry, known]

variable {length : Int} {newcomer : Newcomer}

theorem holds_shorten (holds : list.Holds (left ++ (ref, [EMPTY, length]) :: right)) :
    (Newcomer.shorten list ref).Holds (left ++ (ref, [EMPTY, length - 1]) :: right) := by
  refine holds.change (fun node => setEntry_next node 1 _) (fun node => setEntry_prev node 1 _) ?_
  intro node known
  rw [DListNode.setRunLength, item_setEntry, DListNode.getRunLength, known]
  rfl

/-- The one run of the list has an item without hunger. -/
def OnlyShort (list : DList) (ref : Ref) (length : Int) : Prop :=
  list.Holds ([] ++ (ref, [EMPTY, length]) :: [])

/-- Some run of the list has an item without hunger. -/
def SomeShort (list : DList) : Prop :=
  ∃ left right ref, ∃ creature : Creature, ∃ length,
    list.Holds (left ++ (ref, [creature.getType, length]) :: right)

theorem OnlyShort.joins (short : OnlyShort list ref length) (sound : newcomer.Sound) :
    newcomer.joins (list.nodes list.sentinel) = some false := by
  have item : (list.nodes list.sentinel).item = [nullValue.1, NULL_LENGTH, nullValue.2] :=
    short.sentinelItem
  rw [sound.joins item (.inr rfl), decide_eq_false sound.real.ne_null.symm]

variable {creature : Creature}

open DList.Holds (getNext_eq allocate spare_allocate item_eq)

theorem OnlyShort.replaceRun (short : OnlyShort list ref length) (sound : newcomer.Sound)
    (kind : newcomer.type = creature.getType) :
    ∃ after, newcomer.replaceRun list ref = some after ∧ SomeShort after := by
  have prev : list.getPrev ref = some list.sentinel := DList.Holds.getPrev_eq short
  have next : list.getNext ref = some list.sentinel := getNext_eq short
  have apart := short.joins sound
  have held := holds_set (holds_set short 0 newcomer.type) 2 newcomer.hunger
  rw [kind] at held
  refine ⟨_, ?_, [], [], ref, creature, length, held⟩
  rw [Newcomer.replaceRun, prev, bind_eq_bind, bind_some, next,
    bind_eq_bind, bind_some, apart, kind]
  rfl

theorem OnlyShort.insertAtStart (short : OnlyShort list ref length) (sound : newcomer.Sound) :
    ∃ after, newcomer.insertAtStart list ref = some after ∧ SomeShort after := by
  have prev : list.getPrev ref = some list.sentinel := DList.Holds.getPrev_eq short
  rcases (allocate short [newcomer.type, 1, newcomer.hunger]).addBefore
    (spare_allocate short [newcomer.type, 1, newcomer.hunger]) with
    ⟨after, added, _, holds⟩
  have behind : after.Holds ([(list.fresh, [newcomer.type, 1, newcomer.hunger])] ++
    (ref, [EMPTY, length]) :: []) := holds
  refine ⟨Newcomer.shorten after ref, ?_, _, [], ref, .empty, length - 1, holds_shorten behind⟩
  rw [Newcomer.insertAtStart, prev, bind_eq_bind, bind_some, short.joins sound]
  show ((list.allocate _).1.addBefore ref list.fresh).bind _ = _
  rw [added]
  rfl

theorem OnlyShort.insertAtEnd (short : OnlyShort list ref length) (sound : newcomer.Sound) :
    ∃ after, newcomer.insertAtEnd list ref = some after ∧ SomeShort after := by
  have next : list.getNext ref = some list.sentinel := getNext_eq short
  rcases (allocate short [newcomer.type, 1, newcomer.hunger]).addAfter
    (spare_allocate short [newcomer.type, 1, newcomer.hunger]) with
    ⟨after, added, _, holds⟩
  refine ⟨Newcomer.shorten after ref, ?_, [], _, ref, .empty, length - 1, holds_shorten holds⟩
  rw [Newcomer.insertAtEnd, next, bind_eq_bind, bind_some, short.joins sound]
  show ((list.allocate _).1.addAfter ref list.fresh).bind _ = _
  rw [added]
  rfl

theorem OnlyShort.insertInside (short : OnlyShort list ref length)
    (kind : newcomer.type = creature.getType) (encodedPosition : Int) :
    ∃ after, newcomer.insertInside list ref encodedPosition = some after ∧
      SomeShort after := by
  have known : (list.nodes ref).getRunLength = length := by
    rw [DListNode.getRunLength, show (list.nodes ref).item = [EMPTY, length] from
      item_eq short]
    rfl
  rw [Newcomer.insertInside, known]
  generalize length - (length + encodedPosition) - 1 = secondSplitLength
  generalize length + encodedPosition = firstSplitLength
  have holdsFirst := allocate short [EMPTY, firstSplitLength, NULL_HUNGER]
  have firstSplit := (spare_allocate short
    [EMPTY, firstSplitLength, NULL_HUNGER]).allocate [EMPTY, secondSplitLength, NULL_HUNGER]
  have secondSplit := holdsFirst.spare_allocate [EMPTY, secondSplitLength, NULL_HUNGER]
  have taken : (newcomer.takeOver _ ref 1).Holds ([] ++ (ref, [newcomer.type, 1]) :: []) :=
    holds_set (holds_set (holds_set (holdsFirst.allocate
      [EMPTY, secondSplitLength, NULL_HUNGER]) 0 newcomer.type) 1 1) 2 newcomer.hunger
  rcases taken.addBefore (spare_takeOver firstSplit newcomer 1 _) with
    ⟨withFirst, addedFirst, relinked, heldFirst⟩
  have secondStill := (spare_takeOver secondSplit newcomer 1 [newcomer.type, 1]).relinked relinked
    (list.fresh, [EMPTY, firstSplitLength, NULL_HUNGER]) (Nat.succ_ne_self list.fresh)
  rw [append_cons] at heldFirst secondStill
  rcases heldFirst.addAfter secondStill with ⟨result, addedSecond, -, held⟩
  rw [kind] at held
  exact ⟨result, bind_eq_some_iff.mpr ⟨withFirst, addedFirst, addedSecond⟩, _, _, ref,
    creature, 1, held⟩

/-- Adding to a run without hunger leaves one behind. -/
theorem OnlyShort.insertInto (short : OnlyShort list ref length) (sound : newcomer.Sound)
    (encodedPosition : Int) :
    ∃ after, newcomer.insertInto list ref encodedPosition = some after ∧
      SomeShort after := by
  rcases sound.real with ⟨creature, same⟩
  have kind : newcomer.type = creature.getType := by
    rw [<- Creature.content_fst, same]
    rfl
  have isEmpty : (list.nodes ref).getRunType = EMPTY := by
    rw [DListNode.getRunType, show (list.nodes ref).item = [EMPTY, length] from
      item_eq short]
    rfl
  rw [Newcomer.insertInto, if_neg (not_not.mpr isEmpty)]
  split_ifs
  · exact short.replaceRun sound kind
  · exact short.insertAtStart sound
  · exact short.insertAtEnd sound
  · exact short.insertInside kind encodedPosition

/-- The one run is found. -/
theorem OnlyShort.findRun (short : OnlyShort list ref length) {position : Int}
    (nonnegative : 0 <= position) (within : position < length) :
    ∃ rest, RunLengthEncoding.findRun list position = some (rest, ref) := by
  have first : list.getFirst = some ref := DList.Holds.getFirst_eq short
  have next : list.getNext ref = some list.sentinel := getNext_eq short
  have last : list.getPrev list.sentinel = some ref := short.ring.last_eq
  have known : (list.nodes ref).getRunLength = length := by
    rw [DListNode.getRunLength, show (list.nodes ref).item = [EMPTY, length] from
      item_eq short]
    rfl
  rw [RunLengthEncoding.findRun, first, bind_eq_bind, bind_some]
  by_cases more : position > 0
  · have rounds : position.toNat = position.toNat - 1 + 1 := by omega
    have walked : walk list (position.toNat + 1) position ref =
        some (position - length, list.sentinel) := by
      rw [walk, if_pos more, next, known, rounds, bind_eq_bind, bind_some, walk,
        if_neg (by omega)]
    refine ⟨position - length, ?_⟩
    rw [walked]
    show (if position - length < 0 then _ else _) = _
    rw [if_pos (by omega), last]
    rfl
  · refine ⟨position, ?_⟩
    rw [walk, if_neg more]
    show (if position < 0 then _ else _) = _
    rw [if_neg (by omega)]

end

variable {starveTime : Int} {returned : Bool}

/-- On an encoding made by the constructor with three parameters nothing can be inserted. -/
theorem Blank.insert (blank : encoding.Blank starveTime [] returned) {newcomer : Newcomer}
    (sound : newcomer.Sound) (x y : Int) : encoding.insert newcomer x y = none := by
  rcases blank.held with ⟨ref, holds⟩
  have short : OnlyShort encoding.runs ref size.area := holds
  have within : (target size x y : Int) < size.area := Int.ofNat_lt.mpr (target_lt x y)
  rcases short.findRun (Int.natCast_nonneg (target size x y)) within with ⟨rest, found⟩
  rcases short.insertInto sound rest with ⟨after, inserted, left, right, other, creature,
    length, held⟩
  rw [RunLengthEncoding.insert, getEncodedPosition_eq, found, bind_eq_bind,
    bind_some]
  show (newcomer.insertInto encoding.runs ref rest).bind _ = none
  rw [inserted, bind_some]
  exact checked_short encoding held

theorem Blank.answers_none (blank : encoding.Blank starveTime [] returned)
    {operations : List Operation}
    (inserting : ∃ operation, operation ∈ operations ∧ operation.reads = false) :
    encoding.answers operations = none := by
  induction operations generalizing encoding returned with
  | nil =>
    rcases inserting with ⟨_, member, _⟩
    exact absurd member not_mem_nil
  | cons operation operations ih =>
    cases reading : operation.reads with
    | false =>
      have throws : encoding.operate operation = none := by
        cases operation with
        | addFish x y =>
          rw [RunLengthEncoding.operate, addFish, blank.insert Newcomer.fish_sound]
          rfl
        | addShark x y =>
          rw [RunLengthEncoding.operate, addShark, blank.insert (Newcomer.shark_sound _)]
          rfl
        | restartRuns | nextRun | toOcean => cases reading
      rw [answers, throws]
      rfl
    | true =>
      rcases blank.operate reading with ⟨after, done, blankAfter⟩
      have later : ∃ operation, operation ∈ operations ∧ operation.reads = false := by
        rcases inserting with ⟨other, member, inserts⟩
        rcases mem_cons.mp member with rfl | member
        · rw [reading] at inserts
          cases inserts
        · exact ⟨other, member, inserts⟩
      rw [answers_cons done, ih blankAfter later]
      rfl

/-- For an ocean whose cells an `int` can count, the two encodings give the same answers, and throw
nothing, in exactly the sequences of operations that insert no creature. -/
theorem same_answers_iff_reading {width height : Nat} (wide : 0 < width) (high : 0 < height)
    (countable : width * height < 2 ^ 31) (starveTime : Int) (operations : List Operation) :
    ∃ first second, new ⟨width, height, wide, high, countable⟩ starveTime = some first ∧
      ofOcean (Ocean.new ⟨width, height, wide, high, countable⟩ starveTime) = some second ∧
      ((∃ results, first.answers operations = some results ∧
          second.answers operations = some results) <->
        ∀ operation, operation ∈ operations -> operation.reads = true) := by
  rcases new_blank ⟨width, height, wide, high, countable⟩ starveTime with ⟨first, made, blank⟩
  rcases ofOcean_blank ⟨width, height, wide, high, countable⟩ starveTime with
    ⟨second, madeToo, blankToo⟩
  refine ⟨first, second, made, madeToo, ?_, fun reading => blank.answers_eq blankToo reading⟩
  rintro ⟨results, answered, _⟩ operation member
  by_contra inserts
  have throws := blank.answers_none ⟨operation, member, Bool.eq_false_of_not_eq_true inserts⟩
  rw [throws] at answered
  cases answered

/-- Reading a blank ocean of three by two cells, and starting over. -/
theorem same_answers_iff_reading_blank :
    ∃ first second : RunLengthEncoding ⟨3, 2, by decide, by decide, by decide⟩, ∃ results,
      new ⟨3, 2, by decide, by decide, by decide⟩ 4 = some first ∧
      ofOcean (Ocean.new ⟨3, 2, by decide, by decide, by decide⟩ 4) = some second ∧
      first.answers [.nextRun, .nextRun, .toOcean, .restartRuns, .nextRun] = some results ∧
      second.answers [.nextRun, .nextRun, .toOcean, .restartRuns, .nextRun] = some results := by
  rcases same_answers_iff_reading (show 0 < 3 by decide) (show 0 < 2 by decide) (by decide) 4
    [.nextRun, .nextRun, .toOcean, .restartRuns, .nextRun] with
    ⟨first, second, made, madeToo, same⟩
  rcases same.mpr (by decide) with ⟨results, answered, answeredToo⟩
  exact ⟨first, second, results, made, madeToo, answered, answeredToo⟩

def oneCell : Size where
  width := 1
  height := 1
  width_pos := Nat.one_pos
  height_pos := Nat.one_pos
  area_lt := by decide

/-- A fish is added to an ocean of one cell. -/
theorem addFish_throws :
    ((new oneCell 3).bind (answers [.addFish 0 0])).isNone = true ∧
      ((ofOcean (Ocean.new oneCell 3)).bind (answers [.addFish 0 0])).isSome = true := by
  decide +kernel

end RunLengthEncoding

end SharksAndFish
end Codebank
