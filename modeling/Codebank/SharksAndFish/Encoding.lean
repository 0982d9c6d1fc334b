import Codebank.Foundation.RunLength
import Codebank.SharksAndFish.RunLengthEncoding

namespace Codebank
namespace SharksAndFish

open Ocean Foundation.RunLength List Option

/-!
# What an encoding stands for

An encoding of an ocean stores maximal runs that expand to the contents of its
cells.  The consistency check then reads only what exists, and finds nothing to
complain about but sharks with a negative hunger; the constructor makes such an
encoding of every ocean.
-/

/-- Type and hunger of the cells of a run, and its length. -/
abbrev Run := (Int × Int) × Nat

def Run.item (run : Run) : List Int :=
  [run.1.1, run.2, run.1.2]

namespace DListNode

variable {node : DListNode} {type length hunger : Int}

section

variable (known : node.item = [type, length, hunger])

include known

theorem getRunType_eq : node.getRunType = type := by
  rw [getRunType, known]
  rfl

theorem getRunLength_eq : node.getRunLength = length := by
  rw [getRunLength, known]
  rfl

theorem getRunHunger_eq : node.getRunHunger = some hunger := by
  rw [getRunHunger, known]
  rfl

end

end DListNode

variable {runs : List Run} {value : Int × Int} {list : DList}

/-- The contents that a cell can have. -/
def Lifelike (value : Int × Int) : Prop :=
  ∃ creature : Creature, creature.content = value

/-- Type and hunger in the item of the sentinel. -/
def nullValue : Int × Int := (NULL_TYPE, NULL_HUNGER)

theorem Lifelike.ne_null (real : Lifelike value) : value ≠ nullValue := by
  rcases real with ⟨creature, rfl⟩
  cases creature <;> simp [Creature.content, nullValue, EMPTY, FISH, SHARK, NULL_TYPE]

/-- Type and hunger of the node behind a position: those of the next run or of the
sentinel. -/
def firstValue (runs : List Run) : Int × Int :=
  (runs.head?.map Prod.fst).getD nullValue

def lastValue (runs : List Run) : Int × Int :=
  (runs.getLast?.map Prod.fst).getD nullValue

/-- The items of the list are these runs. -/
structure Stores (list : DList) (entries : List DList.Entry) (runs : List Run) : Prop where
  holds : list.Holds entries
  items : entries.map Prod.snd = runs.map Run.item

theorem item_firstRef {left right : List DList.Entry} (holds : list.Holds (left ++ right))
    (items : right.map Prod.snd = runs.map Run.item) :
    ∃ length, (list.nodes (list.firstRef right)).item =
      [(firstValue runs).1, length, (firstValue runs).2] := by
  have item := holds.item_firstRef
  rw [items] at item
  cases runs with
  | nil => exact ⟨NULL_LENGTH, item⟩
  | cons run rest => exact ⟨run.2, item⟩

theorem item_lastRef {left right : List DList.Entry} (holds : list.Holds (left ++ right))
    (items : left.map Prod.snd = runs.map Run.item) :
    ∃ length, (list.nodes (list.lastRef left)).item =
      [(lastValue runs).1, length, (lastValue runs).2] := by
  have item := holds.item_lastRef
  rw [items] at item
  rcases eq_nil_or_concat runs with rfl | ⟨rest, run, rfl⟩
  · exact ⟨NULL_LENGTH, item⟩
  · rw [concat_eq_append] at item ⊢
    rw [map_append, map_cons, map_nil, getLastD_concat] at item
    rw [lastValue, getLast?_concat]
    exact ⟨run.2, item⟩

/-- The runs are maximal and expand to the ocean. -/
structure Encodes {size : Size} (list : DList) (ocean : Ocean size) (runs : List Run) : Prop where
  stored : ∃ entries, Stores list entries runs
  maximal : Maximal runs
  expanded : expand runs = ocean.contents

theorem Ocean.lifelike_of_mem {size : Size} {ocean : Ocean size} (member : value ∈ ocean.contents) :
    Lifelike value := by
  rcases List.mem_map.mp member with ⟨position, -, same⟩
  exact ⟨ocean.cell position, same⟩

theorem mem_expand {run : Run} (member : run ∈ runs) (positive : 0 < run.2) : run.1 ∈ expand runs :=
  mem_flatMap.mpr ⟨run, member, mem_replicate.mpr ⟨positive.ne', rfl⟩⟩

theorem Encodes.lifelike {size : Size} {ocean : Ocean size} (encodes : Encodes list ocean runs) :
    ∀ run, run ∈ runs -> Lifelike run.1 := by
  intro run member
  have inside := mem_expand member (encodes.maximal.positive run member)
  rw [encodes.expanded] at inside
  exact Ocean.lifelike_of_mem inside

theorem lifelike_firstValue (real : ∀ run, run ∈ runs -> Lifelike run.1) :
    Lifelike (firstValue runs) ∨ firstValue runs = nullValue := by
  cases runs with
  | nil => exact .inr rfl
  | cons run rest => exact .inl (real run mem_cons_self)

theorem firstValue_ne (real : Lifelike value)
    (apart : ∀ run, run ∈ runs.head? -> value ≠ run.1) : value ≠ firstValue runs := by
  cases runs with
  | nil => exact real.ne_null
  | cons run rest => exact apart run rfl

namespace RunLengthEncoding

variable {size : Size}

/-! ## The check -/

theorem uncompressed_eq {currRun nextRun : DListNode} {next : Int × Int} {length nextLength : Int}
    (known : currRun.item = [value.1, length, value.2])
    (knownNext : nextRun.item = [next.1, nextLength, next.2]) (real : Lifelike value)
    (realNext : Lifelike next ∨ next = nullValue) (different : value ≠ next) :
    uncompressed currRun nextRun = some [] := by
  rw [uncompressed, DListNode.getRunType_eq known, DListNode.getRunType_eq knownNext,
    DListNode.getRunHunger_eq known, DListNode.getRunHunger_eq knownNext]
  rcases real with ⟨creature, rfl⟩
  rcases realNext with ⟨other, rfl⟩ | rfl
  · cases creature <;> cases other <;>
      simp_all [Creature.content, EMPTY, FISH, SHARK]
  · cases creature <;>
      simp [Creature.content, nullValue, EMPTY, FISH, SHARK, NULL_TYPE]

theorem wrongHunger_eq {currRun : DListNode} {length : Int}
    (known : currRun.item = [value.1, length, value.2]) (real : Lifelike value) :
    ∃ printed, wrongHunger currRun = some printed ∧ ∀ code, code ∈ printed -> code = 6 := by
  rw [wrongHunger, DListNode.getRunType_eq known, DListNode.getRunHunger_eq known]
  rcases real with ⟨creature, rfl⟩
  cases creature with
  | empty | fish => exact ⟨[], rfl, fun _ member => absurd member not_mem_nil⟩
  | shark full timeToDeath =>
    refine ⟨if timeToDeath < 0 then [6] else [], rfl, fun code member => ?_⟩
    split_ifs at member
    · exact mem_singleton.mp member
    · exact absurd member not_mem_nil

variable {runs : List Run} {list : DList}

/-- The check of a proper encoding finds nothing. -/
theorem checkRuns_eq {left right : List DList.Entry} (holds : list.Holds (left ++ right))
    (items : right.map Prod.snd = runs.map Run.item) (maximal : Maximal runs)
    (real : ∀ run, run ∈ runs -> Lifelike run.1) (numCells : Int) :
    ∃ printed, checkRuns list right.length (list.firstRef right) numCells =
        some (numCells + (expand runs).length, printed) ∧
      ∀ code, code ∈ printed -> code = 6 := by
  induction right generalizing left runs numCells with
  | nil =>
    cases runs with
    | nil => exact ⟨[], by simp [checkRuns], fun _ member => absurd member not_mem_nil⟩
    | cons run rest => cases items
  | cons entry rest ih =>
    cases runs with
    | nil => cases items
    | cons run runs =>
      rcases entry with ⟨ref, content⟩
      rcases List.cons.inj items with ⟨rfl, restItems⟩
      rcases maximal_cons.mp maximal with ⟨positive, apart, maximalRest⟩
      have known : (list.nodes ref).item = [run.1.1, run.2, run.1.2] := holds.item_eq
      have holdsRest : list.Holds ((left ++ [(ref, run.item)]) ++ rest) := by
        rwa [append_assoc]
      rcases ih holdsRest restItems maximalRest
        (fun other member => real other (mem_cons_of_mem _ member))
        (numCells + run.2) with ⟨printed, checkedRest, quietRest⟩
      rcases wrongHunger_eq known (real run mem_cons_self) with
        ⟨hungers, hungerEq, quiet⟩
      rcases item_firstRef holdsRest restItems with ⟨nextLength, knownNext⟩
      have alike := uncompressed_eq known knownNext (real run mem_cons_self)
        (lifelike_firstValue fun other member => real other (mem_cons_of_mem _ member))
        (firstValue_ne (real run mem_cons_self) apart)
      have long : ¬ (run.2 : Int) < 1 := by omega
      refine ⟨hungers ++ printed, ?_, ?_⟩
      · simp only [length_cons, DList.firstRef, map_cons, headD_cons, checkRuns,
          DListNode.getRunLength_eq known, holds.getNext_eq, bind_eq_bind,
          bind_some, hungerEq]
        rw [show (List.map Prod.fst rest).headD list.sentinel = list.firstRef rest from rfl,
          alike, checkedRest]
        simp [long, Int.add_assoc]
      · intro code member
        rcases mem_append.mp member with here | later
        · exact quiet code here
        · exact quietRest code later

variable {ocean : Ocean size}

/-- Codes other than that of a negative hunger are never printed. -/
theorem check_eq (encodes : Encodes list ocean runs) :
    ∃ printed, check size list = some printed ∧ ∀ code, code ∈ printed -> code = 6 := by
  rcases encodes.stored with ⟨entries, holds, items⟩
  have held : list.Holds ([] ++ entries) := holds
  rcases checkRuns_eq held items encodes.maximal encodes.lifelike 0 with ⟨printed, walked, quiet⟩
  have cells : (expand runs).length = size.width * size.height := by
    rw [encodes.expanded]
    exact ocean.length_contents
  refine ⟨printed, ?_, quiet⟩
  rw [check, checkCells, holds.getFirst_eq, holds.size, Int.toNat_natCast, bind_eq_bind,
    bind_some, walked]
  simp [cells]

/-! ## The constructor -/

theorem visitOrder_eq (size : Size) :
    visitOrder size = (List.range size.area).map fun position =>
      (position % size.width, position / size.width) := by
  rw [visitOrder, Size.area]
  induction size.height with
  | zero => simp
  | succ rows ih =>
    rw [range_succ, flatMap_append, ih, Nat.mul_succ, range_add, map_append,
      List.map_map]
    simp only [flatMap_cons, flatMap_nil, append_nil, append_cancel_left_eq]
    apply map_congr_left
    intro x inRow
    have inside := mem_range.mp inRow
    simp only [Function.comp, Nat.mul_add_mod_self_left, Nat.mod_eq_of_lt inside]
    rw [Nat.mul_add_div size.width_pos, Nat.div_eq_of_lt inside, Nat.add_zero]

/-- One round of the loops, for a cell with this type and hunger. -/
def Scan.see (int : Int -> Int) (scan : Scan) (content : Int × Int) : Option Scan :=
  scan.step int (some content.1) (some content.2)

theorem Scan.see_eq (int : Int -> Int) (scan : Scan) (content : Int × Int) :
    scan.see int content =
      if content = (scan.currEncodeType, scan.currSharkHunger) then
        some { scan with currEncodeLength := int (scan.currEncodeLength + 1) }
      else
        scan.flush.map fun runs => ⟨runs, content.1, 1, content.2⟩ := by
  simp only [Scan.see, Scan.step, bind_eq_bind, bind_some]
  by_cases sameType : content.1 = scan.currEncodeType
  · by_cases sameHunger : content.2 = scan.currSharkHunger
    · rw [if_pos (Prod.ext sameType sameHunger)]
      simp [sameType, sameHunger]
    · rw [if_neg fun same => sameHunger (congrArg Prod.snd same)]
      cases scan.flush <;> simp [sameType, sameHunger]
  · rw [if_neg fun same => sameType (congrArg Prod.fst same)]
    cases scan.flush <;> simp [sameType]

theorem scanCell_eq (sea : Ocean size) (scan : Scan) {position : Nat}
    (within : position < size.area) :
    scanCell sea scan (position % size.width, position / size.width) =
      scan.see id (sea.cell position).content := by
  have inside := Nat.mod_lt position size.width_pos
  have below : position / size.width < size.height := Nat.div_lt_of_lt_mul within
  have contents : sea.cellContents (position % size.width : Nat) (position / size.width : Nat) =
      (sea.cell position).content.1 := by
    rw [cellContents_eq, target_natCast inside below, Nat.div_add_mod', Creature.content_fst]
  have feeding : sea.sharkFeeding (position % size.width : Nat) (position / size.width : Nat) =
      some (sea.cell position).content.2 := by
    rw [sharkFeeding_natCast sea inside below, Nat.div_add_mod']
  rw [scanCell, contents, feeding]
  rfl

theorem foldlM_scanCell (sea : Ocean size) (scan : Scan) :
    (visitOrder size).foldlM (scanCell sea) scan = sea.contents.foldlM (Scan.see id) scan := by
  rw [visitOrder_eq, Ocean.contents, foldlM_map, foldlM_map, foldlM_eq_foldl,
    foldlM_eq_foldl]
  refine foldl_ext _ _ _ fun before position member => ?_
  simp only [scanCell_eq sea _ (mem_range.mp member)]

/-- The runs found so far and the one that is still growing. -/
structure Scanned (scan : Scan) (finished : List Run) (current : Run) : Prop where
  stored : ∃ entries, Stores scan.runs entries finished
  type : scan.currEncodeType = current.1.1
  length : scan.currEncodeLength = current.2
  hunger : scan.currSharkHunger = current.1.2

variable {finished : List Run} {current : Run} {scan : Scan}

theorem Scanned.flush (scanned : Scanned scan finished current) :
    ∃ list, scan.flush = some list ∧
      ∃ entries, Stores list entries (finished ++ [current]) := by
  rcases scanned.stored with ⟨entries, holds, items⟩
  have spare := holds.spare_allocate
    [scan.currEncodeType, scan.currEncodeLength, scan.currSharkHunger]
  rcases (holds.allocate _).addLast spare with ⟨list, added, -, held⟩
  refine ⟨list, added, _, held, ?_⟩
  rw [map_append, map_append, items, scanned.type, scanned.length, scanned.hunger]
  rfl

/-- One more cell: the growing run gets longer, or is finished and another begins. -/
theorem Scanned.see (scanned : Scanned scan finished current)
    (maximal : Maximal (finished ++ [current])) (content : Int × Int) :
    ∃ after finishedAfter currentAfter, scan.see id content = some after ∧
      Scanned after finishedAfter currentAfter ∧ Maximal (finishedAfter ++ [currentAfter]) ∧
      expand (finishedAfter ++ [currentAfter]) = expand (finished ++ [current]) ++ [content] := by
  rw [scan.see_eq, scanned.type, scanned.hunger]
  rcases current with ⟨value, count⟩
  split_ifs with same
  · refine ⟨_, finished, (value, count + 1), rfl, ⟨scanned.stored, rfl, ?_,
      rfl⟩, maximal.lengthen (Nat.succ_pos count), ?_⟩
    · show scan.currEncodeLength + 1 = ((count + 1 : Nat) : Int)
      rw [scanned.length]
      rfl
    · rw [same]
      simp [replicate_succ']
  · rcases scanned.flush with ⟨list, flushed, stored⟩
    refine ⟨_, finished ++ [(value, count)], (content, 1), by rw [flushed]; rfl,
      ⟨stored, rfl, rfl, rfl⟩, maximal.start fun alike => same alike.symm, ?_⟩
    rw [expand_append _ [_]]
    rfl

/-- The invariant of the loop, from the second cell on. -/
theorem Scanned.foldlM_see (contents : List (Int × Int)) (scanned : Scanned scan finished current)
    (maximal : Maximal (finished ++ [current])) :
    ∃ after finishedAfter currentAfter, contents.foldlM (Scan.see id) scan = some after ∧
      Scanned after finishedAfter currentAfter ∧ Maximal (finishedAfter ++ [currentAfter]) ∧
      expand (finishedAfter ++ [currentAfter]) = expand (finished ++ [current]) ++ contents := by
  induction contents generalizing scan finished current with
  | nil => exact ⟨scan, finished, current, rfl, scanned, maximal, (append_nil _).symm⟩
  | cons content contents ih =>
    rcases scanned.see maximal content with ⟨next, _, _, seen, scannedNext, maximalNext, grown⟩
    rcases ih scannedNext maximalNext with
      ⟨after, finishedAfter, currentAfter, folded, scannedAfter, maximalAfter, expanded⟩
    refine ⟨after, finishedAfter, currentAfter, ?_, scannedAfter, maximalAfter, ?_⟩
    · rw [foldlM_cons, seen]
      exact folded
    · rw [expanded, grown, append_assoc]
      rfl

/-- The first cell has the type and the hunger that the loop begins with. -/
theorem scan_contents (content : Int × Int) (contents : List (Int × Int)) :
    ∃ scan finished current,
      (content :: contents).foldlM (Scan.see id) ⟨DList.new, content.1, 0, content.2⟩ = some scan ∧
      Scanned scan finished current ∧ Maximal (finished ++ [current]) ∧
      expand (finished ++ [current]) = content :: contents := by
  have begun : Scanned ⟨DList.new, content.1, 1, content.2⟩ [] (content, 1) :=
    ⟨⟨[], DList.holds_new, rfl⟩, rfl, rfl, rfl⟩
  rcases begun.foldlM_see contents (maximal_singleton Nat.one_pos) with
    ⟨scan, finished, current, folded, scanned, maximal, expanded⟩
  refine ⟨scan, finished, current, ?_, scanned, maximal, expanded⟩
  rw [foldlM_cons, Scan.see_eq, if_pos rfl]
  exact folded

theorem checked_eq (encoding : RunLengthEncoding size) (encodes : Encodes list ocean runs) :
    ∃ printed, encoding.checked list =
        some { encoding with runs := list, printed := encoding.printed ++ printed } ∧
      ∀ code, code ∈ printed -> code = 6 := by
  rcases check_eq encodes with ⟨printed, found, quiet⟩
  exact ⟨printed, by rw [checked, found]; rfl, quiet⟩

/-- Only sharks with a negative hunger are ever reported. -/
def Quiet (encoding : RunLengthEncoding size) : Prop :=
  ∀ code, code ∈ encoding.printed -> code = 6

/-- Encoding an ocean makes its maximal runs. -/
theorem ofOcean_encodes (sea : Ocean size) :
    ∃ encoding runs, ofOcean sea = some encoding ∧ encoding.starveTime = sea.starveTime ∧
      Encodes encoding.runs sea runs ∧ encoding.Quiet := by
  have contents : sea.cellContents 0 0 = (sea.cell 0).content.1 := by
    have here := sea.cellContents_eq (0 : Nat) (0 : Nat)
    rwa [target_natCast size.width_pos size.height_pos, Nat.zero_mul,
      <- Creature.content_fst] at here
  have feeding : sea.sharkFeeding 0 0 = some (sea.cell 0).content.2 := by
    have here := sea.sharkFeeding_natCast size.width_pos size.height_pos
    rwa [Nat.zero_mul] at here
  have cells : ∃ contents, sea.contents = (sea.cell 0).content :: contents := by
    rcases Nat.exists_eq_succ_of_ne_zero size.area_pos.ne' with ⟨others, area⟩
    exact ⟨_, by rw [Ocean.contents, area, range_succ_eq_map, map_cons]⟩
  rcases cells with ⟨others, cells⟩
  rcases scan_contents (sea.cell 0).content others with
    ⟨scan, finished, current, folded, scanned, maximal, expanded⟩
  rcases scanned.flush with ⟨list, flushed, stored⟩
  have encodes : Encodes list sea (finished ++ [current]) :=
    ⟨stored, maximal, expanded.trans cells.symm⟩
  have growing : 0 < scan.currEncodeLength := by
    rw [scanned.length]
    exact Int.natCast_pos.mpr
      (maximal.positive current (mem_append_right finished mem_cons_self))
  rcases checked_eq ⟨sea.starveTime, DList.new, []⟩ encodes with ⟨printed, checkedRuns, quiet⟩
  refine ⟨⟨sea.starveTime, list, printed⟩, finished ++ [current], ?_, rfl, encodes, quiet⟩
  have finish : scan.finish = some list := (if_pos growing).trans flushed
  rw [ofOcean, feeding, contents, bind_eq_bind, bind_some, foldlM_scanCell, cells,
    folded, bind_eq_bind, bind_some, finish]
  exact checkedRuns

end RunLengthEncoding

end SharksAndFish
end Codebank
