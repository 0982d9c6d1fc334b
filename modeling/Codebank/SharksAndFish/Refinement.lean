import Codebank.SharksAndFish.Insertion
import Codebank.SharksAndFish.Decoding

namespace Codebank
namespace SharksAndFish

open Ocean Foundation.RunLength

/-!
# The encoding refines the ocean

Creatures are placed in an ocean and, by the same calls, in its encoding.  At any
time the encoding has the runs that encoding the ocean anew would give, it lists
them, and it decodes to the ocean.
-/

/-- The methods that change both. -/
inductive Call where
  | addFish (x y : Int)
  | addShark (x y : Int)
  deriving DecidableEq

variable {size : Size}

def Ocean.perform (ocean : Ocean size) : Call -> Ocean size
  | .addFish x y => ocean.addFish x y
  | .addShark x y => ocean.addShark x y

namespace RunLengthEncoding

def perform (encoding : RunLengthEncoding size) : Call -> Option (RunLengthEncoding size)
  | .addFish x y => encoding.addFish x y
  | .addShark x y => encoding.addShark x y

/-- The items of the given number of nodes from one on. -/
def readItems (list : DList) : Nat -> Ref -> Option (List (List Int))
  | 0, _ => some []
  | remaining + 1, ref => do
      let next <- list.getNext ref
      let rest <- readItems list remaining next
      some (list.item ref :: rest)

/-- Type, length and hunger of every run in the list. -/
def items (encoding : RunLengthEncoding size) : Option (List (List Int)) := do
  let first <- encoding.runs.getFirst
  readItems encoding.runs encoding.runs.size.toNat first

theorem readItems_eq {list : DList} {passed rest : List DList.Entry}
    (holds : list.Holds (passed ++ rest)) :
    readItems list rest.length (list.firstRef rest) = some (rest.map Prod.snd) := by
  induction rest generalizing passed with
  | nil => rfl
  | cons entry rest ih =>
    rcases entry with ⟨ref, content⟩
    have holdsRest : list.Holds ((passed ++ [(ref, content)]) ++ rest) := by
      rwa [List.append_assoc]
    show (list.getNext ref).bind _ = _
    rw [holds.getNext_eq, Option.bind_some, ih holdsRest]
    show some (list.item ref :: _) = _
    rw [holds.item_eq]
    rfl

/-- The runs are in the list, and enumerating them returns their types and lengths
in order and then null, however often it is asked. -/
structure HasRuns (encoding : RunLengthEncoding size) (runs : List Run) : Prop where
  items : encoding.items = some (runs.map Run.item)
  enumerated : ∀ calls, nextRuns calls encoding.restartRuns =
    some (((runs.map summary).map some).take calls ++ List.replicate (calls - runs.length) none)

variable {encoding : RunLengthEncoding size}

theorem hasRuns_of_stores {entries : List DList.Entry} {runs : List Run}
    (stores : Stores encoding.runs entries runs) : encoding.HasRuns runs where
  items := by
    have held : encoding.runs.Holds ([] ++ entries) := stores.holds
    rw [RunLengthEncoding.items, stores.holds.getFirst_eq, stores.holds.size, Int.toNat_natCast,
      <- stores.items]
    exact readItems_eq held
  enumerated calls := by
    have holds := stores.holds
    have start : Enumerating encoding.restartRuns.runs [] entries :=
      ⟨⟨holds.ring, holds.items, holds.sentinelItem, holds.allocated, holds.size⟩, rfl, rfl⟩
    exact nextRuns_eq calls start stores.items

/-- An encoding made from an ocean and kept up to date with it. -/
structure Follows (encoding : RunLengthEncoding size) (ocean : Ocean size) : Prop where
  encodes : ∃ runs, Encodes encoding.runs ocean runs
  starveTime : encoding.starveTime = ocean.starveTime
  quiet : encoding.Quiet

theorem follows_ofOcean (sea : Ocean size) :
    ∃ encoding, ofOcean sea = some encoding ∧ encoding.Follows sea := by
  rcases ofOcean_encodes sea with ⟨encoding, runs, made, starveTime, encodes, quiet⟩
  exact ⟨encoding, made, ⟨runs, encodes⟩, starveTime, quiet⟩

variable {ocean : Ocean size}

/-- A call keeps the encoding of the ocean. -/
theorem Follows.perform (follows : encoding.Follows ocean) (call : Call) :
    ∃ after, encoding.perform call = some after ∧ after.Follows (ocean.perform call) := by
  rcases follows.encodes with ⟨runs, encodes⟩
  cases call with
  | addFish x y =>
    rcases insert_encodes encodes follows.quiet Newcomer.fish_sound
      (show Creature.fish.BredFor ocean.starveTime from trivial) rfl x y with
      ⟨after, runsAfter, inserted, sameTime, encodesAfter, quiet⟩
    refine ⟨after, inserted, ⟨runsAfter, encodesAfter⟩, ?_, quiet⟩
    rw [sameTime, follows.starveTime]
    exact (add_starveTime ocean x y _).symm
  | addShark x y =>
    rcases insert_encodes encodes follows.quiet (Newcomer.shark_sound ocean.starveTime)
      (show (Creature.shark ocean.starveTime ocean.starveTime).BredFor ocean.starveTime from rfl)
      rfl x y with
      ⟨after, runsAfter, inserted, sameTime, encodesAfter, quiet⟩
    rw [<- follows.starveTime] at inserted
    refine ⟨after, inserted, ⟨runsAfter, encodesAfter⟩, ?_, quiet⟩
    rw [sameTime, follows.starveTime]
    exact (add_starveTime ocean x y _).symm

/-- So does a sequence of calls. -/
theorem Follows.run (follows : encoding.Follows ocean) (calls : List Call) :
    ∃ after, calls.foldlM RunLengthEncoding.perform encoding = some after ∧
      after.Follows (calls.foldl Ocean.perform ocean) := by
  induction calls generalizing encoding ocean with
  | nil => exact ⟨encoding, rfl, follows⟩
  | cons call calls ih =>
    rcases follows.perform call with ⟨next, performed, followsNext⟩
    rcases ih followsNext with ⟨after, finished, followsAfter⟩
    refine ⟨after, ?_, followsAfter⟩
    rw [List.foldlM_cons, performed]
    exact finished

/-- The encoding that followed the calls and a new encoding of the resulting ocean
have the same runs, which are maximal and cover the ocean, and decode to it. -/
theorem encoding_refines_ocean (sea : Ocean size) (calls : List Call) :
    ∃ start encoding renewed runs,
      ofOcean sea = some start ∧
      calls.foldlM RunLengthEncoding.perform start = some encoding ∧
      ofOcean (calls.foldl Ocean.perform sea) = some renewed ∧
      encoding.HasRuns runs ∧ renewed.HasRuns runs ∧
      Maximal runs ∧ (runs.map Prod.snd).sum = size.width * size.height ∧
      encoding.toOcean = some (calls.foldl Ocean.perform sea) := by
  rcases follows_ofOcean sea with ⟨start, made, followsStart⟩
  rcases followsStart.run calls with ⟨encoding, performed, follows⟩
  rcases follows_ofOcean (calls.foldl Ocean.perform sea) with ⟨renewed, madeAgain, followsToo⟩
  rcases follows.encodes with ⟨runs, encodes⟩
  rcases followsToo.encodes with ⟨runsToo, encodesToo⟩
  have sameRuns : runsToo = runs := encodesToo.maximal.unique encodes.maximal
    (encodesToo.expanded.trans encodes.expanded.symm)
  cases sameRuns
  rcases encodes.stored with ⟨entries, stores⟩
  rcases encodesToo.stored with ⟨entriesToo, storesToo⟩
  refine ⟨start, encoding, renewed, runs, made, performed, madeAgain, hasRuns_of_stores stores,
    hasRuns_of_stores storesToo, encodes.maximal, ?_, toOcean_eq encodes follows.starveTime⟩
  rw [<- length_expand, encodes.expanded]
  exact length_contents _

end RunLengthEncoding

end SharksAndFish
end Codebank
