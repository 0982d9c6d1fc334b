import Mathlib.Order.Basic

namespace Codebank
namespace Foundation

/-!
# Following pointers down a ranking

Each place points to at most one next place.  When every ranked place points to
one whose rank is smaller by one, or, with rank one, to the target, then the
target is reached after as many steps as the rank says, and no place is met twice.
-/

universe u

variable {Place : Type u}

/-- The place after a number of steps. -/
def follow (hop : Place -> Option Place) : Nat -> Place -> Option Place
  | 0, place => some place
  | steps + 1, place => (hop place).bind (follow hop steps)

section

variable {hop : Place -> Option Place} {target : Place} {Rank : Place -> Nat -> Prop}
  (descends : ∀ place rank, Rank place rank -> ∃ next, hop place = some next ∧
    (next = target ∧ rank = 1 ∨ ∃ smaller, rank = smaller + 1 ∧ Rank next smaller))

include descends

theorem follow_ranked {steps rank : Nat} {place : Place} (ranked : Rank place rank)
    (fewer : steps < rank) :
    ∃ visited, follow hop steps place = some visited ∧ Rank visited (rank - steps) := by
  induction steps generalizing place rank with
  | zero => exact ⟨place, rfl, ranked⟩
  | succ steps ih =>
    rcases descends place rank ranked with ⟨next, pointed, last | ⟨smaller, same, rankedNext⟩⟩
    · omega
    · rcases ih rankedNext (by omega) with ⟨visited, reached, rankedVisited⟩
      refine ⟨visited, ?_, ?_⟩
      · rw [follow, pointed]
        exact reached
      · rw [same, Nat.add_sub_add_right]
        exact rankedVisited

theorem follow_reaches {rank : Nat} {place : Place} (ranked : Rank place rank)
    (positive : ∀ place, ¬ Rank place 0) : follow hop rank place = some target := by
  induction rank generalizing place with
  | zero => exact absurd ranked (positive place)
  | succ rank ih =>
    rcases descends place (rank + 1) ranked with ⟨next, pointed,
      ⟨rfl, last⟩ | ⟨smaller, same, below⟩⟩
    · cases last
      rw [follow, pointed]
      rfl
    · cases same
      rw [follow, pointed]
      exact ih below

theorem follow_distinct {rank first second : Nat} {place : Place} (ranked : Rank place rank)
    (positive : ∀ place, ¬ Rank place 0)
    (unique : ∀ place rank other, Rank place rank -> Rank place other -> rank = other)
    (unranked : ∀ rank, ¬ Rank target rank) (earlier : first < second)
    (bound : second <= rank) : follow hop first place ≠ follow hop second place := by
  intro same
  rcases follow_ranked descends ranked (Nat.lt_of_lt_of_le earlier bound) with
    ⟨visited, reached, rankedFirst⟩
  rw [reached] at same
  rcases Nat.lt_or_eq_of_le bound with before | last
  · rcases follow_ranked descends ranked before with ⟨later, reachedLater, rankedSecond⟩
    rw [reachedLater] at same
    cases same
    have equal := unique visited _ _ rankedFirst rankedSecond
    omega
  · rw [last, follow_reaches descends ranked positive] at same
    cases same
    exact unranked _ rankedFirst

end

end Foundation
end Codebank
