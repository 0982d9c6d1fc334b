import Mathlib.Order.Lattice
import Mathlib.Data.List.Forall2

namespace Codebank
namespace Foundation

open List

/-!
# Searching game trees with a window

A maximizer goes through its moves and keeps the first best reply.  With pruning it passes
its best score on as the lower end of the window, and stops when the window is closed.  The
minimizer is the same with the order turned around.  A pruned search stands for the plain one
within the window that it was given; from the widest window the two are the same, move and
score.  The lower end may also be set back to a score below the one inherited.
-/

universe u v w

section

variable {Score : Type u} [LinearOrder Score] {alpha beta result value : Score}

/-- The result of a pruned search, for the value of the plain one. -/
structure Within (alpha beta result value : Score) : Prop where
  low : value <= alpha -> value <= result ∧ result <= alpha
  exact : alpha < value -> value < beta -> result = value
  high : beta <= value -> beta <= result ∧ result <= value

theorem Within.refl (alpha beta value : Score) : Within alpha beta value value :=
  ⟨fun low => ⟨le_refl value, low⟩, fun _ _ => rfl, fun high => ⟨high, le_refl value⟩⟩

/-- The same for the minimizer. -/
theorem Within.dual (within : Within alpha beta result value) :
    Within (OrderDual.toDual beta) (OrderDual.toDual alpha) (OrderDual.toDual result)
      (OrderDual.toDual value) :=
  ⟨fun high => ⟨(within.high high).2, (within.high high).1⟩,
    fun below above => within.exact above below,
    fun low => ⟨(within.low low).2, (within.low low).1⟩⟩

end

/-! ## The loop of a maximizer -/

section

variable {Score : Type u} [LinearOrder Score]

/-- The state of a pruned loop beside the plain one: the best score so far, the lower end of the
window and the best score of the plain loop.  The lower end is the inherited one until a reply
is better than the worst score, and the best score from then on. -/
structure Tracks (worst alpha beta best current plain : Score) : Prop where
  within : Within alpha beta best plain
  least : worst <= best
  under : best <= current
  opened : current < beta
  window : alpha < beta
  inherited : current = alpha ∨ current = best

variable {worst alpha beta best current plain reply value : Score}

section

variable (tracks : Tracks worst alpha beta best current plain)

include tracks

/-- As long as the window is open the plain loop is not ahead. -/
theorem Tracks.behind : plain <= best := by
  rcases le_or_gt plain alpha with low | above
  · exact (tracks.within.low low).1
  · rcases lt_or_ge plain beta with inside | high
    · exact le_of_eq (tracks.within.exact above inside).symm
    · exact absurd (tracks.within.high high).1
        (not_le.mpr (lt_of_le_of_lt tracks.under tracks.opened))

section

variable (stands : Within current beta reply value)

include stands

/-- A reply that is not better. -/
theorem Tracks.kept (notBetter : reply <= best) :
    Tracks worst alpha beta best current (max plain value) := by
  refine ⟨?_, tracks.least, tracks.under, tracks.opened, tracks.window, tracks.inherited⟩
  rcases le_or_gt value plain with less | more
  · rw [max_eq_left less]
    exact tracks.within
  · rw [max_eq_right (le_of_lt more)]
    have low : value <= current := by
      by_contra above
      rcases lt_or_ge value beta with inside | high
      · have equal := stands.exact (not_le.mp above) inside
        exact above (equal ▸ le_trans notBetter tracks.under)
      · exact absurd (le_trans (stands.high high).1 (le_trans notBetter tracks.under))
          (not_le.mpr tracks.opened)
    have bounded : value <= best := le_trans (stands.low low).1 notBetter
    have lowBest : best <= alpha := by
      rcases le_or_gt plain alpha with lowPlain | above
      · exact (tracks.within.low lowPlain).2
      · have equal := tracks.within.exact above
          (lt_of_lt_of_le more (le_trans low (le_of_lt tracks.opened)))
        exact absurd bounded (not_le.mpr (equal ▸ more))
    refine ⟨fun _ => ⟨bounded, lowBest⟩, fun beyond => ?_, fun beyond => ?_⟩
    · exact absurd beyond (not_lt.mpr (le_trans bounded lowBest))
    · exact absurd (le_trans beyond low) (not_le.mpr tracks.opened)

/-- A better reply inside the window. -/
theorem Tracks.improved (better : best < reply) (inside : reply < beta) :
    Tracks worst alpha beta reply reply (max plain value) := by
  refine ⟨?_, le_trans tracks.least (le_of_lt better), le_refl reply, inside, tracks.window,
    .inr rfl⟩
  rcases le_or_gt value current with low | above
  · -- the first reply that counts, below the inherited window
    rcases stands.low low with ⟨atLeast, atMost⟩
    have same : current = alpha :=
      tracks.inherited.resolve_right fun equal => absurd atMost (not_le.mpr (equal ▸ better))
    have bounded : max plain value <= reply :=
      max_le (le_trans tracks.behind (le_of_lt better)) atLeast
    refine ⟨fun _ => ⟨bounded, same ▸ atMost⟩, fun beyond => ?_, fun beyond => ?_⟩
    · exact absurd beyond (not_lt.mpr (le_trans bounded (same ▸ atMost)))
    · exact absurd (le_trans beyond bounded) (not_le.mpr inside)
  · have below : value < beta := by
      by_contra high
      exact absurd (stands.high (not_lt.mp high)).1 (not_le.mpr inside)
    have equal := stands.exact above below
    rw [max_eq_right (le_trans tracks.behind (le_of_lt (equal ▸ better))), equal]
    exact Within.refl alpha beta value

/-- A better reply that closes the window. -/
theorem Tracks.closed (high : beta <= reply) : reply <= value := by
  rcases le_or_gt value current with low | above
  · exact absurd (le_trans high (stands.low low).2) (not_le.mpr tracks.opened)
  · rcases lt_or_ge value beta with inside | beyond
    · exact le_of_eq (stands.exact above inside)
    · exact (stands.high beyond).2

end

end

end

section

variable {Score : Type u} [LinearOrder Score] {Move : Type v}

/-- The moves in order, with the score of each as it depends on the lower end of the window.
The state is the best move so far with its score, and the lower end. -/
def maximize (pruning : Bool) (beta : Score) : List (Move × (Score -> Score)) ->
    Option Move × Score -> Score -> Option Move × Score
  | [], best, _ => best
  | (move, search) :: rest, best, alpha =>
    if best.2 < search alpha then
      if pruning = true ∧ beta <= search alpha then (some move, search alpha)
      else maximize pruning beta rest (some move, search alpha) (search alpha)
    else if pruning = true ∧ beta <= alpha then best
    else maximize pruning beta rest best alpha

/-- The plain search: the first best of the moves. -/
def maximum : List (Move × Score) -> Option Move × Score -> Option Move × Score
  | [], best => best
  | (move, score) :: rest, best =>
    maximum rest (if best.2 < score then (some move, score) else best)

theorem score_choice (move : Move) (best : Option Move × Score) (score : Score) :
    (if best.2 < score then (some move, score) else best).2 = max best.2 score := by
  split_ifs with better
  · exact (max_eq_right (le_of_lt better)).symm
  · exact (max_eq_left (not_lt.mp better)).symm

theorem le_maximum (scores : List (Move × Score)) (best : Option Move × Score) :
    best.2 <= (maximum scores best).2 := by
  induction scores generalizing best with
  | nil => exact le_refl _
  | cons first rest ih =>
    refine le_trans ?_ (ih _)
    rw [score_choice]
    exact le_max_left _ _

variable {scores : List (Move × Score)} {best : Option Move × Score}

/-- Scores that are not better change nothing. -/
theorem maximum_eq_self (notBetter : ∀ entry, entry ∈ scores -> entry.2 <= best.2) :
    maximum scores best = best := by
  induction scores with
  | nil => rfl
  | cons first rest ih =>
    rw [maximum, if_neg (not_lt.mpr (notBetter first mem_cons_self))]
    exact ih fun entry member => notBetter entry (mem_cons_of_mem _ member)

theorem maximum_le {bound : Score} (below : best.2 <= bound)
    (bounded : ∀ entry, entry ∈ scores -> entry.2 <= bound) :
    (maximum scores best).2 <= bound := by
  induction scores generalizing best with
  | nil => exact below
  | cons first rest ih =>
    refine ih ?_ fun entry member => bounded entry (mem_cons_of_mem _ member)
    rw [score_choice]
    exact max_le below (bounded first mem_cons_self)

/-- Without pruning the window does not matter. -/
theorem maximize_plain (beta : Score) (scores : List (Move × Score))
    (best : Option Move × Score) (alpha : Score) :
    maximize false beta (scores.map fun entry => (entry.1, fun _ => entry.2)) best alpha =
      maximum scores best := by
  induction scores generalizing best alpha with
  | nil => rfl
  | cons first rest ih =>
    rw [map_cons, maximize, maximum]
    simp only [Bool.false_eq_true, false_and, if_false]
    split_ifs
    · exact ih _ _
    · exact ih _ _

/-- The searches of the moves stand for their scores, in every window above the worst score. -/
def Searches (worst beta : Score) (searches : List (Move × (Score -> Score)))
    (scores : List (Move × Score)) : Prop :=
  List.Forall₂ (fun search score => search.1 = score.1 ∧
    ∀ alpha, worst <= alpha -> alpha < beta -> Within alpha beta (search.2 alpha) score.2)
    searches scores

variable {worst alpha beta current : Score} {searches : List (Move × (Score -> Score))}
  {scores : List (Move × Score)} {best plain : Option Move × Score}

/-- The pruned loop stands for the plain one in the window that it was given. -/
theorem maximize_within (searched : Searches worst beta searches scores)
    (tracks : Tracks worst alpha beta best.2 current plain.2) :
    Within alpha beta (maximize true beta searches best current).2 (maximum scores plain).2 := by
  induction searched generalizing best plain current with
  | nil => exact tracks.within
  | @cons search score searches scores stands _ ih =>
    have reply := stands.2 current (le_trans tracks.least tracks.under) tracks.opened
    rw [maximize, maximum]
    by_cases better : best.2 < search.2 current
    · rw [if_pos better]
      by_cases high : beta <= search.2 current
      · rw [if_pos ⟨rfl, high⟩]
        have final := le_trans (tracks.closed reply high)
          (le_trans (le_max_right plain.2 score.2)
            (score_choice score.1 plain score.2 ▸ le_maximum scores _))
        refine ⟨fun low => ?_, fun _ inside => ?_, fun _ => ⟨high, final⟩⟩
        · exact absurd (le_trans high (le_trans final low)) (not_le.mpr tracks.window)
        · exact absurd inside (not_lt.mpr (le_trans high final))
      · rw [if_neg fun closed => high closed.2]
        apply ih
        rw [score_choice]
        exact tracks.improved reply better (not_le.mp high)
    · rw [if_neg better, if_neg fun closed => absurd closed.2 (not_le.mpr tracks.opened)]
      apply ih
      rw [score_choice]
      exact tracks.kept reply (not_lt.mp better)

/-- From the widest window, which no score leaves, the pruned loop finds the same move and
score. -/
theorem maximize_eq_maximum (searched : Searches worst beta searches scores)
    (least : worst <= best.2) (opened : best.2 < beta)
    (bounded : ∀ entry, entry ∈ scores -> entry.2 <= beta) :
    maximize true beta searches best best.2 = maximum scores best := by
  induction searched generalizing best with
  | nil => rfl
  | @cons search score searches scores stands _ ih =>
    have reply := stands.2 best.2 least opened
    have highest := bounded score mem_cons_self
    have later := fun entry member => bounded entry (mem_cons_of_mem score member)
    rw [maximize, maximum, stands.1]
    rcases le_or_gt score.2 best.2 with low | above
    · have notBetter : ¬ best.2 < search.2 best.2 := not_lt.mpr (reply.low low).2
      rw [if_neg notBetter, if_neg fun closed => absurd closed.2 (not_le.mpr opened),
        if_neg (not_lt.mpr low)]
      exact ih least opened later
    · have equal : search.2 best.2 = score.2 := by
        rcases lt_or_ge score.2 beta with inside | high
        · exact reply.exact above inside
        · rcases reply.high high with ⟨atLeast, atMost⟩
          exact le_antisymm atMost (le_trans highest atLeast)
      rw [equal, if_pos above, if_pos above]
      by_cases closed : beta <= score.2
      · rw [if_pos ⟨rfl, closed⟩]
        exact (maximum_eq_self fun entry member => le_trans (later entry member) closed).symm
      · rw [if_neg fun both => closed both.2]
        exact ih (le_trans least (le_of_lt above)) (not_le.mp closed) later

end

/-! ## Games -/

/-- A game of a maximizer and a minimizer.  Positions may be decided, with a score that depends
on the depth where they are met. -/
structure Game (Position : Type u) (Move : Type v) (Score : Type w) where
  ending : Nat -> Bool -> Position -> Option Score
  evaluate : Position -> Score
  moves : Bool -> Position -> List (Move × Position)
  worstAlpha : Score
  worstBeta : Score

namespace Game

open OrderDual (toDual ofDual)

variable {Position : Type u} {Move : Type v} {Score : Type w} [LinearOrder Score]

/-- The best move of the player to move, as far as a number of moves ahead.  The minimizer
maximizes in the dual order, where the two ends of the window change places. -/
def search (game : Game Position Move Score) (pruning : Bool) :
    Nat -> Nat -> Bool -> Score -> Score -> Position -> Option Move × Score
  | 0, depth, maximizer, _, _, position =>
    (none, (game.ending depth maximizer position).getD (game.evaluate position))
  | remaining + 1, depth, maximizer, alpha, beta, position =>
    match game.ending depth maximizer position with
    | some score => (none, score)
    | none =>
      if maximizer = true then
        maximize pruning beta
          ((game.moves true position).map fun next =>
            (next.1, fun alpha =>
              (search game pruning remaining (depth + 1) false alpha beta next.2).2))
          (none, game.worstAlpha) alpha
      else
        Prod.map id ofDual (maximize pruning (toDual alpha)
          ((game.moves false position).map fun next =>
            (next.1, fun beta =>
              toDual (search game pruning remaining (depth + 1) true alpha (ofDual beta)
                next.2).2))
          (none, toDual game.worstBeta) (toDual beta))

variable {game : Game Position Move Score} {pruning maximizer : Bool} {remaining depth : Nat}
  {alpha beta : Score} {position : Position}

theorem search_ended {score : Score} (ended : game.ending depth maximizer position = some score) :
    game.search pruning remaining depth maximizer alpha beta position = (none, score) := by
  cases remaining with
  | zero => rw [search, ended, Option.getD_some]
  | succ remaining =>
    unfold search
    rw [ended]

theorem search_leaf (undecided : game.ending depth maximizer position = none) :
    game.search pruning 0 depth maximizer alpha beta position = (none, game.evaluate position) := by
  rw [search, undecided, Option.getD_none]

theorem search_maximizer (undecided : game.ending depth true position = none) :
    game.search pruning (remaining + 1) depth true alpha beta position =
      maximize pruning beta
        ((game.moves true position).map fun next =>
          (next.1, fun alpha =>
            (game.search pruning remaining (depth + 1) false alpha beta next.2).2))
        (none, game.worstAlpha) alpha := by
  rw [search.eq_2]
  rw [undecided]
  rfl

theorem search_minimizer (undecided : game.ending depth false position = none) :
    game.search pruning (remaining + 1) depth false alpha beta position =
      Prod.map id ofDual (maximize pruning (toDual alpha)
        ((game.moves false position).map fun next =>
          (next.1, fun beta =>
            toDual (game.search pruning remaining (depth + 1) true alpha (ofDual beta) next.2).2))
        (none, toDual game.worstBeta) (toDual beta)) := by
  rw [search.eq_2]
  rw [undecided]
  rfl

/-! ### The plain search -/

/-- The scores of the moves in the plain search. -/
def scores (game : Game Position Move Score) (remaining depth : Nat) (maximizer : Bool)
    (position : Position) : List (Move × Score) :=
  (game.moves maximizer position).map fun next =>
    (next.1, (game.search false remaining (depth + 1) (!maximizer) game.worstAlpha game.worstBeta
      next.2).2)

section

variable (window : ∀ (depth : Nat) (maximizer : Bool) (alpha beta : Score)
  (position : Position), game.search false remaining depth maximizer alpha beta position =
    game.search false remaining depth maximizer game.worstAlpha game.worstBeta position)

include window

theorem plain_maximizer (undecided : game.ending depth true position = none) :
    game.search false (remaining + 1) depth true alpha beta position =
      maximum (game.scores remaining depth true position) (none, game.worstAlpha) := by
  rw [search_maximizer undecided, <- maximize_plain beta _ _ alpha, scores, map_map]
  apply congrArg fun searches => maximize false beta searches (none, game.worstAlpha) alpha
  apply map_congr_left
  intro next _
  refine Prod.ext rfl (funext fun alpha => ?_)
  exact congrArg Prod.snd (window (depth + 1) false alpha beta next.2)

theorem plain_minimizer (undecided : game.ending depth false position = none) :
    game.search false (remaining + 1) depth false alpha beta position =
      Prod.map id ofDual (maximum
        ((game.scores remaining depth false position).map (Prod.map id toDual))
        (none, toDual game.worstBeta)) := by
  rw [search_minimizer undecided, <- maximize_plain (toDual alpha) _ _ (toDual beta), scores,
    map_map, map_map]
  apply congrArg fun searches =>
    Prod.map id ofDual (maximize false (toDual alpha) searches (none, toDual game.worstBeta)
      (toDual beta))
  apply map_congr_left
  intro next _
  refine Prod.ext rfl (funext fun beta => ?_)
  exact congrArg (fun found => toDual found.2) (window (depth + 1) true alpha (ofDual beta) next.2)

end

/-- The plain search does not depend on the window. -/
theorem search_window (remaining depth : Nat) (maximizer : Bool) (alpha beta : Score)
    (position : Position) :
    game.search false remaining depth maximizer alpha beta position =
      game.search false remaining depth maximizer game.worstAlpha game.worstBeta position := by
  induction remaining generalizing depth maximizer alpha beta position with
  | zero => rfl
  | succ remaining ih =>
    cases undecided : game.ending depth maximizer position with
    | some score => rw [search_ended undecided, search_ended undecided]
    | none =>
      cases maximizer with
      | true => rw [plain_maximizer ih undecided, plain_maximizer ih undecided]
      | false => rw [plain_minimizer ih undecided, plain_minimizer ih undecided]

/-- The two scores that a player without a move gets bound all scores. -/
structure Bounded (game : Game Position Move Score) : Prop where
  window : game.worstAlpha < game.worstBeta
  ending : ∀ {depth maximizer position score}, 0 < depth ->
    game.ending depth maximizer position = some score ->
    game.worstAlpha <= score ∧ score <= game.worstBeta
  evaluate : ∀ position,
    game.worstAlpha <= game.evaluate position ∧ game.evaluate position <= game.worstBeta

theorem Bounded.search (bounded : game.Bounded) (below : 0 < depth) :
    game.worstAlpha <= (game.search false remaining depth maximizer alpha beta position).2 ∧
      (game.search false remaining depth maximizer alpha beta position).2 <= game.worstBeta := by
  induction remaining generalizing depth maximizer alpha beta position with
  | zero =>
    cases undecided : game.ending depth maximizer position with
    | some score =>
      rw [search_ended undecided]
      exact bounded.ending below undecided
    | none =>
      rw [search_leaf undecided]
      exact bounded.evaluate position
  | succ remaining ih =>
    cases undecided : game.ending depth maximizer position with
    | some score =>
      rw [search_ended undecided]
      exact bounded.ending below undecided
    | none =>
      cases maximizer with
      | true =>
        rw [plain_maximizer (search_window remaining) undecided]
        refine ⟨le_maximum _ (none, game.worstAlpha),
          maximum_le (le_of_lt bounded.window) fun entry member => ?_⟩
        rcases mem_map.mp member with ⟨next, _, rfl⟩
        exact (ih (Nat.succ_pos depth)).2
      | false =>
        rw [plain_minimizer (search_window remaining) undecided]
        have low : (maximum
            ((game.scores remaining depth false position).map (Prod.map id toDual))
            (none, toDual game.worstBeta)).2 <= toDual game.worstAlpha := by
          refine maximum_le (le_of_lt bounded.window) fun entry member => ?_
          rcases mem_map.mp member with ⟨score, scored, rfl⟩
          rcases mem_map.mp scored with ⟨next, _, rfl⟩
          exact (ih (Nat.succ_pos depth)).1
        exact ⟨low, le_maximum _ (none, toDual game.worstBeta)⟩

/-! ### The pruned search -/

theorem searches_maximizer (stands : ∀ next, next ∈ game.moves true position -> ∀ alpha,
      game.worstAlpha <= alpha -> alpha < beta ->
      Within alpha beta (game.search true remaining (depth + 1) false alpha beta next.2).2
        (game.search false remaining (depth + 1) false game.worstAlpha game.worstBeta next.2).2) :
    Searches game.worstAlpha beta
      ((game.moves true position).map fun next =>
        (next.1, fun alpha => (game.search true remaining (depth + 1) false alpha beta next.2).2))
      (game.scores remaining depth true position) := by
  rw [scores]
  refine List.forall₂_map_left_iff.mpr (List.forall₂_map_right_iff.mpr ?_)
  exact List.forall₂_same.mpr fun next member => ⟨rfl, stands next member⟩

theorem searches_minimizer (stands : ∀ next, next ∈ game.moves false position -> ∀ beta,
      beta <= game.worstBeta -> alpha < beta ->
      Within alpha beta (game.search true remaining (depth + 1) true alpha beta next.2).2
        (game.search false remaining (depth + 1) true game.worstAlpha game.worstBeta next.2).2) :
    Searches (toDual game.worstBeta) (toDual alpha)
      ((game.moves false position).map fun next =>
        (next.1, fun beta =>
          toDual (game.search true remaining (depth + 1) true alpha (ofDual beta) next.2).2))
      ((game.scores remaining depth false position).map (Prod.map id toDual)) := by
  rw [scores, map_map]
  refine List.forall₂_map_left_iff.mpr (List.forall₂_map_right_iff.mpr ?_)
  refine List.forall₂_same.mpr fun next member => ⟨rfl, fun beta most opened => ?_⟩
  exact (stands next member (ofDual beta) most opened).dual

/-- The pruned search stands for the plain one in every window. -/
theorem search_within (least : game.worstAlpha <= alpha) (opened : alpha < beta)
    (most : beta <= game.worstBeta) :
    Within alpha beta (game.search true remaining depth maximizer alpha beta position).2
      (game.search false remaining depth maximizer game.worstAlpha game.worstBeta position).2 := by
  induction remaining generalizing depth maximizer alpha beta position with
  | zero => exact Within.refl alpha beta _
  | succ remaining ih =>
    cases undecided : game.ending depth maximizer position with
    | some score =>
      rw [search_ended undecided, search_ended undecided]
      exact Within.refl alpha beta score
    | none =>
      cases maximizer with
      | true =>
        rw [search_maximizer undecided, plain_maximizer (search_window remaining) undecided]
        refine maximize_within (searches_maximizer fun next _ alpha least opened =>
          ih least opened most) ?_
        exact ⟨Within.refl alpha beta _, le_refl _, least, opened, opened, .inl rfl⟩
      | false =>
        rw [search_minimizer undecided, plain_minimizer (search_window remaining) undecided]
        refine Within.dual (maximize_within (searches_minimizer fun next _ beta most opened =>
          ih least opened most) ?_)
        exact ⟨Within.refl (toDual beta) (toDual alpha) _, le_refl _, most, opened, opened,
          .inl rfl⟩

/-- From the widest window pruning changes neither the move nor the score. -/
theorem search_eq (bounded : game.Bounded) (remaining depth : Nat) (maximizer : Bool)
    (position : Position) :
    game.search true remaining depth maximizer game.worstAlpha game.worstBeta position =
      game.search false remaining depth maximizer game.worstAlpha game.worstBeta position := by
  cases remaining with
  | zero => rfl
  | succ remaining =>
    cases undecided : game.ending depth maximizer position with
    | some score => rw [search_ended undecided, search_ended undecided]
    | none =>
      cases maximizer with
      | true =>
        rw [search_maximizer undecided, plain_maximizer (search_window remaining) undecided]
        refine maximize_eq_maximum (searches_maximizer fun next _ alpha least opened =>
          search_within least opened (le_refl _)) (le_refl _) bounded.window ?_
        intro entry member
        rcases mem_map.mp member with ⟨next, _, rfl⟩
        exact (bounded.search (Nat.succ_pos depth)).2
      | false =>
        rw [search_minimizer undecided, plain_minimizer (search_window remaining) undecided]
        refine congrArg (Prod.map id ofDual) (maximize_eq_maximum
          (searches_minimizer fun next _ beta most opened =>
            search_within (le_refl _) opened most) (le_refl _) bounded.window ?_)
        intro entry member
        rcases mem_map.mp member with ⟨score, scored, rfl⟩
        rcases mem_map.mp scored with ⟨next, _, rfl⟩
        exact (bounded.search (Nat.succ_pos depth)).1

end Game

end Foundation
end Codebank
