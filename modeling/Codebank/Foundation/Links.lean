import Mathlib.Data.List.Chain
import Mathlib.Data.List.Nodup

namespace Codebank
namespace Foundation

open List Function

/-!
# Doubly linked rings

Elements carry two links each.  A ring is a list of distinct elements closed by a
sentinel such that the links of neighbours point at each other.  Putting an
element between two neighbours and taking one out change the list as expected
and nothing else.
-/

universe u

structure Links (Ref : Type u) where
  next : Ref -> Option Ref
  prev : Ref -> Option Ref

namespace Links

variable {Ref : Type u}

def Joined (links : Links Ref) (first second : Ref) : Prop :=
  links.next first = some second ∧ links.prev second = some first

variable {refs : List Ref}

/-- Only the outgoing link of the last element and the incoming one of the first
are free in a chain. -/
theorem chain_frame {links after : Links Ref} (chain : refs.IsChain links.Joined)
    (nextKept : ∀ ref, ref ∈ refs.dropLast -> after.next ref = links.next ref)
    (prevKept : ∀ ref, ref ∈ refs.tail -> after.prev ref = links.prev ref) :
    refs.IsChain after.Joined := by
  induction refs with
  | nil => exact List.IsChain.nil
  | cons first rest ih =>
    cases rest with
    | nil => exact List.IsChain.singleton first
    | cons second rest =>
      rcases isChain_cons_cons.mp chain with ⟨joined, chainRest⟩
      refine isChain_cons_cons.mpr ⟨⟨?_, ?_⟩, ih chainRest ?_ ?_⟩
      · rw [nextKept first mem_cons_self, joined.1]
      · rw [prevKept second mem_cons_self, joined.2]
      · exact fun ref member => nextKept ref (mem_cons_of_mem _ member)
      · exact fun ref member => prevKept ref (mem_cons_of_mem _ member)

structure Ring (links : Links Ref) (sentinel : Ref) (refs : List Ref) : Prop where
  linked : (sentinel :: refs ++ [sentinel]).IsChain links.Joined
  distinct : (sentinel :: refs).Nodup

theorem head?_concat (refs : List Ref) (sentinel : Ref) :
    (refs ++ [sentinel]).head? = some (refs.headD sentinel) := by
  cases refs <;> rfl

theorem getLast?_cons_getLastD (refs : List Ref) (sentinel : Ref) :
    (sentinel :: refs).getLast? = some (refs.getLastD sentinel) := by
  rw [getLast?_cons, getLastD_eq_getLast?]

theorem ring_linked {links : Links Ref} {sentinel : Ref} {left right : List Ref} :
    (sentinel :: (left ++ right) ++ [sentinel]).IsChain links.Joined <->
      (sentinel :: left).IsChain links.Joined ∧ (right ++ [sentinel]).IsChain links.Joined ∧
        links.Joined (left.getLastD sentinel) (right.headD sentinel) := by
  rw [cons_append, append_assoc, <- cons_append, isChain_append,
    getLast?_cons_getLastD, head?_concat]
  simp

namespace Ring

variable {links : Links Ref} {sentinel ref : Ref} {left right refs : List Ref}

theorem joined (ring : Ring links sentinel (left ++ right)) :
    links.Joined (left.getLastD sentinel) (right.headD sentinel) :=
  (ring_linked.mp ring.linked).2.2

theorem next_eq (ring : Ring links sentinel (left ++ ref :: right)) :
    links.next ref = some (right.headD sentinel) := by
  rw [append_cons] at ring
  have link := ring.joined.1
  rwa [getLastD_concat] at link

theorem prev_eq (ring : Ring links sentinel (left ++ ref :: right)) :
    links.prev ref = some (left.getLastD sentinel) :=
  ring.joined.2

theorem first_eq (ring : Ring links sentinel refs) :
    links.next sentinel = some (refs.headD sentinel) :=
  (show Ring links sentinel ([] ++ refs) from ring).joined.1

theorem last_eq (ring : Ring links sentinel refs) :
    links.prev sentinel = some (refs.getLastD sentinel) := by
  have ring' : Ring links sentinel (refs ++ []) := by rwa [append_nil]
  exact ring'.joined.2

theorem ne_sentinel (ring : Ring links sentinel refs) (member : ref ∈ refs) : ref ≠ sentinel := by
  rintro rfl
  exact (nodup_cons.mp ring.distinct).1 member

end Ring

theorem getLastD_mem (sentinel : Ref) (refs : List Ref) :
    refs.getLastD sentinel ∈ sentinel :: refs :=
  mem_of_getLast? (getLast?_cons_getLastD refs sentinel)

theorem headD_mem (sentinel : Ref) (refs : List Ref) : refs.headD sentinel ∈ sentinel :: refs := by
  cases refs with
  | nil => exact mem_cons_self
  | cons first rest => exact mem_cons_of_mem _ mem_cons_self

/-- The last element of a list without repetition is not met before. -/
theorem ne_getLastD {sentinel ref : Ref} (distinct : (sentinel :: refs).Nodup)
    (member : ref ∈ (sentinel :: refs).dropLast) : ref ≠ refs.getLastD sentinel := by
  rintro rfl
  have whole := dropLast_append_getLast? (refs.getLastD sentinel)
    (getLast?_cons_getLastD refs sentinel)
  rw [<- whole] at distinct
  exact (nodup_append.mp distinct).2.2 _ member _ mem_cons_self rfl

/-- The first element of a list without repetition is not met again. -/
theorem ne_headD {sentinel ref : Ref} (distinct : (sentinel :: refs).Nodup)
    (member : ref ∈ (refs ++ [sentinel]).tail) : ref ≠ refs.headD sentinel := by
  cases refs with
  | nil => exact absurd member not_mem_nil
  | cons first rest =>
    rintro rfl
    rcases nodup_cons.mp distinct with ⟨outside, inner⟩
    rcases mem_append.mp member with inRest | atEnd
    · exact (nodup_cons.mp inner).1 inRest
    · exact outside (mem_singleton.mp atEnd ▸ mem_cons_self)

namespace Ring

variable {links : Links Ref} {sentinel ref : Ref} {left right : List Ref}

section

variable (ring : Ring links sentinel (left ++ right))

include ring

theorem distinct_left : (sentinel :: left).Nodup :=
  ring.distinct.sublist (List.Sublist.cons_cons _ (sublist_append_left left right))

theorem distinct_right : (sentinel :: right).Nodup :=
  ring.distinct.sublist (List.Sublist.cons_cons _ (sublist_append_right left right))

theorem ne_of_mem {first second : Ref} (inLeft : first ∈ left) (inRight : second ∈ right) :
    first ≠ second :=
  (nodup_append.mp (nodup_cons.mp ring.distinct).2).2.2 first inLeft second inRight

end

theorem left_eq_nil (ring : Ring links sentinel (left ++ ref :: right))
    (first : links.next sentinel = some ref) : left = [] := by
  cases left with
  | nil => rfl
  | cons other rest =>
    have same : other = ref := Option.some.inj (ring.first_eq.symm.trans first)
    exact absurd same (ring.ne_of_mem mem_cons_self mem_cons_self)

theorem right_eq_nil (ring : Ring links sentinel (left ++ ref :: right))
    (last : links.prev sentinel = some ref) : right = [] := by
  rcases eq_nil_or_concat right with rfl | ⟨rest, other, rfl⟩
  · rfl
  · rw [concat_eq_append, append_cons, <- append_assoc] at ring
    have same : other = ref := by
      have link := ring.last_eq
      rw [getLastD_concat, last] at link
      exact (Option.some.inj link).symm
    exact absurd same.symm (ring.ne_of_mem (mem_append_left rest
      (mem_append_right left mem_cons_self)) mem_cons_self)

theorem ne_headD_right (ring : Ring links sentinel (left ++ right)) (member : ref ∈ left) :
    ref ≠ right.headD sentinel := by
  rintro rfl
  rcases mem_cons.mp (headD_mem sentinel right) with same | inRight
  · exact ring.ne_sentinel (mem_append_left right member) same
  · exact ring.ne_of_mem member inRight rfl

theorem ne_getLastD_left (ring : Ring links sentinel (left ++ right)) (member : ref ∈ right) :
    ref ≠ left.getLastD sentinel := by
  rintro rfl
  rcases mem_cons.mp (getLastD_mem sentinel left) with same | inLeft
  · exact ring.ne_sentinel (mem_append_right left member) same
  · exact ring.ne_of_mem inLeft member rfl

variable {after : Links Ref}

theorem frame (ring : Ring links sentinel left) (kept : ∀ ref, ref ∈ sentinel :: left ->
      after.next ref = links.next ref ∧ after.prev ref = links.prev ref) :
    Ring after sentinel left := by
  have inside : ∀ ref, ref ∈ sentinel :: left ++ [sentinel] -> ref ∈ sentinel :: left := by
    intro ref member
    rcases mem_append.mp member with here | last
    · exact here
    · exact mem_cons.mpr (.inl (mem_singleton.mp last))
  refine ⟨chain_frame ring.linked ?_ ?_, ring.distinct⟩
  · exact fun ref member => (kept ref (inside ref (dropLast_subset _ member))).1
  · exact fun ref member => (kept ref (inside ref (mem_of_mem_tail member))).2

/-- The part of the ring before a gap does not depend on the link into the gap. -/
theorem front (ring : Ring links sentinel (left ++ right))
    (nextKept : ∀ ref, ref ∈ sentinel :: left -> ref ≠ left.getLastD sentinel ->
      after.next ref = links.next ref)
    (prevKept : ∀ ref, ref ∈ left -> after.prev ref = links.prev ref) :
    (sentinel :: left).IsChain after.Joined :=
  chain_frame (ring_linked.mp ring.linked).1
    (fun ref member => nextKept ref (dropLast_subset _ member)
      (ne_getLastD ring.distinct_left member)) prevKept

/-- The part of the ring behind a gap does not depend on the link back into the gap. -/
theorem back (ring : Ring links sentinel (left ++ right))
    (nextKept : ∀ ref, ref ∈ right -> after.next ref = links.next ref)
    (prevKept : ∀ ref, ref ∈ sentinel :: right -> ref ≠ right.headD sentinel ->
      after.prev ref = links.prev ref) : (right ++ [sentinel]).IsChain after.Joined := by
  refine chain_frame (ring_linked.mp ring.linked).2.1 ?_ ?_
  · intro ref member
    rw [dropLast_concat] at member
    exact nextKept ref member
  · intro ref member
    refine prevKept ref ?_ (ne_headD ring.distinct_right member)
    exact mem_cons.mpr ((mem_append.mp (mem_of_mem_tail member)).symm.imp_left
      mem_singleton.mp)

end Ring

section

variable [DecidableEq Ref] {links : Links Ref} {sentinel ref : Ref} {left right : List Ref}

/-- An element is put between two others. -/
def insertBetween (links : Links Ref) (before new after : Ref) : Links Ref where
  next ref := if ref = before then some new else if ref = new then some after else links.next ref
  prev ref := if ref = after then some new else if ref = new then some before else links.prev ref

theorem next_insertBetween {before new after other : Ref}
    (link : (links.insertBetween before new after).next ref = some other) :
    ref = before ∧ other = new ∨ ref = new ∧ other = after ∨ links.next ref = some other := by
  simp only [insertBetween] at link
  split at link
  next first => exact .inl ⟨first, (Option.some.inj link).symm⟩
  next =>
    split at link
    next second => exact .inr (.inl ⟨second, (Option.some.inj link).symm⟩)
    next => exact .inr (.inr link)

theorem prev_insertBetween {before new after other : Ref}
    (link : (links.insertBetween before new after).prev ref = some other) :
    ref = after ∧ other = new ∨ ref = new ∧ other = before ∨ links.prev ref = some other :=
  -- the same, read backwards
  @next_insertBetween Ref _ ⟨links.prev, links.next⟩ _ _ _ _ _ link

/-- Two elements are joined past a third, which loses its own links. -/
def bypass (links : Links Ref) (before removed after : Ref) : Links Ref where
  next ref := if ref = removed then none else if ref = before then some after else links.next ref
  prev ref := if ref = removed then none else if ref = after then some before else links.prev ref

theorem Ring.insert (ring : Ring links sentinel (left ++ right))
    (fresh : ref ∉ sentinel :: (left ++ right)) :
    Ring (links.insertBetween (left.getLastD sentinel) ref (right.headD sentinel)) sentinel
      (left ++ ref :: right) := by
  have newLeft : ∀ other, other ∈ sentinel :: left -> other ≠ ref := by
    rintro other member rfl
    exact fresh (mem_append_left right member)
  have newRight : ∀ other, other ∈ sentinel :: right -> other ≠ ref := by
    rintro other member rfl
    refine fresh (mem_cons.mpr ((mem_cons.mp member).imp_right ?_))
    exact fun inRight => mem_append_right left inRight
  have notLast := newLeft _ (getLastD_mem sentinel left)
  have notFirst := newRight _ (headD_mem sentinel right)
  refine ⟨ring_linked.mpr ⟨ring.front ?_ ?_, isChain_cons.mpr ⟨?_, ring.back ?_ ?_⟩, ?_⟩, ?_⟩
  · intro other member notBefore
    exact (if_neg notBefore).trans (if_neg (newLeft other member))
  · intro other member
    exact (if_neg (ring.ne_headD_right member)).trans
      (if_neg (newLeft other (mem_cons_of_mem _ member)))
  · intro first here
    cases Option.some.inj ((head?_concat right sentinel).symm.trans here)
    exact ⟨(if_neg notLast.symm).trans (if_pos rfl), if_pos rfl⟩
  · intro other member
    exact (if_neg (ring.ne_getLastD_left member)).trans
      (if_neg (newRight other (mem_cons_of_mem _ member)))
  · intro other member notAfter
    exact (if_neg notAfter).trans (if_neg (newRight other member))
  · exact ⟨if_pos rfl, (if_neg notFirst.symm).trans (if_pos rfl)⟩
  · rw [<- cons_append, nodup_middle, nodup_cons]
    exact ⟨fresh, ring.distinct⟩

theorem Ring.remove (ring : Ring links sentinel (left ++ ref :: right)) :
    Ring (links.bypass (left.getLastD sentinel) ref (right.headD sentinel)) sentinel
      (left ++ right) := by
  have ringAfter : Ring links sentinel ((left ++ [ref]) ++ right) := by
    rwa [append_assoc]
  have outside := ring.distinct
  rw [<- cons_append, nodup_middle, nodup_cons] at outside
  have oldLeft : ∀ other, other ∈ sentinel :: left -> other ≠ ref := by
    rintro other member rfl
    exact outside.1 (mem_append_left right member)
  have oldRight : ∀ other, other ∈ sentinel :: right -> other ≠ ref := by
    rintro other member rfl
    refine outside.1 (mem_cons.mpr ((mem_cons.mp member).imp_right ?_))
    exact fun inRight => mem_append_right left inRight
  have notLast := oldLeft _ (getLastD_mem sentinel left)
  have notFirst := oldRight _ (headD_mem sentinel right)
  refine ⟨ring_linked.mpr ⟨ring.front ?_ ?_, ringAfter.back ?_ ?_, ?_⟩, outside.2⟩
  · intro other member notBefore
    exact (if_neg (oldLeft other member)).trans (if_neg notBefore)
  · intro other member
    exact (if_neg (oldLeft other (mem_cons_of_mem _ member))).trans
      (if_neg (ringAfter.ne_headD_right (mem_append_left _ member)))
  · intro other member
    exact (if_neg (oldRight other (mem_cons_of_mem _ member))).trans
      (if_neg (ring.ne_getLastD_left (mem_cons_of_mem _ member)))
  · intro other member notAfter
    exact (if_neg (oldRight other member)).trans (if_neg notAfter)
  · exact ⟨(if_neg notLast).trans (if_pos rfl), (if_neg notFirst).trans (if_pos rfl)⟩

end

/-! ## Chains with two ends -/

section

variable {links : Links Ref} {left right : List Ref} {before ref behind : Ref}

theorem joined_of_chain (chain : (left ++ before :: behind :: right).IsChain links.Joined) :
    links.Joined before behind :=
  (isChain_append_cons_cons.mp chain).2.1

variable {after : Links Ref}

theorem chain_kept {refs : List Ref} (chain : refs.IsChain links.Joined)
    (kept : ∀ ref, ref ∈ refs ->
      after.next ref = links.next ref ∧ after.prev ref = links.prev ref) :
    refs.IsChain after.Joined :=
  chain_frame chain (fun ref member => (kept ref (dropLast_subset _ member)).1)
    (fun ref member => (kept ref (mem_of_mem_tail member)).2)

/-- The two sides of a gap do not depend on the links into the gap. -/
theorem chain_gap (front : (left ++ [before]).IsChain links.Joined)
    (back : (behind :: right).IsChain links.Joined)
    (distinct : (left ++ before :: behind :: right).Nodup)
    (nextKept : ∀ ref, ref ∈ left ++ before :: behind :: right -> ref ≠ before ->
      after.next ref = links.next ref)
    (prevKept : ∀ ref, ref ∈ left ++ before :: behind :: right -> ref ≠ behind ->
      after.prev ref = links.prev ref) :
    (left ++ [before]).IsChain after.Joined ∧ (behind :: right).IsChain after.Joined := by
  rcases nodup_append.mp distinct with ⟨_, distinctBack, apart⟩
  rcases nodup_cons.mp distinctBack with ⟨notBefore, distinctBack⟩
  constructor
  · refine chain_frame front ?_ ?_
    · intro other member
      rw [dropLast_concat] at member
      exact nextKept other (mem_append_left _ member)
        (apart other member before mem_cons_self)
    · intro other member
      rcases mem_append.mp (mem_of_mem_tail member) with inLeft | last
      · exact prevKept other (mem_append_left _ inLeft)
          (apart other inLeft behind (mem_cons_of_mem _ mem_cons_self))
      · cases mem_singleton.mp last
        refine prevKept before (mem_append_right _ mem_cons_self) ?_
        rintro rfl
        exact notBefore mem_cons_self
  · refine chain_frame back ?_ ?_
    · intro other member
      have inBack := dropLast_subset _ member
      refine nextKept other (mem_append_right _ (mem_cons_of_mem _ inBack)) ?_
      rintro rfl
      exact notBefore inBack
    · intro other member
      refine prevKept other (mem_append_right _
        (mem_cons_of_mem _ (mem_of_mem_tail member))) ?_
      rintro rfl
      exact (nodup_cons.mp distinctBack).1 member

variable [DecidableEq Ref]

/-- Two elements are joined; what was between them keeps its own links. -/
def join (links : Links Ref) (before behind : Ref) : Links Ref where
  next := update links.next before (some behind)
  prev := update links.prev behind (some before)

theorem chain_insert (chain : (left ++ before :: behind :: right).IsChain links.Joined)
    (distinct : (left ++ before :: behind :: right).Nodup)
    (fresh : ref ∉ left ++ before :: behind :: right) :
    (left ++ before :: ref :: behind :: right).IsChain
      (links.insertBetween before ref behind).Joined := by
  rcases isChain_append_cons_cons.mp chain with ⟨front, _, back⟩
  have old : ∀ other, other ∈ left ++ before :: behind :: right -> other ≠ ref := by
    rintro other member rfl
    exact fresh member
  have kept : (left ++ [before]).IsChain (links.insertBetween before ref behind).Joined ∧
      (behind :: right).IsChain (links.insertBetween before ref behind).Joined := by
    refine chain_gap front back distinct ?_ ?_
    · exact fun other member other' => (if_neg other').trans (if_neg (old other member))
    · exact fun other member other' => (if_neg other').trans (if_neg (old other member))
  have notBefore : ref ≠ before := (old before (by simp)).symm
  have notBehind : ref ≠ behind := (old behind (by simp)).symm
  refine isChain_append_cons_cons.mpr ⟨kept.1, ⟨if_pos rfl, ?_⟩, ?_⟩
  · exact (if_neg notBehind).trans (if_pos rfl)
  · exact isChain_cons_cons.mpr
      ⟨⟨(if_neg notBefore).trans (if_pos rfl), if_pos rfl⟩, kept.2⟩

theorem chain_join (chain : (left ++ before :: ref :: behind :: right).IsChain links.Joined)
    (distinct : (left ++ before :: ref :: behind :: right).Nodup) :
    (left ++ before :: behind :: right).IsChain (links.join before behind).Joined := by
  rcases isChain_append_cons_cons.mp chain with ⟨front, _, rest⟩
  have back := (isChain_cons_cons.mp rest).2
  have shorter : (left ++ before :: behind :: right).Nodup :=
    distinct.sublist ((List.Sublist.refl left).append
      ((sublist_cons_self ref _).cons_cons before))
  have kept : (left ++ [before]).IsChain (links.join before behind).Joined ∧
      (behind :: right).IsChain (links.join before behind).Joined := by
    refine chain_gap front back shorter ?_ ?_
    · exact fun other _ other' => update_of_ne other' _ _
    · exact fun other _ other' => update_of_ne other' _ _
  exact isChain_append_cons_cons.mpr
    ⟨kept.1, ⟨update_self _ _ _, update_self _ _ _⟩, kept.2⟩

end

end Links
end Foundation
end Codebank
