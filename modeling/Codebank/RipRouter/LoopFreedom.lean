import Codebank.RipRouter.Announcements
import Codebank.Foundation.Descent

namespace Codebank
namespace RipRouter

open Foundation Option

/-!
# Loop freedom

Every change of a finite distance is announced to all neighbours.  So a finite
distance that a node was last told is always one more than the distance its
teller has now.  Once nothing is under way the rows are what nodes were last
told, and each hop along the forwarding tables shortens the distance by one.
-/

namespace RIPRouter

variable {Node : Type} [DecidableEq Node] {event : Event Node}

/-- An event that is not reported as a change keeps all finite distances. -/
theorem distance_kept {router after : RIPRouter Node} (handled : router.Handled event false after)
    {dest : Node} {entry : Entry} (chosen : router.forwardingTable.lookup dest = some entry)
    (finite : entry.distance < POSITIVE_INFINITY) :
    ∃ kept, after.forwardingTable.lookup dest = some kept ∧
      kept.distance = entry.distance := by
  have unreported := handled.unreported dest
  rw [chosen] at unreported
  generalize after.forwardingTable.lookup dest = later at unreported
  cases unreported with
  | same _ => exact ⟨entry, rfl, rfl⟩
  | moved same => exact ⟨_, rfl, same⟩
  | dropped infinite => exact absurd infinite (Nat.ne_of_lt finite)

/-- A neighbour stays one as long as its link does. -/
theorem neighbor_kept {router after : RIPRouter Node} {changed : Bool}
    (handled : router.Handled event changed after) {nbr : Node}
    (other : ∀ port, event ≠ .linkDown nbr port) (known : router.neighbors.lookup nbr ≠ none) :
    after.neighbors.lookup nbr ≠ none := by
  cases handled with
  | linkUp adds =>
    rw [adds.neighbors, lookup_insert_if]
    split
    · exact some_ne_none _
    · exact known
  | linkDown removes =>
    rw [removes.neighbors, if_neg]
    · exact known
    · rintro rfl
      exact other _ rfl
  | ignored _ => exact known
  | update _ shape _ =>
    rw [shape.neighbors]
    exact known

end RIPRouter

namespace Network

variable {Node : Type} [DecidableEq Node] (isHost : Node -> Bool)

/-- What a node was told is true of its teller now. -/
structure Truthful (network : Network Node) : Prop where
  consistent : Consistent isHost (fun _ => False) network
  lastTold : ∀ sender receiver, receiver ≠ sender -> isHost receiver = false ->
    ∀ dest distance, dest ≠ sender -> network.told sender receiver dest = some distance ->
      distance < POSITIVE_INFINITY ->
      (network.routers sender).neighbors.lookup receiver ≠ none ∧
        ∃ entry, (network.routers sender).forwardingTable.lookup dest = some entry ∧
          entry.distance + 1 = distance

theorem truthful_initial : Truthful isHost (initial : Network Node) := by
  refine ⟨consistent_initial isHost, ?_⟩
  intro sender receiver _ _ dest distance _ known
  cases known

theorem finite_of_stretch {announced : Nat}
    (finite : RIPRouter.stretch announced < POSITIVE_INFINITY) :
    announced < POSITIVE_INFINITY ∧ RIPRouter.stretch announced = announced + 1 := by
  unfold RIPRouter.stretch at finite ⊢
  split at finite
  · exact absurd finite (Nat.lt_irrefl _)
  · rename_i small
    exact ⟨Nat.lt_of_not_le small, if_neg small⟩

theorem Truthful.step {network after : Network Node} {action : Action Node}
    (truthful : Truthful isHost network) (stepped : Step isHost network action after)
    (cached : network.cached action = true) : Truthful isHost after := by
  have consistent := truthful.consistent.step stepped cached
  refine ⟨consistent, ?_⟩
  intro sender receiver apart notHost dest distance different known finite
  by_cases unlinked : (after.links sender).lookup receiver = none
  · rw [told_of_unlinked isHost consistent unlinked] at known
    cases known
  have before := truthful.lastTold sender receiver apart notHost dest
  cases telling_step truthful.consistent notHost apart unlinked stepped cached with
  | heard same fills =>
    rw [same]
    rcases fills dest different with unchanged | ⟨_, filled⟩
    · exact before distance different (unchanged ▸ known) finite
    · rw [filled] at known
      cases known
      exact absurd finite (Nat.lt_irrefl _)
  | silent member other handled same =>
    have specified := handled_of_event isHost truthful.consistent member handled
    rw [same dest] at known
    rcases before distance different known finite with ⟨neighbor, entry, chosen, farther⟩
    rcases RIPRouter.distance_kept specified chosen (by omega) with ⟨kept, stillChosen, same⟩
    exact ⟨RIPRouter.neighbor_kept specified other neighbor, kept, stillChosen, same ▸ farther⟩
  | announced member other handled new =>
    have specified := handled_of_event isHost truthful.consistent member handled
    rw [new dest, retold] at known
    cases onPort : (after.routers sender).neighbors.lookup receiver with
    | none =>
      rw [onPort] at known
      have neighbor := (before distance different known finite).1
      exact absurd onPort (RIPRouter.neighbor_kept specified other neighbor)
    | some port =>
      rw [onPort] at known
      refine ⟨some_ne_none _, ?_⟩
      rcases map_eq_some_iff.mp known with ⟨announced, inVector, rfl⟩
      rw [RIPRouter.lookup_vectorFor] at inVector
      split at inVector
      · cases inVector
      · rcases map_eq_some_iff.mp inVector with ⟨entry, chosen, rfl⟩
        rcases finite_of_stretch finite with ⟨small, farther⟩
        refine ⟨entry, chosen, ?_⟩
        rw [farther]
        unfold RIPRouter.advertised at small ⊢
        split at small
        · exact absurd small (Nat.lt_irrefl _)
        · rename_i elsewhere
          rw [if_neg elsewhere]

/-- Where a packet for a destination goes next. -/
def hop (network : Network Node) (dest node : Node) : Option Node :=
  ((network.routers node).getPort dest).bind (network.peer node)

/-- The distance a node has in its forwarding table, when it is finite. -/
def Distance (network : Network Node) (dest node : Node) (distance : Nat) : Prop :=
  distance < POSITIVE_INFINITY ∧ ∃ entry,
    (network.routers node).forwardingTable.lookup dest = some entry ∧ entry.distance = distance

theorem Truthful.descends {network : Network Node} (truthful : Truthful isHost network)
    (idle : ∀ sender receiver, network.channel sender receiver = []) {dest node : Node}
    {distance : Nat} (known : network.Distance dest node distance) :
    ∃ next, network.hop dest node = some next ∧
      (next = dest ∧ distance = 1 ∨
        ∃ smaller, distance = smaller + 1 ∧ network.Distance dest next smaller) := by
  rcases known with ⟨finite, entry, chosen, rfl⟩
  have wired := truthful.consistent.wired node id
  rcases wired.valid.backed dest entry chosen with ⟨nbr, onPort, through⟩
  change (network.routers node).distanceVia nbr dest = some entry.distance at through
  have link := wired.linked nbr entry.port onPort
  have leaves : (network.routers node).getPort dest = some entry.port := by
    rw [RIPRouter.getPort, chosen]
    exact if_pos finite
  refine ⟨nbr, ?_, ?_⟩
  · rw [hop, leaves]
    exact peer_of_link (truthful.consistent.ownPorts node) link
  by_cases same : dest = nbr
  · subst same
    rw [wired.valid.near dest (RIPRouter.mem_of_distanceVia through)] at through
    exact .inl ⟨rfl, (some.inj through).symm⟩
  · right
    have apart : node ≠ nbr := by
      rintro rfl
      cases (truthful.consistent.loopless node).symm.trans link
    have notHost : isHost node = false := by
      cases kind : isHost node with
      | false => rfl
      | true =>
        rw [truthful.consistent.hosts node kind] at chosen
        cases chosen
    have heard : network.told nbr node dest = some entry.distance := by
      rw [told, idle, lastKnown_none rfl]
      exact through
    rcases (truthful.lastTold nbr node apart notHost dest _ same heard finite).2 with
      ⟨next, chosenNext, farther⟩
    exact ⟨next.distance, farther.symm, by omega, next, chosenNext, rfl⟩

/-- As long as the port of each lost link is recognised: when nothing is under way,
forwarding from a node with a finite distance reaches the destination in exactly as many
hops, and never meets a node twice. -/
theorem forwarding_loopFree {actions : List (Action Node)} {network : Network Node}
    (run : Run (fun before action after => Step isHost before action after ∧
      before.cached action = true) initial actions network)
    (idle : ∀ sender receiver, network.channel sender receiver = []) {node dest : Node}
    {entry : Entry} (chosen : (network.routers node).forwardingTable.lookup dest = some entry)
    (finite : entry.distance < POSITIVE_INFINITY) :
    follow (network.hop dest) entry.distance node = some dest ∧
      (∀ steps, steps < entry.distance -> ∃ visited,
        follow (network.hop dest) steps node = some visited ∧ visited ≠ dest) ∧
      ∀ first second, first < second -> second <= entry.distance ->
        follow (network.hop dest) first node ≠ follow (network.hop dest) second node := by
  have truthful : Truthful isHost network :=
    run.invariant (fun before stepped => before.step isHost stepped.1 stepped.2)
      (truthful_initial isHost)
  have descends := fun node distance (known : network.Distance dest node distance) =>
    truthful.descends isHost idle known
  have positive : ∀ node, ¬ network.Distance dest node 0 := by
    rintro node ⟨_, entry, chosen, zero⟩
    have bounds := (truthful.consistent.wired node id).bounds chosen
    omega
  have unique : ∀ node distance other, network.Distance dest node distance ->
      network.Distance dest node other -> distance = other := by
    rintro node _ _ ⟨_, entry, chosen, rfl⟩ ⟨_, same, chosen', rfl⟩
    rw [chosen] at chosen'
    cases chosen'
    rfl
  have unranked : ∀ distance, ¬ network.Distance dest dest distance := by
    rintro _ ⟨_, entry, chosen, _⟩
    have noEntry := (truthful.consistent.wired dest id).noEntry
    rw [truthful.consistent.self dest, chosen] at noEntry
    cases noEntry
  have known : network.Distance dest node entry.distance := ⟨finite, entry, chosen, rfl⟩
  refine ⟨follow_reaches descends known positive, fun steps fewer => ?_, fun first second => ?_⟩
  · rcases follow_ranked descends known fewer with ⟨visited, reached, ranked⟩
    refine ⟨visited, reached, ?_⟩
    rintro rfl
    exact unranked _ ranked
  · exact follow_distinct descends known positive unique unranked

/-- The routers in a line, with the host at the end; another link to the host has gone. -/
def lineUp : List (Action Site) :=
  [.linkUp .b .host 7 3, .linkDown .b .host, .linkUp .a .b 0 0, .linkUp .b .c 1 0,
    .linkUp .c .host 1 0, .deliver .host .c, .deliver .c .host, .deliver .b .c, .deliver .c .b,
    .deliver .c .b, .deliver .a .b, .deliver .b .a, .deliver .b .a, .deliver .b .c,
    .deliver .b .c, .deliver .a .b, .deliver .b .c, .deliver .a .b, .deliver .c .b]

theorem forwarding_loopFree_line :
    ∃ labels network, execute (take Site.hosts cached) initial lineUp =
        some (labels, network) ∧
      follow (network.hop .host) 3 .a = some .host := by
  have outcome : (execute (take Site.hosts cached) initial lineUp).map (fun result =>
      (result.2.idle, (result.2.routers .a).forwardingTable.lookup .host)) =
        some (true, some ⟨0, 3⟩) := by
    decide +kernel
  rcases map_eq_some_iff.mp outcome with ⟨⟨labels, network⟩, done, same⟩
  rcases Prod.mk.inj same with ⟨nothing, chosen⟩
  exact ⟨labels, network, done, (forwarding_loopFree _ (run_of_take _ done)
    (channel_of_idle nothing) chosen (by decide)).1⟩

/-- The host is linked on port 257 of a router, which then unlinks it. -/
def lateUnlink : List (Action Site) :=
  [.linkUp .a .host 257 0, .deliver .host .a, .deliver .a .host, .linkDown .a .host]

/-- The entry for the host stays, and forwards into the dead link. -/
theorem unlinked_host_stays_forwarded :
    ∃ labels network, Run (Step Site.hosts) initial labels network ∧
      (∀ sender receiver, network.channel sender receiver = []) ∧
      (network.routers .a).forwardingTable.lookup .host = some ⟨257, 1⟩ ∧
      follow (network.hop .host) 1 .a = none := by
  have outcome : (execute (take Site.hosts (fun _ _ => true)) initial lateUnlink).map
      (fun result => (result.2.idle, (result.2.routers .a).forwardingTable.lookup .host,
        follow (result.2.hop .host) 1 .a)) = some (true, some ⟨257, 1⟩, none) := by
    decide +kernel
  rcases map_eq_some_iff.mp outcome with ⟨⟨labels, network⟩, done, same⟩
  simp only [Prod.mk.injEq] at same
  exact ⟨labels, network, (run_of_take _ done).mono And.left, channel_of_idle same.1, same.2⟩

end Network

end RipRouter
end Codebank
