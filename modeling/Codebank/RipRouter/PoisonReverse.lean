import Codebank.RipRouter.Announcements

namespace Codebank
namespace RipRouter

open Foundation Option List

/-!
# Poison reverse

A router announces infinity to the neighbour it forwards through.  An entry
that moves to another port at the same distance is not reported as a change,
though: the old and the new neighbour keep what they were told before.  As long
as no event brings a route as short as an entry, the row of every neighbour is
current when no update is under way.
-/

namespace RIPRouter

variable {Node : Type} [DecidableEq Node]

/-- The distance through a neighbour that an update of it gives. -/
def announcedBy (paths : Dict Node Nat) (dest : Node) : Nat :=
  ((paths.lookup dest).map stretch).getD POSITIVE_INFINITY

/-- There is a route as short as an entry, where the event may prefer it: through the lower
port of the sender of an update, or through another neighbour than the one lost. -/
def ties (router : RIPRouter Node) : Event Node -> Bool
  | .linkUp _ _ => false
  | .linkDown src port => router.forwardingTable.entries.any (fun old =>
    old.2.port = port.number ∧ router.routingTable.keys.any (fun nbr =>
      nbr ≠ src ∧ router.distanceVia nbr old.1 = some old.2.distance))
  | .update src paths port => router.forwardingTable.entries.any (fun old =>
    port < old.2.port ∧ (announcedBy paths old.1 = old.2.distance ∨
      router.distanceVia src old.1 = some old.2.distance))

variable {event : Event Node} {dest : Node}

theorem learned_cases {self src : Node} {column : Column Node} {paths : Dict Node Nat}
    {distance : Nat} (new : learned self column src paths dest = some distance) :
    announcedBy paths dest = distance ∨ column.via src = some distance := by
  unfold learned at new
  split at new
  · split at new
    · exact .inl (some.inj new)
    · rename_i known _
      exact .inr (known.trans new)
  · exact .inl (by rw [announcedBy, new, getD_some])

/-- An entry that a silent event moves is tied with the route that takes it. -/
theorem port_kept {router after : RIPRouter Node} (handled : router.Handled event false after)
    (untied : router.ties event = false) {old new : Entry}
    (before : router.forwardingTable.lookup dest = some old)
    (chosen : after.forwardingTable.lookup dest = some new) : new.port = old.port := by
  have listed : (⟨dest, old⟩ : Sigma fun _ : Node => Entry) ∈ router.forwardingTable.entries :=
    AList.mem_lookup_iff.mp before
  cases handled with
  | linkDown removes =>
    rcases removes.entries dest with ⟨here, rerouted, reported⟩
    rw [before, chosen] at rerouted
    generalize bestIs : some new = best at rerouted
    cases rerouted with
    | kept _ => exact congrArg Entry.port (some.inj bestIs)
    | replaced mine shortest =>
      subst bestIs
      rename_i src port
      have quiet : new.distance = old.distance := by simpa [resultOf] using reported
      cases shortest with
      | route _ route _ =>
        rcases route with ⟨nbr, _, through⟩
        have different : nbr ≠ src := by
          rintro rfl
          rw [show (after.column dest).via nbr = _ from removes.via nbr dest, if_pos rfl] at through
          cases through
        rw [show (after.column dest).via nbr = _ from removes.via nbr dest, if_neg different,
          quiet] at through
        have tied : router.ties (.linkDown src port) = true := by
          refine List.any_eq_true.mpr ⟨_, listed, decide_eq_true ⟨number_of_is mine, ?_⟩⟩
          exact List.any_eq_true.mpr ⟨nbr, mem_of_distanceVia through,
            decide_eq_true ⟨different, through⟩⟩
        cases untied.symm.trans tied
  | ignored _ => exact congrArg Entry.port (some.inj (chosen.symm.trans before))
  | update _ _ updates =>
    rcases updates dest with ⟨here, update, reported⟩
    rename_i src paths port _ _
    have entryIs : (after.column dest).entry = some new := chosen
    generalize (after.column dest) = column at update entryIs
    cases update with
    | untouched _ => exact congrArg Entry.port (some.inj (entryIs.symm.trans before))
    | first _ _ _ _ => cases reported rfl
    | refreshed new _ _ refreshed =>
      rw [show (router.column dest).entry = some old from before] at refreshed
      cases refreshed with
      | closer _ | lost _ _ _ => cases reported rfl
      | kept _ _ => exact (congrArg Entry.port (some.inj entryIs)).symm
      | tie same lower =>
        have tied : router.ties (.update src paths port) = true :=
          List.any_eq_true.mpr ⟨_, listed, decide_eq_true ⟨lower, same ▸ learned_cases new⟩⟩
        cases untied.symm.trans tied

/-- An entry after an event that is not reported and moves nothing was there before. -/
theorem entry_known {router after : RIPRouter Node} (specified : router.Handled event false after)
    (untied : router.ties event = false) {entry : Entry}
    (chosen : after.forwardingTable.lookup dest = some entry) :
    router.forwardingTable.lookup dest = some entry := by
  have unreported := specified.unreported dest
  rw [chosen] at unreported
  generalize before : router.forwardingTable.lookup dest = earlier at unreported
  cases unreported with
  | same _ => rfl
  | moved same =>
    rename_i old
    have samePort := port_kept specified untied before chosen
    rcases old with ⟨oldPort, oldDistance⟩
    rcases entry with ⟨port, distance⟩
    cases same
    cases samePort
    rfl

/-- A silent event makes no neighbours. -/
theorem neighbor_known {router after : RIPRouter Node} (handled : router.Handled event false after)
    {nbr : Node} {port : Nat} (known : after.neighbors.lookup nbr = some port) :
    router.neighbors.lookup nbr = some port := by
  cases handled with
  | linkDown removes =>
    rw [removes.neighbors] at known
    split at known
    · cases known
    · exact known
  | ignored _ => exact known
  | update _ shape _ => exact shape.neighbors ▸ known

end RIPRouter

namespace Network

variable {Node : Type} [DecidableEq Node] (isHost : Node -> Bool)

/-- No event of the action ties a route with an entry. -/
def untied (network : Network Node) (action : Action Node) : Bool :=
  (network.events action).all (fun handling => !(network.routers handling.1).ties handling.2)

/-- Every router was last told about the entries of its neighbours as they are. -/
structure Current (network : Network Node) : Prop where
  consistent : Consistent isHost (fun _ => False) network
  lastTold : ∀ sender receiver port, isHost receiver = false ->
    (network.routers sender).neighbors.lookup receiver = some port ->
    ∀ dest entry, dest ≠ receiver ->
      (network.routers sender).forwardingTable.lookup dest = some entry ->
      network.told sender receiver dest =
        some (RIPRouter.stretch (RIPRouter.advertised port entry))

theorem current_initial : Current isHost (initial : Network Node) := by
  refine ⟨consistent_initial isHost, ?_⟩
  intro sender receiver port _ onPort
  cases onPort

theorem Current.step {network after : Network Node} {action : Action Node}
    (current : Current isHost network) (stepped : Step isHost network action after)
    (cached : network.cached action = true) (untied : network.untied action = true) :
    Current isHost after := by
  have consistent := current.consistent.step stepped cached
  refine ⟨consistent, ?_⟩
  intro sender receiver port notHost onPort dest entry different chosen
  have link := (consistent.wired sender id).linked receiver port onPort
  have linked : (after.links sender).lookup receiver ≠ none := by
    rw [link]
    exact some_ne_none _
  have apart : receiver ≠ sender := by
    rintro rfl
    cases (consistent.loopless receiver).symm.trans link
  have foreign : dest ≠ sender := by
    rintro rfl
    have noEntry := (consistent.wired dest id).noEntry
    rw [consistent.self dest, chosen] at noEntry
    cases noEntry
  have before := current.lastTold sender receiver port notHost
  cases telling_step current.consistent notHost apart linked stepped cached with
  | heard same fills =>
    rw [same] at onPort chosen
    have known := before onPort dest entry different chosen
    rcases fills dest foreign with unchanged | ⟨missing, _⟩
    · rw [unchanged, known]
    · cases missing.symm.trans known
  | silent member other handled same =>
    have specified := handled_of_event isHost current.consistent member handled
    rw [same dest]
    exact before (RIPRouter.neighbor_known specified onPort) dest entry different
      (RIPRouter.entry_known specified (by simpa using List.all_eq_true.mp untied _ member) chosen)
  | announced member other handled new =>
    rw [new dest, retold, onPort]
    simp only
    rw [RIPRouter.lookup_vectorFor, if_neg different, chosen]
    rfl

omit [DecidableEq Node] in
theorem lastPaths_none {packets : List (Packet Node)}
    (noUpdate : ∀ src update, Packet.update src update ∉ packets) :
    lastPaths packets = none := by
  induction packets with
  | nil => rfl
  | cons packet rest ih =>
    cases packet with
    | linkUp src =>
      exact ih (fun src update member => noUpdate src update (mem_cons_of_mem _ member))
    | update src update => exact absurd mem_cons_self (noUpdate src update)

theorem stretch_advertised {port : Nat} {entry : Entry}
    (bound : entry.distance <= POSITIVE_INFINITY) :
    RIPRouter.stretch (RIPRouter.advertised port entry) =
      if entry.port = port then POSITIVE_INFINITY
      else min (entry.distance + 1) POSITIVE_INFINITY := by
  unfold RIPRouter.stretch RIPRouter.advertised
  by_cases poisoned : entry.port = port
  · simp [poisoned]
  · simp only [if_neg poisoned]
    split <;> omega

/-- In every run in which no event ties a route with an entry, and the port of each lost link
is recognised, whenever no update is under way, the row of a router for a neighbour is what
poison reverse makes of the forwarding table of that neighbour. -/
theorem rows_poisoned {actions : List (Action Node)} {network : Network Node}
    (run : Run (fun before action after => Step isHost before action after ∧
      (before.cached action && before.untied action) = true) initial actions network)
    (settled : ∀ sender receiver src update,
      Packet.update src update ∉ network.channel sender receiver)
    {node other : Node} {port : Nat} (router : isHost other = false)
    (adjacent : (network.routers node).neighbors.lookup other = some port)
    {dest : Node} {entry : Entry} (foreign : dest ≠ other)
    (chosen : (network.routers node).forwardingTable.lookup dest = some entry) :
    (network.routers other).distanceVia node dest =
      some (if entry.port = port then POSITIVE_INFINITY
        else min (entry.distance + 1) POSITIVE_INFINITY) := by
  have current : Current isHost network :=
    run.invariant (fun before stepped => before.step isHost stepped.1
      (Bool.and_eq_true_iff.mp stepped.2).1 (Bool.and_eq_true_iff.mp stepped.2).2)
      (current_initial isHost)
  have heard := current.lastTold node other port router adjacent dest entry foreign chosen
  rw [told, lastKnown_none (lastPaths_none (settled node other))] at heard
  rw [heard, stretch_advertised ((current.consistent.wired node id).bounds chosen).2]

/-- Two routers, and the host behind one of them. -/
def hostAway : List (Action Site) :=
  [.linkUp .a .b 0 0, .linkUp .b .host 1 0, .deliver .a .b, .deliver .b .a, .deliver .b .a,
    .deliver .host .b, .deliver .b .host, .deliver .b .a, .deliver .a .b, .deliver .a .b]

theorem rows_poisoned_hostAway :
    ∃ labels network, execute (take Site.hosts fun before action =>
        before.cached action && before.untied action) initial hostAway =
        some (labels, network) ∧
      (network.routers .b).distanceVia .a .host = some POSITIVE_INFINITY := by
  have outcome : (execute (take Site.hosts fun before action =>
        before.cached action && before.untied action) initial hostAway).map (fun result =>
      (result.2.idle, (result.2.routers .a).neighbors.lookup .b,
        (result.2.routers .a).forwardingTable.lookup .host)) =
        some (true, some 0, some ⟨0, 2⟩) := by
    decide +kernel
  rcases map_eq_some_iff.mp outcome with ⟨⟨labels, network⟩, done, same⟩
  simp only [Prod.mk.injEq] at same
  rcases same with ⟨nothing, adjacent, chosen⟩
  refine ⟨labels, network, done, rows_poisoned _ (run_of_take _ done) ?_ rfl adjacent
    (by decide) chosen⟩
  intro sender receiver src update member
  rw [channel_of_idle nothing] at member
  cases member

/-- Router `a` forwards through router `c` to the host, and has told router `b`
so; then the host is linked to router `b` as well. -/
def secondLink : List (Action Site) :=
  [.linkUp .a .b 0 0, .linkUp .a .c 1 0, .linkUp .c .host 1 0, .deliver .a .b, .deliver .a .c,
    .deliver .b .a, .deliver .a .b, .deliver .b .a, .deliver .c .a, .deliver .a .b,
    .deliver .a .c, .deliver .b .a, .deliver .c .a, .deliver .c .a, .deliver .c .host,
    .deliver .host .c, .deliver .c .a, .deliver .a .b, .deliver .a .c, .deliver .b .a,
    .linkUp .b .host 1 1, .deliver .b .host, .deliver .host .b, .deliver .b .a]

/-- Router `a` moves to router `b`, whose row still has the old distance. -/
theorem equal_route_not_poisoned :
    ∃ actions network, Run (Step Site.hosts) initial actions network ∧
      (∀ sender receiver, network.channel sender receiver = []) ∧
      (network.routers .a).neighbors.lookup .b = some 0 ∧
      (network.routers .b).neighbors.lookup .a = some 0 ∧
      (network.routers .a).forwardingTable.lookup .host = some ⟨0, 2⟩ ∧
      (network.routers .b).distanceVia .a .host = some 3 := by
  have outcome : (execute (take Site.hosts (fun _ _ => true)) initial secondLink).map (fun result =>
      (result.2.idle, (result.2.routers .a).neighbors.lookup .b,
        (result.2.routers .b).neighbors.lookup .a,
        (result.2.routers .a).forwardingTable.lookup .host,
        (result.2.routers .b).distanceVia .a .host)) =
      some (true, some 0, some 0, some ⟨0, 2⟩, some 3) := by
    decide +kernel
  rcases map_eq_some_iff.mp outcome with ⟨⟨labels, network⟩, done, same⟩
  simp only [Prod.mk.injEq] at same
  rcases same with ⟨nothing, adjacent, back, chosen, row⟩
  exact ⟨labels, network, (run_of_take _ done).mono And.left, channel_of_idle nothing,
    adjacent, back, chosen, row⟩

end Network

end RipRouter
end Codebank
