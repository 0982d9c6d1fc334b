import Codebank.RipRouter.Network

namespace Codebank
namespace RipRouter

open Foundation List Option Function AList

/-!
# Routers on their links

The tables of every router fit the links of the network, whatever is under way:
its neighbours are nodes at the other end of links, on the ports of these links,
and it has no route to itself.  Packets on a link are from one end for the other.
-/

namespace RIPRouter

variable {Node : Type} [DecidableEq Node] {links : Dict Node Nat} {router after : RIPRouter Node}
  {src : Node}

/-- A router whose tables fit the links of its node. -/
structure Wired (links : Dict Node Nat) (router : RIPRouter Node) : Prop where
  valid : Valid router
  linked : Network.Linked links router
  noRoute : ∀ nbr, router.distanceVia nbr router.self = none
  noEntry : router.forwardingTable.lookup router.self = none

theorem Wired.notNeighbor (wired : Wired links router) :
    router.neighbors.lookup router.self = none := by
  cases known : router.neighbors.lookup router.self with
  | none => rfl
  | some port => cases wired.noEntry.symm.trans (wired.valid.direct _ port known)

theorem wired_new (self : Node) : Wired ∅ (new self) := by
  refine ⟨valid_new self, ?_, fun _ => rfl, rfl⟩
  intro nbr port onPort
  simp [new] at onPort

/-- Only the links of neighbours matter. -/
theorem Wired.relink {other : Dict Node Nat} (wired : Wired links router)
    (kept : ∀ nbr port, router.neighbors.lookup nbr = some port ->
      links.lookup nbr = some port -> other.lookup nbr = some port) : Wired other router :=
  { wired with
    linked := fun nbr port onPort =>
      kept nbr port onPort (wired.linked nbr port onPort) }

variable {port : Nat}

theorem Wired.added (wired : Wired links router) (own : Network.OwnPorts links)
    (link : links.lookup src = some port) (fresh : router.neighbors.lookup src = none)
    (other : src ≠ router.self) (adds : Adds src port router after) : Wired links after := by
  have freePort : ∀ nbr, router.neighbors.lookup nbr ≠ some port := by
    intro nbr onPort
    rw [own nbr src port (wired.linked nbr port onPort) link, fresh] at onPort
    cases onPort
  refine ⟨wired.valid.added fresh freePort adds, ?_, ?_, ?_⟩
  · intro nbr number onPort
    rw [adds.neighbors, lookup_insert_if] at onPort
    by_cases same : nbr = src
    · rw [if_pos same] at onPort
      rw [same, link, onPort]
    · rw [if_neg same] at onPort
      exact wired.linked nbr number onPort
  · intro nbr
    rw [adds.self]
    by_cases same : nbr = src
    · have notNeighbor : router.self ∉ router.neighbors.keys :=
        mt AList.mem_keys.mpr (lookup_eq_none.mp wired.notNeighbor)
      rw [same, adds.through _ other.symm, if_neg notNeighbor]
    · rw [adds.others nbr _ same other.symm]
      exact wired.noRoute nbr
  · rw [adds.self, adds.entries _ other.symm]
    exact wired.noEntry

theorem Wired.removed {changed : Bool} {port : PortNumber} (wired : Wired links router)
    (cached : port.is port.number = true) (own : Network.OwnPorts links)
    (link : links.lookup src = some port.number) (removes : Removes src port changed router after) :
    Wired (links.erase src) after := by
  refine ⟨wired.valid.removed cached ?_ ?_ removes, ?_, ?_, ?_⟩
  · intro number onPort
    exact some.inj ((wired.linked src number onPort).symm.trans link)
  · intro nbr onPort
    exact own nbr src port.number (wired.linked nbr port.number onPort) link
  · intro nbr number onPort
    rw [removes.neighbors] at onPort
    rw [lookup_erase_if]
    split at onPort
    · cases onPort
    · rename_i different
      rw [if_neg different]
      exact wired.linked nbr number onPort
  · intro nbr
    rw [removes.via, removes.self, wired.noRoute]
    split <;> rfl
  · rcases removes.entries router.self with ⟨_, rerouted, _⟩
    rw [wired.noEntry] at rerouted
    rw [removes.self]
    generalize after.forwardingTable.lookup router.self = entry at rerouted
    cases rerouted with
    | kept _ => rfl

theorem Wired.updated {paths : Dict Node Nat} {changed : Bool} (wired : Wired links router)
    (link : links.lookup src = some port) (unnamed : paths.lookup router.self = none)
    (positive : ∀ path, path ∈ paths.entries -> 1 <= path.2)
    (handled : Handled router (.update src paths port) changed after) : Wired links after := by
  cases handled with
  | ignored _ => exact wired
  | update known shape updates =>
    have onPort : router.neighbors.lookup src = some port := by
      rcases isSome_iff_exists.mp
        (lookup_isSome.mpr ((wired.valid.rows src).mp known)) with ⟨number, onPort⟩
      rw [onPort, <- link, wired.linked src number onPort]
    have nothing : learned router.self (router.column router.self) src paths router.self =
        none := by
      have noRoute : (router.column router.self).via src = none := wired.noRoute src
      unfold learned
      rw [noRoute, unnamed]
      rfl
    have sameColumn : after.column router.self = router.column router.self := by
      rcases updates router.self with ⟨_, update, _⟩
      generalize after.column router.self = column at update
      cases update with
      | untouched _ => rfl
      | first new _ _ _ | refreshed new _ _ _ => cases nothing.symm.trans new
    refine ⟨wired.valid.updated onPort (positive_of_entries positive) shape ?_, ?_, ?_, ?_⟩
    · intro dest
      rcases updates dest with ⟨here, update, _⟩
      exact ⟨here, update⟩
    · intro nbr number
      rw [shape.neighbors]
      exact wired.linked nbr number
    · intro nbr
      rw [shape.self]
      exact (congrFun (congrArg Column.via sameColumn) nbr).trans (wired.noRoute nbr)
    · rw [shape.self]
      exact (congrArg Column.entry sameColumn).trans wired.noEntry

/-! ## The vectors that are announced -/

/-- What an entry is announced as to the neighbour at a port. -/
def advertised (port : Nat) (entry : Entry) : Nat :=
  if entry.port = port then POSITIVE_INFINITY else entry.distance

theorem lookup_addDestination (nbr : Node) (port : Nat) (paths : Dict Node Nat) (dst : Node)
    (entry : Entry) (dest : Node) :
    (addDestination nbr port paths dst entry).lookup dest =
      if dest = dst ∧ dst ≠ nbr then some (advertised port entry) else paths.lookup dest := by
  unfold addDestination advertised
  by_cases self : dst = nbr
  · simp [self]
  · by_cases poisoned : entry.port = port <;>
      simp [self, poisoned, lookup_insert_if]

theorem lookup_vectorFor (router : RIPRouter Node) (nbr : Node) (port : Nat) (dest : Node) :
    (router.vectorFor nbr port).lookup dest =
      if dest = nbr then none
      else (router.forwardingTable.lookup dest).map (advertised port) := by
  have looped : ∀ (entries : List (Sigma (fun _ : Node => Entry))) (paths : Dict Node Nat),
      entries.NodupKeys ->
      (entries.foldl (fun paths entry => addDestination nbr port paths entry.1 entry.2)
          paths).lookup dest =
        if dest = nbr then paths.lookup dest
        else ((entries.dlookup dest).map (advertised port)).or (paths.lookup dest) := by
    intro entries
    induction entries with
    | nil =>
      intro paths _
      simp
    | cons entry rest ih =>
      intro paths distinct
      rcases nodupKeys_cons.mp distinct with ⟨absent, distinctRest⟩
      rw [foldl_cons, ih _ distinctRest, lookup_addDestination]
      by_cases self : dest = nbr
      · subst self
        have kept : ¬ (dest = entry.1 ∧ entry.1 ≠ dest) := fun both => both.2 both.1.symm
        rw [if_pos rfl, if_pos rfl, if_neg kept]
      · rw [if_neg self, if_neg self]
        by_cases same : dest = entry.1
        · subst same
          rw [if_pos ⟨rfl, self⟩, dlookup_eq_none.mpr absent, dlookup_cons_eq]
          rfl
        · rw [if_neg (fun both => same both.1), dlookup_cons_ne _ _ same]
  refine (looped router.forwardingTable.entries ∅ router.forwardingTable.nodupKeys).trans ?_
  rw [lookup_empty, or_none]
  rfl

theorem Wired.bounds (wired : Wired links router) {dest : Node} {entry : Entry}
    (chosen : router.forwardingTable.lookup dest = some entry) :
    1 <= entry.distance ∧ entry.distance <= POSITIVE_INFINITY := by
  rcases wired.valid.backed dest entry chosen with ⟨nbr, _, through⟩
  change router.distanceVia nbr dest = _ at through
  by_cases same : dest = nbr
  · subst same
    rw [wired.valid.near dest (mem_of_distanceVia through)] at through
    rw [<- some.inj through]
    decide
  · rcases wired.valid.far nbr dest _ same through with ⟨far, bounded⟩
    exact ⟨Nat.le_of_succ_le far, bounded⟩

theorem Wired.vector_positive (wired : Wired links router) (nbr : Node) (port : Nat) :
    ∀ path, path ∈ (router.vectorFor nbr port).entries -> 1 <= path.2 := by
  rintro ⟨dest, distance⟩ member
  have announced := mem_lookup_iff.mpr member
  rw [mem_def, lookup_vectorFor] at announced
  split at announced
  · cases announced
  · rcases map_eq_some_iff.mp announced with ⟨entry, chosen, rfl⟩
    change 1 <= advertised port entry
    unfold advertised
    split
    · decide
    · exact (wired.bounds chosen).1

end RIPRouter

namespace Network

variable {Node : Type} [DecidableEq Node] (isHost : Node -> Bool)

/-- A packet is from one end of its link for the other. -/
def Addressed (sender receiver : Node) : Packet Node -> Prop
  | .linkUp src => src = sender
  | .update src update => src = sender ∧ update.dst = receiver ∧
      update.paths.lookup receiver = none ∧ ∀ path, path ∈ update.paths.entries -> 1 <= path.2

open Packet (linkUp)

/-- What holds in every state of the network.  Between the handlers of one
event, the tables of `stale` nodes need not fit their links. -/
structure Consistent (stale : Node -> Prop) (network : Network Node) : Prop where
  self : ∀ node, (network.routers node).self = node
  hosts : ∀ node, isHost node = true -> network.routers node = RIPRouter.new node
  wired : ∀ node, ¬ stale node -> (network.routers node).Wired (network.links node)
  ownPorts : ∀ node, OwnPorts (network.links node)
  loopless : ∀ node, (network.links node).lookup node = none
  symmetric : ∀ node other,
    (network.links node).lookup other = none -> (network.links other).lookup node = none
  quiet : ∀ sender receiver,
    (network.links sender).lookup receiver = none -> network.channel sender receiver = []
  addressed : ∀ sender receiver packet,
    packet ∈ network.channel sender receiver -> Addressed sender receiver packet
  first : ∀ sender receiver src,
    linkUp src ∉ (network.channel sender receiver).tail
  unknown : ∀ sender receiver src, ¬ stale receiver ->
    linkUp src ∈ network.channel sender receiver ->
    (network.routers receiver).neighbors.lookup sender = none
  awaited : ∀ sender receiver, ¬ stale receiver -> isHost receiver = false ->
    (network.links receiver).lookup sender ≠ none ->
    (network.routers receiver).neighbors.lookup sender = none ->
    ∃ src rest, network.channel sender receiver = linkUp src :: rest

theorem consistent_initial : Consistent isHost (fun _ => False) (initial : Network Node) where
  self _ := rfl
  hosts _ _ := rfl
  wired node _ := RIPRouter.wired_new node
  ownPorts node other another port link _ := by
    change (∅ : Dict Node Nat).lookup other = _ at link
    rw [lookup_empty] at link
    cases link
  loopless _ := rfl
  symmetric _ _ _ := rfl
  quiet _ _ _ := rfl
  addressed _ _ _ member := by cases member
  first _ _ _ member := by cases member
  unknown _ _ _ _ member := by cases member
  awaited _ _ _ _ linked _ := absurd rfl linked

/-! ## Handlers -/

variable {node : Node} {packet : Packet Node} {receiver : Node}

theorem mem_announcement {router : RIPRouter Node}
    (member : packet ∈ announcement isHost router node receiver) :
    ∃ port, isHost receiver = false ∧ router.neighbors.lookup receiver = some port ∧
      packet = .update node ⟨receiver, router.vectorFor receiver port⟩ := by
  unfold announcement at member
  split at member
  · cases member
  · rename_i notHost
    rw [mem_toList] at member
    rcases map_eq_some_iff.mp member with ⟨port, onPort, same⟩
    exact ⟨port, Bool.eq_false_iff.mpr notHost, onPort, same.symm⟩

variable {network : Network Node} {event : RIPRouter.Event Node} {after : Network Node}
  {sender : Node} {changed : Bool}

theorem mem_sent (handling : Handling isHost node event changed network after)
    (member : packet ∈ after.channel sender receiver) :
    packet ∈ network.channel sender receiver ∨
      sender = node ∧ packet ∈ announcement isHost (after.routers node) node receiver := by
  by_cases same : sender = node
  · subst same
    rw [handling.sent, mem_append] at member
    rcases member with earlier | sent
    · exact .inl earlier
    · split at sent
      · exact .inr ⟨rfl, sent⟩
      · cases sent
  · rw [handling.channel sender receiver same] at member
    exact .inl member

omit [DecidableEq Node] in
theorem mem_tail_append {earlier later : List (Packet Node)}
    (member : packet ∈ (earlier ++ later).tail) : packet ∈ earlier.tail ∨ packet ∈ later := by
  cases earlier with
  | nil => exact .inr (mem_of_mem_tail member)
  | cons _ rest => exact mem_append.mp member

variable {stale : Node -> Prop}

section

variable (consistent : Consistent isHost stale network)

include consistent

/-- A handler that leaves tables that fit the links makes its node up to date. -/
theorem Consistent.handling (router : isHost node = false)
    (handling : Handling isHost node event changed network after)
    (self : (after.routers node).self = node)
    (wired : (after.routers node).Wired (network.links node))
    (unknown : ∀ sender src, linkUp src ∈ network.channel sender node ->
      (after.routers node).neighbors.lookup sender = none)
    (awaited : ∀ sender, (network.links node).lookup sender ≠ none ->
      (after.routers node).neighbors.lookup sender = none ->
      ∃ src rest, network.channel sender node = linkUp src :: rest) :
    Consistent isHost (fun other => stale other ∧ other ≠ node) after where
  self other := by
    by_cases same : other = node
    · rw [same]
      exact self
    · rw [handling.routers other same]
      exact consistent.self other
  hosts other host := by
    have different : other ≠ node := by
      rintro rfl
      rw [router] at host
      cases host
    rw [handling.routers other different]
    exact consistent.hosts other host
  wired other fresh := by
    rw [handling.links]
    by_cases same : other = node
    · rw [same]
      exact wired
    · rw [handling.routers other same]
      exact consistent.wired other (fun old => fresh ⟨old, same⟩)
  ownPorts := by
    rw [handling.links]
    exact consistent.ownPorts
  loopless := by
    rw [handling.links]
    exact consistent.loopless
  symmetric := by
    rw [handling.links]
    exact consistent.symmetric
  quiet sender receiver unlinked := by
    rw [handling.links] at unlinked
    have before := consistent.quiet sender receiver unlinked
    refine eq_nil_iff_forall_not_mem.mpr (fun packet member => ?_)
    rcases mem_sent isHost handling member with earlier | ⟨rfl, sent⟩
    · rw [before] at earlier
      cases earlier
    · rcases mem_announcement isHost sent with ⟨port, _, onPort, _⟩
      cases unlinked.symm.trans (wired.linked receiver port onPort)
  addressed sender receiver packet member := by
    rcases mem_sent isHost handling member with earlier | ⟨rfl, sent⟩
    · exact consistent.addressed sender receiver packet earlier
    · rcases mem_announcement isHost sent with ⟨port, _, _, rfl⟩
      refine ⟨rfl, rfl, ?_, wired.vector_positive receiver port⟩
      rw [RIPRouter.lookup_vectorFor, if_pos rfl]
  first sender receiver src member := by
    by_cases same : sender = node
    · subst same
      rw [handling.sent] at member
      rcases mem_tail_append member with earlier | sent
      · exact consistent.first sender receiver src earlier
      · split at sent
        · rcases mem_announcement isHost sent with ⟨_, _, _, different⟩
          cases different
        · cases sent
    · rw [handling.channel sender receiver same] at member
      exact consistent.first sender receiver src member
  unknown sender receiver src fresh member := by
    rcases mem_sent isHost handling member with earlier | ⟨_, sent⟩
    · by_cases same : receiver = node
      · subst same
        exact unknown sender src earlier
      · rw [handling.routers receiver same]
        exact consistent.unknown sender receiver src (fun old => fresh ⟨old, same⟩) earlier
    · rcases mem_announcement isHost sent with ⟨_, _, _, different⟩
      cases different
  awaited sender receiver fresh notHost linked missing := by
    rw [handling.links] at linked
    have stillFirst : ∀ src rest, network.channel sender receiver = linkUp src :: rest ->
        ∃ src rest, after.channel sender receiver = linkUp src :: rest := by
      intro src rest waiting
      by_cases same : sender = node
      · subst same
        rw [handling.sent, waiting]
        exact ⟨src, _, rfl⟩
      · rw [handling.channel sender receiver same]
        exact ⟨src, rest, waiting⟩
    by_cases same : receiver = node
    · subst same
      rcases awaited sender linked missing with ⟨src, rest, waiting⟩
      exact stillFirst src rest waiting
    · rw [handling.routers receiver same] at missing
      rcases consistent.awaited sender receiver (fun old => fresh ⟨old, same⟩) notHost linked
        missing with ⟨src, rest, waiting⟩
      exact stillFirst src rest waiting

theorem Consistent.apart {port : Nat} (link : (network.links receiver).lookup sender = some port) :
    sender ≠ receiver := by
  rintro rfl
  cases (consistent.loopless sender).symm.trans link

theorem Consistent.weaken {other : Node -> Prop} (fewer : ∀ node, stale node -> other node) :
    Consistent isHost other network :=
  { consistent with
    wired := fun node fresh => consistent.wired node (mt (fewer node) fresh)
    unknown := fun sender receiver src fresh =>
      consistent.unknown sender receiver src (mt (fewer receiver) fresh)
    awaited := fun sender receiver fresh =>
      consistent.awaited sender receiver (mt (fewer receiver) fresh) }

/-- Hosts are never out of date. -/
theorem Consistent.host (host : isHost node = true) :
    Consistent isHost (fun other => stale other ∧ other ≠ node) network := by
  have new := consistent.hosts node host
  refine { consistent with wired := ?_, unknown := ?_, awaited := ?_ }
  · intro other fresh
    by_cases same : other = node
    · subst same
      rw [new]
      refine ⟨RIPRouter.valid_new other, fun nbr port onPort => ?_, fun _ => rfl, rfl⟩
      simp [RIPRouter.new] at onPort
    · exact consistent.wired other (fun old => fresh ⟨old, same⟩)
  · intro sender receiver src fresh member
    by_cases same : receiver = node
    · subst same
      rw [new]
      rfl
    · exact consistent.unknown sender receiver src (fun old => fresh ⟨old, same⟩) member
  · intro sender receiver fresh notHost
    have different : receiver ≠ node := by
      rintro rfl
      cases host.symm.trans notHost
    exact consistent.awaited sender receiver (fun old => fresh ⟨old, different⟩) notHost

end

/-- A handler at a router, or none at a host. -/
def Handles (node : Node) (event : RIPRouter.Event Node) (network after : Network Node) : Prop :=
  isHost node = true ∧ after = network ∨
    isHost node = false ∧ ∃ changed, Handling isHost node event changed network after

section

variable {isHost} {node : Node} {event : RIPRouter.Event Node} {network after : Network Node}

section

variable (handles : Handles isHost node event network after)

include handles

theorem Handles.links : after.links = network.links := by
  rcases handles with ⟨_, rfl⟩ | ⟨_, _, handling⟩
  · rfl
  · exact handling.links

theorem Handles.routers {other : Node} (different : other ≠ node) :
    after.routers other = network.routers other := by
  rcases handles with ⟨_, rfl⟩ | ⟨_, _, handling⟩
  · rfl
  · exact handling.routers other different

theorem Handles.channel {sender : Node} (different : sender ≠ node) (receiver : Node) :
    after.channel sender receiver = network.channel sender receiver := by
  rcases handles with ⟨_, rfl⟩ | ⟨_, _, handling⟩
  · rfl
  · exact handling.channel sender receiver different

end

end

theorem Consistent.handles (consistent : Consistent isHost stale network)
    (fine : ∀ changed next, (network.routers node).handleRx event = some (changed, next) ->
      next.self = node ∧ next.Wired (network.links node) ∧
        (∀ sender src, linkUp src ∈ network.channel sender node ->
          next.neighbors.lookup sender = none) ∧
        ∀ sender, (network.links node).lookup sender ≠ none ->
          next.neighbors.lookup sender = none -> isHost node = false ->
          ∃ src rest, network.channel sender node = linkUp src :: rest)
    (stepped : network.handle isHost node event = some after) :
    Handles isHost node event network after ∧
      Consistent isHost (fun other => stale other ∧ other ≠ node) after := by
  cases kind : isHost node with
  | true =>
    have same : after = network := by
      rw [handle, if_pos kind] at stepped
      exact (some.inj stepped).symm
    subst same
    exact ⟨.inl ⟨kind, rfl⟩, consistent.host isHost kind⟩
  | false =>
    have handled : ∃ changed, Handling isHost node event changed network after := by
      refine handle_spec isHost kind (consistent.ownPorts node) ?_ stepped
      intro changed next handled
      rcases fine changed next handled with ⟨_, wired, _⟩
      exact ⟨wired.valid, wired.linked⟩
    rcases handled with ⟨changed, handling⟩
    rcases fine changed _ handling.handled with ⟨self, wired, unknown, awaited⟩
    exact ⟨.inr ⟨kind, changed, handling⟩,
      consistent.handling isHost kind handling self wired unknown
        (fun sender linked missing => awaited sender linked missing kind)⟩

/-! ## Links that come up -/

/-- The two ends of a link, in either order. -/
def Ends (node other first second : Node) : Prop :=
  first = node ∧ second = other ∨ first = other ∧ second = node

instance (node other first second : Node) : Decidable (Ends node other first second) :=
  inferInstanceAs (Decidable (_ ∨ _))

omit [DecidableEq Node] in
theorem Ends.symm {other first second : Node} (ends : Ends node other first second) :
    Ends node other second first :=
  ends.elim (fun both => .inr both.symm) (fun both => .inl both.symm)

section

variable (network : Network Node) {node other : Node} (port otherPort : Nat)

theorem links_connect (first : Node) :
    (network.connect node other port otherPort).links first =
      if first = other then (network.links other).insert node otherPort
      else if first = node then (network.links node).insert other port
      else network.links first := by
  change Function.update (Function.update network.links node _) other _ first = _
  rw [update_apply, update_apply]

theorem lookup_connect (different : node ≠ other) (first second : Node) :
    ((network.connect node other port otherPort).links first).lookup second =
      if first = node ∧ second = other then some port
      else if first = other ∧ second = node then some otherPort
      else (network.links first).lookup second := by
  rw [links_connect]
  by_cases atOther : first = other
  · subst atOther
    have notNode : first ≠ node := fun same => different same.symm
    simp [notNode, lookup_insert_if]
  · by_cases atNode : first = node
    · subst atNode
      simp [atOther, lookup_insert_if]
    · simp [atOther, atNode]

theorem channel_connect (different : node ≠ other) (sender receiver : Node) :
    (network.connect node other port otherPort).channel sender receiver =
      if Ends node other sender receiver then
        network.channel sender receiver ++ [.linkUp sender]
      else network.channel sender receiver := by
  unfold connect push
  rw [channel_setChannel, channel_setChannel, channel_setChannel]
  change (if sender = other ∧ receiver = node then
      (if other = node ∧ node = other then network.channel node other ++ [linkUp node]
        else network.channel other node) ++ [linkUp other]
    else if sender = node ∧ receiver = other then network.channel node other ++ [linkUp node]
      else network.channel sender receiver) = _
  unfold Ends
  by_cases back : sender = other ∧ receiver = node
  · rcases back with ⟨rfl, rfl⟩
    simp [different]
  · by_cases forth : sender = node ∧ receiver = other
    · rcases forth with ⟨rfl, rfl⟩
      simp [different]
    · simp [back, forth]

variable {network} {port otherPort}

theorem Consistent.connect (consistent : Consistent isHost (fun _ => False) network)
    (different : node ≠ other) (free : (network.links node).lookup other = none)
    (otherFree : (network.links other).lookup node = none)
    (freePort : ∀ nbr, (network.links node).lookup nbr ≠ some port)
    (otherFreePort : ∀ nbr, (network.links other).lookup nbr ≠ some otherPort) :
    Consistent isHost (fun _ => False) (network.connect node other port otherPort) := by
  have lookup := lookup_connect network port otherPort different
  have kept {first second : Node} (notEnds : ¬ Ends node other first second) :
      ((network.connect node other port otherPort).links first).lookup second =
        (network.links first).lookup second := by
    rw [lookup, if_neg (fun both => notEnds (.inl both)),
      if_neg (fun both => notEnds (.inr both))]
  have older {first second : Node} (missing : ((network.connect node other port otherPort).links
      first).lookup second = none) :
      ¬ Ends node other first second ∧ (network.links first).lookup second = none := by
    rw [lookup] at missing
    split_ifs at missing with forth back
    exact ⟨fun ends => ends.elim forth back, missing⟩
  have channel := channel_connect network port otherPort different
  have unlinked : ∀ sender receiver, Ends node other sender receiver ->
      (network.links sender).lookup receiver = none := by
    rintro sender receiver (⟨rfl, rfl⟩ | ⟨rfl, rfl⟩)
    · exact free
    · exact otherFree
  constructor
  · exact consistent.self
  · exact consistent.hosts
  · intro first _
    refine (consistent.wired first id).relink (fun nbr number _ link => ?_)
    rw [kept]
    · exact link
    · intro ends
      cases (unlinked first nbr ends).symm.trans link
  · intro first
    rw [links_connect]
    split
    · exact RIPRouter.ports_insert (consistent.ownPorts other) otherFreePort
    · split
      · exact RIPRouter.ports_insert (consistent.ownPorts node) freePort
      · exact consistent.ownPorts first
  · intro first
    rw [kept]
    · exact consistent.loopless first
    · rintro (⟨rfl, same⟩ | ⟨rfl, same⟩)
      · exact different same
      · exact different same.symm
  · intro first second missing
    rcases older missing with ⟨notEnds, before⟩
    rw [kept (fun ends => notEnds ends.symm)]
    exact consistent.symmetric first second before
  · intro sender receiver missing
    rcases older missing with ⟨notEnds, before⟩
    rw [channel, if_neg notEnds]
    exact consistent.quiet sender receiver before
  · intro sender receiver packet member
    rw [channel] at member
    split at member
    · rcases mem_append.mp member with earlier | new
      · exact consistent.addressed sender receiver packet earlier
      · rw [mem_singleton.mp new]
        rfl
    · exact consistent.addressed sender receiver packet member
  · intro sender receiver src member
    rw [channel] at member
    split at member
    · rename_i ends
      rw [consistent.quiet sender receiver (unlinked sender receiver ends)] at member
      cases member
    · exact consistent.first sender receiver src member
  · intro sender receiver src _ member
    rw [channel] at member
    split at member
    · rename_i ends
      cases onPort : (network.routers receiver).neighbors.lookup sender with
      | none => exact onPort
      | some number =>
        have missing := unlinked receiver sender ends.symm
        cases missing.symm.trans ((consistent.wired receiver id).linked sender number onPort)
    · exact consistent.unknown sender receiver src id member
  · intro sender receiver _ notHost linked missing
    rw [channel]
    split
    · rename_i ends
      rw [consistent.quiet sender receiver (unlinked sender receiver ends)]
      exact ⟨sender, [], rfl⟩
    · rename_i notEnds
      rw [kept (fun ends => notEnds ends.symm)] at linked
      exact consistent.awaited sender receiver id notHost linked missing

end

/-! ## Links that go down -/

variable {network after : Network Node} {node other : Node}

theorem links_disconnect (network : Network Node) (node other first : Node) :
    (network.disconnect node other).links first =
      if first = other then (network.links other).erase node
      else if first = node then (network.links node).erase other
      else network.links first := by
  change Function.update (Function.update network.links node _) other _ first = _
  rw [update_apply, update_apply]

theorem lookup_disconnect (network : Network Node) (different : node ≠ other)
    (first second : Node) :
    ((network.disconnect node other).links first).lookup second =
      if Ends node other first second then none else (network.links first).lookup second := by
  rw [links_disconnect]
  unfold Ends
  by_cases atOther : first = other
  · subst atOther
    have notNode : first ≠ node := fun same => different same.symm
    simp [notNode, lookup_erase_if]
  · by_cases atNode : first = node
    · subst atNode
      simp [atOther, lookup_erase_if]
    · simp [atOther, atNode]

theorem channel_disconnect (network : Network Node) (node other sender receiver : Node) :
    (network.disconnect node other).channel sender receiver =
      if Ends node other sender receiver then [] else network.channel sender receiver := by
  unfold disconnect
  rw [channel_setChannel, channel_setChannel]
  change (if _ then [] else if _ then [] else network.channel sender receiver) = _
  unfold Ends
  by_cases back : sender = other ∧ receiver = node
  · simp [back]
  · by_cases forth : sender = node ∧ receiver = other
    · simp [forth]
    · simp [back, forth]

section

variable (consistent : Consistent isHost (fun _ => False) network)

include consistent

/-- Without the link, only the tables of its two ends are out of date. -/
theorem Consistent.disconnect (different : node ≠ other) :
    Consistent isHost (fun stale => stale = node ∨ stale = other)
      (network.disconnect node other) := by
  have lookup := lookup_disconnect network different
  have channel := channel_disconnect network node other
  have inChannel : ∀ sender receiver packet,
      packet ∈ (network.disconnect node other).channel sender receiver ->
      packet ∈ network.channel sender receiver := by
    intro sender receiver packet member
    rw [channel] at member
    split at member
    · cases member
    · exact member
  constructor
  · exact consistent.self
  · exact consistent.hosts
  · intro first fresh
    rw [not_or] at fresh
    rw [links_disconnect, if_neg fresh.2, if_neg fresh.1]
    exact consistent.wired first id
  · intro first second third number link another
    rw [lookup] at link another
    split at link
    · cases link
    · split at another
      · cases another
      · exact consistent.ownPorts first second third number link another
  · intro first
    rw [lookup]
    split
    · rfl
    · exact consistent.loopless first
  · intro first second missing
    rw [lookup] at missing ⊢
    by_cases ends : Ends node other second first
    · rw [if_pos ends]
    · rw [if_neg (fun swapped => ends swapped.symm)] at missing
      rw [if_neg ends]
      exact consistent.symmetric first second missing
  · intro sender receiver missing
    rw [lookup] at missing
    rw [channel]
    split
    · rfl
    · rename_i notEnds
      rw [if_neg notEnds] at missing
      exact consistent.quiet sender receiver missing
  · intro sender receiver packet member
    exact consistent.addressed sender receiver packet (inChannel sender receiver packet member)
  · intro sender receiver src member
    rw [channel] at member
    split at member
    · cases member
    · exact consistent.first sender receiver src member
  · intro sender receiver src _ member
    exact consistent.unknown sender receiver src id (inChannel sender receiver _ member)
  · intro sender receiver _ notHost linked missing
    rw [lookup] at linked
    split at linked
    · exact absurd rfl linked
    · rename_i notEnds
      rw [channel, if_neg (fun ends => notEnds ends.symm)]
      exact consistent.awaited sender receiver id notHost linked missing

/-- The handler for a lost link at one of its ends. -/
theorem Consistent.loses {base : Network Node} {port : PortNumber}
    (cached : port.is port.number = true)
    (link : (network.links node).lookup other = some port.number)
    (current : Consistent isHost stale base)
    (router : base.routers node = network.routers node)
    (links : base.links node = (network.links node).erase other)
    (channel : ∀ sender, sender ≠ other ->
      base.channel sender node = network.channel sender node)
    (stepped : base.handle isHost node (.linkDown other port) = some after) :
    Handles isHost node (.linkDown other port) base after ∧
      Consistent isHost (fun later => stale later ∧ later ≠ node) after := by
  refine current.handles isHost ?_ stepped
  intro changed next handled
  rw [router] at handled
  have removes := RIPRouter.removeNeighbor_spec handled
  have wired := consistent.wired node id
  refine ⟨removes.self.trans (consistent.self node), ?_, ?_, ?_⟩
  · rw [links]
    exact wired.removed cached (consistent.ownPorts node) link removes
  · intro sender src member
    rw [removes.neighbors]
    split
    · rfl
    · rename_i different
      rw [channel sender different] at member
      exact consistent.unknown sender node src id member
  · intro sender linked missing notHost
    rw [links, lookup_erase_if] at linked
    rw [removes.neighbors] at missing
    by_cases same : sender = other
    · rw [if_pos same] at linked
      exact absurd rfl linked
    · rw [if_neg same] at linked missing
      rw [channel sender same]
      exact consistent.awaited sender node id notHost linked missing

theorem Consistent.linkDown (stepped : network.next isHost (.linkDown node other) = some after)
    (cached : network.cached (.linkDown node other) = true) :
    ∃ port otherPort middle, node ≠ other ∧
      (network.links node).lookup other = some port ∧
      (network.links other).lookup node = some otherPort ∧
      Handles isHost other (.linkDown node ⟨otherPort, false⟩) (network.disconnect node other)
        middle ∧
      Handles isHost node (.linkDown other ⟨port, true⟩) middle after ∧
      Consistent isHost (fun _ => False) after := by
  unfold next at stepped
  simp only at stepped
  cases link : (network.links node).lookup other with
  | none => rw [link] at stepped; cases stepped
  | some port =>
    rw [link] at stepped
    have apart := (consistent.apart isHost link).symm
    cases otherLink : (network.links other).lookup node with
    | none => rw [otherLink] at stepped; cases stepped
    | some otherPort =>
      rw [otherLink] at stepped
      simp only at stepped
      cases first : (network.disconnect node other).handle isHost other
          (.linkDown node ⟨otherPort, false⟩) with
      | none => rw [first] at stepped; cases stepped
      | some middle =>
        rw [first] at stepped
        have cut := consistent.disconnect isHost apart
        have kept : ∀ sender receiver, ¬ Ends node other sender receiver ->
            (network.disconnect node other).channel sender receiver =
              network.channel sender receiver := by
          intro sender receiver notEnds
          rw [channel_disconnect, if_neg notEnds]
        rcases consistent.loses isHost (by simp [PortNumber.is]) otherLink cut rfl
          (by rw [links_disconnect, if_pos rfl])
          (fun sender notNode => kept sender other (by
            rintro (⟨same, _⟩ | ⟨_, same⟩)
            · exact notNode same
            · exact apart same.symm)) first with ⟨handles, halfway⟩
        rw [Network.cached, link] at cached
        rcases consistent.loses isHost (by simpa [PortNumber.is] using cached) link halfway
          (handles.routers apart)
          (by rw [handles.links, links_disconnect, if_neg apart, if_pos rfl])
          (fun sender notOther => (handles.channel notOther node).trans
            (kept sender node (by
              rintro (⟨_, same⟩ | ⟨same, _⟩)
              · exact apart same
              · exact notOther same))) stepped with ⟨handles', done⟩
        refine ⟨port, otherPort, middle, apart, rfl, rfl, handles, handles', ?_⟩
        refine done.weaken isHost ?_
        rintro later ⟨⟨rfl | rfl, notOther⟩, notNode⟩
        · exact notNode rfl
        · exact notOther rfl

end

/-! ## Deliveries -/

/-- What a packet tells the router at whose port it arrives. -/
def eventOf (port : Nat) : Packet Node -> RIPRouter.Event Node
  | .linkUp src => .linkUp src port
  | .update src update => .update src update.paths port

/-- Taking the oldest packet from a channel. -/
theorem Consistent.pop {rest : List (Packet Node)}
    (consistent : Consistent isHost (fun _ => False) network)
    (pending : network.channel sender receiver = packet :: rest) :
    Consistent isHost (fun stale => stale = receiver) (network.setChannel sender receiver rest) ∧
      ∀ other src, linkUp src ∈ (network.setChannel sender receiver rest).channel other receiver ->
        other ≠ sender ∧ linkUp src ∈ network.channel other receiver := by
  have noLinkUp : ∀ src, linkUp src ∉ rest := by
    intro src member
    refine consistent.first sender receiver src ?_
    rw [pending]
    exact member
  have inChannel : ∀ first second other,
      other ∈ (network.setChannel sender receiver rest).channel first second ->
      other ∈ network.channel first second := by
    intro first second other member
    rw [channel_setChannel] at member
    split at member
    · rename_i same
      rw [same.1, same.2, pending]
      exact mem_cons_of_mem _ member
    · exact member
  refine ⟨{ consistent with
    wired := fun node _ => consistent.wired node id
    quiet := ?_, addressed := ?_, first := ?_, unknown := ?_, awaited := ?_ }, ?_⟩
  · intro first second missing
    have empty := consistent.quiet first second missing
    refine eq_nil_iff_forall_not_mem.mpr (fun other member => ?_)
    have before := inChannel first second other member
    rw [empty] at before
    cases before
  · intro first second other member
    exact consistent.addressed first second other (inChannel first second other member)
  · intro first second src member
    rw [channel_setChannel] at member
    split at member
    · exact noLinkUp src (mem_of_mem_tail member)
    · exact consistent.first first second src member
  · intro first second src _ member
    exact consistent.unknown first second src id (inChannel first second _ member)
  · intro first second fresh notHost linked missing
    rw [channel_setChannel, if_neg (fun both => fresh both.2)]
    exact consistent.awaited first second id notHost linked missing
  · intro other src member
    refine ⟨?_, inChannel other receiver _ member⟩
    rintro rfl
    rw [channel_setChannel, if_pos ⟨rfl, rfl⟩] at member
    exact noLinkUp src member

section

variable (consistent : Consistent isHost (fun _ => False) network) {port : Nat}
  (link : (network.links receiver).lookup sender = some port) {rest : List (Packet Node)}

include consistent link

/-- The notification of a link makes its sender a neighbour. -/
theorem Consistent.greeted (pending : network.channel sender receiver = linkUp sender :: rest)
    (stepped : (network.setChannel sender receiver rest).handle isHost receiver
      (.linkUp sender port) = some after) :
    Handles isHost receiver (.linkUp sender port) (network.setChannel sender receiver rest) after ∧
      Consistent isHost (fun other => other = receiver ∧ other ≠ receiver) after := by
  rcases consistent.pop isHost pending with ⟨popped, older⟩
  have self := consistent.self receiver
  refine popped.handles isHost ?_ stepped
  intro changed next handled
  have unknown := consistent.unknown sender receiver sender id
    (by rw [pending]; exact mem_cons_self)
  have adds : RIPRouter.Adds sender port (network.routers receiver) next := by
    cases handled
    exact RIPRouter.addNeighbor_spec port (lookup_eq_none.mp unknown)
  have apart := consistent.apart isHost link
  refine ⟨adds.self.trans self, (consistent.wired receiver id).added
    (consistent.ownPorts receiver) link unknown (by rw [self]; exact apart) adds, ?_, ?_⟩
  · intro other src member
    rcases older other src member with ⟨different, before⟩
    rw [adds.neighbors, lookup_insert_if, if_neg different]
    exact consistent.unknown other receiver src id before
  · intro other linked missing notHost
    rw [adds.neighbors, lookup_insert_if] at missing
    split at missing
    · cases missing
    · rename_i different
      rw [channel_setChannel, if_neg (fun both => different both.1)]
      exact consistent.awaited other receiver id notHost linked missing

/-- An update changes no neighbour. -/
theorem Consistent.informed {update : RoutingUpdate Node}
    (pending : network.channel sender receiver = .update sender update :: rest)
    (stepped : (network.setChannel sender receiver rest).handle isHost receiver
      (.update sender update.paths port) = some after) :
    Handles isHost receiver (.update sender update.paths port)
        (network.setChannel sender receiver rest) after ∧
      Consistent isHost (fun other => other = receiver ∧ other ≠ receiver) after := by
  rcases consistent.pop isHost pending with ⟨popped, older⟩
  have self := consistent.self receiver
  rcases consistent.addressed sender receiver _ (by rw [pending]; exact mem_cons_self) with
    ⟨_, _, unnamed, positive⟩
  refine popped.handles isHost ?_ stepped
  intro changed next handled
  have specified := RIPRouter.handled_of_handleRx (by rintro _ _ ⟨⟩) handled
  refine ⟨specified.update_self.trans self, (consistent.wired receiver id).updated link
    (by rw [self]; exact unnamed) positive specified, ?_, ?_⟩
  · intro other src member
    rw [specified.update_neighbors]
    exact consistent.unknown other receiver src id (older other src member).2
  · intro other linked missing notHost
    rw [specified.update_neighbors] at missing
    rcases consistent.awaited other receiver id notHost linked missing with
      ⟨first, later, waiting⟩
    have different : other ≠ sender := by
      rintro rfl
      cases pending.symm.trans waiting
    rw [channel_setChannel, if_neg (fun both => different both.1)]
    exact ⟨first, later, waiting⟩

end

theorem Consistent.deliver (consistent : Consistent isHost (fun _ => False) network)
    (stepped : network.next isHost (.deliver sender receiver) = some after) :
    ∃ packet rest port, network.channel sender receiver = packet :: rest ∧
      (network.links receiver).lookup sender = some port ∧
      Handles isHost receiver (eventOf port packet) (network.setChannel sender receiver rest)
        after ∧
      Consistent isHost (fun _ => False) after := by
  unfold next at stepped
  simp only at stepped
  cases pending : network.channel sender receiver with
  | nil => rw [pending] at stepped; cases stepped
  | cons packet rest =>
    rw [pending] at stepped
    cases link : (network.links receiver).lookup sender with
    | none => rw [link] at stepped; cases stepped
    | some port =>
      rw [link] at stepped
      have addressed := consistent.addressed sender receiver packet
        (by rw [pending]; exact mem_cons_self)
      have handles : Handles isHost receiver (eventOf port packet)
          (network.setChannel sender receiver rest) after ∧
          Consistent isHost (fun other => other = receiver ∧ other ≠ receiver) after := by
        cases packet with
        | linkUp src =>
          cases addressed
          exact consistent.greeted isHost link pending stepped
        | update src update =>
          rcases addressed with ⟨rfl, forReceiver, _⟩
          have notForwarded : ¬ (((network.setChannel src receiver rest).routers
              receiver).routingTable.lookup src = none ∧ update.dst ≠ receiver) :=
            fun both => both.2 forReceiver
          simp only [receive, if_neg notForwarded] at stepped
          exact consistent.informed isHost link pending stepped
      exact ⟨packet, rest, port, rfl, rfl, handles.1,
        handles.2.weaken isHost (fun _ stale => stale.2 stale.1)⟩

end Network

end RipRouter
end Codebank
