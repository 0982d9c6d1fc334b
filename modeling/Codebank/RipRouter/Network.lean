import Codebank.RipRouter.Tables
import Codebank.Foundation.Machine

namespace Codebank
namespace RipRouter

open Foundation Function List

/-!
# A network of routers and hosts

Links come and go, at most one for each pair of nodes, and carry packets in
order in either direction.  A link that comes up sends a `DiscoveryPacket` each
way; when it goes down the simulator calls both handlers at once and what is on
the link is lost.  A handler that fails a lookup has no successor state.
-/

/-- What travels over links: link-up notifications and routing updates, with
the node they come from. -/
inductive Packet (Node : Type) where
  | linkUp (src : Node)
  | update (src : Node) (update : RoutingUpdate Node)

/-- The state of all nodes.  The router of a host stays unused. -/
structure Network (Node : Type) where
  routers : Node -> RIPRouter Node
  /-- for each node, the ports of its links by the node at the other end -/
  links : Node -> Dict Node Nat
  /-- the packets from a node to another one, oldest first -/
  channel : Node -> Node -> List (Packet Node)

/-- Link events with the ports taken at either end, and the delivery of the
oldest packet from a node to another. -/
inductive Action (Node : Type) where
  | linkUp (node other : Node) (port otherPort : Nat)
  | linkDown (node other : Node)
  | deliver (sender receiver : Node)

namespace Network

variable {Node : Type} [DecidableEq Node]

def initial : Network Node where
  routers := RIPRouter.new
  links := fun _ => ∅
  channel := fun _ _ => []

/-- The node at the other end of the link on a port. -/
def peer (network : Network Node) (node : Node) (port : Nat) : Option Node :=
  ((network.links node).entries.find? (fun link => link.2 = port)).map Sigma.fst

/-- Set the channel from a node to another. -/
def setChannel (network : Network Node) (sender receiver : Node) (packets : List (Packet Node)) :
    Network Node :=
  { network with
    channel := Function.update network.channel sender (Function.update (network.channel sender)
      receiver packets) }

def setLinks (network : Network Node) (node : Node) (ports : Dict Node Nat) : Network Node :=
  { network with links := Function.update network.links node ports }

def setRouter (network : Network Node) (node : Node) (router : RIPRouter Node) : Network Node :=
  { network with routers := Function.update network.routers node router }

/-- Append a packet to the channel from a node to another. -/
def push (network : Network Node) (sender receiver : Node) (packet : Packet Node) :
    Network Node :=
  network.setChannel sender receiver (network.channel sender receiver ++ [packet])

/-- `send` with a port: nothing leaves without one, or through a free one. -/
def send (network : Network Node) (node : Node) (port : Option Nat) (packet : Packet Node) :
    Network Node :=
  match port.bind (network.peer node) with
  | none => network
  | some receiver => network.push node receiver packet

variable (isHost : Node -> Bool)

/-- `send_routing_update` of a node. -/
def sendRoutingUpdate (network : Network Node) (node : Node) : Network Node :=
  ((network.routers node).sendRoutingUpdate isHost).foldl
    (fun current message => current.send node message.1 (.update node message.2)) network

/-- `handle_rx` of a node; hosts do nothing with the events of routers. -/
def handle (network : Network Node) (node : Node) (event : RIPRouter.Event Node) :
    Option (Network Node) :=
  if isHost node then some network
  else
    match (network.routers node).handleRx event with
    | none => none
    | some (true, router) => some ((network.setRouter node router).sendRoutingUpdate isHost node)
    | some (false, router) => some (network.setRouter node router)

/-- A packet arrives at a port.  An update that is neither from a neighbour nor
for the router is sent on like any other packet. -/
def receive (network : Network Node) (node : Node) (port : Nat) : Packet Node ->
    Option (Network Node)
  | .linkUp src => network.handle isHost node (.linkUp src port)
  | .update src update =>
    if (network.routers node).routingTable.lookup src = none ∧ update.dst ≠ node then
      some (network.send node ((network.routers node).getPort update.dst) (.update src update))
    else network.handle isHost node (.update src update.paths port)

/-- Both ends get the link, and a notification is on its way to each. -/
def connect (network : Network Node) (node other : Node) (port otherPort : Nat) : Network Node :=
  (((network.setLinks node ((network.links node).insert other port)).setLinks
    other ((network.links other).insert node otherPort)).push node other (.linkUp node)).push
      other node (.linkUp other)

/-- The link is gone, with everything on it. -/
def disconnect (network : Network Node) (node other : Node) : Network Node :=
  (((network.setLinks node ((network.links node).erase other)).setLinks
    other ((network.links other).erase node)).setChannel node other []).setChannel other node []

def next (network : Network Node) : Action Node -> Option (Network Node)
  | .linkUp node other port otherPort =>
    if node ≠ other ∧ (network.links node).lookup other = none ∧
        (network.links other).lookup node = none ∧
        (∀ link, link ∈ (network.links node).entries -> link.2 ≠ port) ∧
        (∀ link, link ∈ (network.links other).entries -> link.2 ≠ otherPort) then
      some (network.connect node other port otherPort)
    else none
  | .linkDown node other =>
    match (network.links node).lookup other, (network.links other).lookup node with
    | some port, some otherPort =>
      match (network.disconnect node other).handle isHost other
        (.linkDown node ⟨otherPort, false⟩) with
      | none => none
      -- the end that unlinks has found its port by `enumerate`
      | some middle => middle.handle isHost node (.linkDown other ⟨port, true⟩)
    | _, _ => none
  | .deliver sender receiver =>
    match network.channel sender receiver, (network.links receiver).lookup sender with
    | packet :: rest, some port =>
      (network.setChannel sender receiver rest).receive isHost receiver port packet
    | _, _ => none

def Step (network : Network Node) (action : Action Node) (after : Network Node) : Prop :=
  network.next isHost action = some after

/-- The end that unlinks has a port that `is` recognises in the tables. -/
def cached (network : Network Node) : Action Node -> Bool
  | .linkDown node other => ((network.links node).lookup other).all (fun port => port <= 256)
  | _ => true

/-- The steps of a list of actions that meet a condition. -/
def take (condition : Network Node -> Action Node -> Bool) (network : Network Node)
    (action : Action Node) : Option (Action Node × Network Node) :=
  if condition network action then (network.next isHost action).map (fun after => (action, after))
  else none

theorem run_of_take {condition : Network Node -> Action Node -> Bool} {start final : Network Node}
    {actions labels : List (Action Node)}
    (done : execute (take isHost condition) start actions = some (labels, final)) :
    Run (fun before action after => Step isHost before action after ∧
      condition before action = true) start labels final := by
  refine (run_of_execute done).mono ?_
  rintro before label after ⟨action, stepped⟩
  unfold take at stepped
  split at stepped
  next holds =>
    rcases Option.map_eq_some_iff.mp stepped with ⟨_, next, same⟩
    cases same
    exact ⟨next, holds⟩
  next => cases stepped

/-- The nodes of small networks: three routers and a host. -/
inductive Site where
  | a
  | b
  | c
  | host
  deriving DecidableEq

def Site.hosts (site : Site) : Bool := site = .host

/-- Nothing is under way. -/
def idle (network : Network Site) : Bool :=
  [Site.a, .b, .c, .host].all (fun sender =>
    [Site.a, .b, .c, .host].all (fun receiver => (network.channel sender receiver).isEmpty))

theorem channel_of_idle {network : Network Site} (nothing : network.idle = true)
    (sender receiver : Site) : network.channel sender receiver = [] := by
  have inList : ∀ site, site ∈ [Site.a, .b, .c, .host] := by
    intro site
    cases site <;> decide
  have fromSender := all_eq_true.mp nothing sender (inList sender)
  exact List.isEmpty_iff.mp (all_eq_true.mp fromSender receiver (inList receiver))

/-! ## Sending -/

theorem channel_setChannel (network : Network Node) (sender receiver : Node)
    (packets : List (Packet Node)) (node other : Node) :
    (network.setChannel sender receiver packets).channel node other =
      if node = sender ∧ other = receiver then packets else network.channel node other := by
  unfold setChannel
  simp only [update_apply]
  by_cases sameSender : node = sender
  · subst sameSender
    by_cases sameReceiver : other = receiver <;> simp [sameReceiver]
  · simp [sameSender]

/-- Every link of a node has its own port. -/
def OwnPorts (links : Dict Node Nat) : Prop :=
  ∀ other another port, links.lookup other = some port -> links.lookup another = some port ->
    other = another

variable {node : Node} {other : Node}

theorem peer_of_link {network : Network Node} {port : Nat} (own : OwnPorts (network.links node))
    (link : (network.links node).lookup other = some port) :
    network.peer node port = some other := by
  unfold peer
  cases found : (network.links node).entries.find? (fun link => link.2 = port) with
  | none =>
    have none_on_port := find?_eq_none.mp found ⟨other, port⟩ (AList.mem_lookup_iff.mp link)
    simp at none_on_port
  | some taken =>
    have onPort : taken.2 = port := by simpa using find?_some found
    have linked : (network.links node).lookup taken.1 = some taken.2 :=
      AList.mem_lookup_iff.mpr (mem_of_find?_eq_some found)
    rw [onPort] at linked
    rw [Option.map_some, own taken.1 other port linked link]

/-- What `send_routing_update` of a router puts on the way to a node. -/
def announcement (router : RIPRouter Node) (node receiver : Node) : List (Packet Node) :=
  if isHost receiver then []
  else ((router.neighbors.lookup receiver).map (fun port =>
    Packet.update node ⟨receiver, router.vectorFor receiver port⟩)).toList

/-- Only channels from the node change. -/
structure SendsOnly (node : Node) (network after : Network Node) : Prop where
  routers : after.routers = network.routers
  links : after.links = network.links
  channel : ∀ sender receiver, sender ≠ node ->
    after.channel sender receiver = network.channel sender receiver

omit [DecidableEq Node] in
theorem SendsOnly.refl (node : Node) (network : Network Node) : SendsOnly node network network :=
  ⟨rfl, rfl, fun _ _ _ => rfl⟩

omit [DecidableEq Node] in
theorem SendsOnly.trans {network middle after : Network Node}
    (first : SendsOnly node network middle) (second : SendsOnly node middle after) :
    SendsOnly node network after :=
  ⟨second.routers.trans first.routers, second.links.trans first.links,
    fun sender receiver different =>
      (second.channel sender receiver different).trans (first.channel sender receiver different)⟩

theorem push_sendsOnly (network : Network Node) (node receiver : Node) (packet : Packet Node) :
    SendsOnly node network (network.push node receiver packet) := by
  refine ⟨rfl, rfl, fun sender other different => ?_⟩
  rw [push, channel_setChannel, if_neg (fun both => different both.1)]

/-- The loop of `send_routing_update` over neighbours that are all reached
through the ports of their own entries. -/
theorem sendAll_spec (router : RIPRouter Node) (node : Node)
    (neighbors : List (Sigma (fun _ : Node => Nat))) (distinct : neighbors.NodupKeys)
    (network : Network Node) (reached : ∀ neighbor, neighbor ∈ neighbors ->
      (router.getPort neighbor.1).bind (network.peer node) = some neighbor.1) :
    let after := (neighbors.filterMap (router.updateFor isHost)).foldl
      (fun current message => current.send node message.1 (.update node message.2)) network
    SendsOnly node network after ∧ ∀ receiver, after.channel node receiver =
      network.channel node receiver ++
        if isHost receiver then []
        else ((neighbors.dlookup receiver).map (fun port =>
          Packet.update node ⟨receiver, router.vectorFor receiver port⟩)).toList := by
  induction neighbors generalizing network with
  | nil =>
    refine ⟨SendsOnly.refl node network, fun receiver => ?_⟩
    simp
  | cons neighbor rest ih =>
    have distinctRest := (nodupKeys_cons.mp distinct).2
    have absent := (nodupKeys_cons.mp distinct).1
    by_cases host : isHost neighbor.1 = true
    · have later := ih distinctRest network
        (fun other member => reached other (mem_cons_of_mem _ member))
      have skipped : router.updateFor isHost neighbor = none := if_pos host
      rw [filterMap_cons_none skipped]
      refine ⟨later.1, fun receiver => ?_⟩
      rw [later.2 receiver]
      by_cases same : receiver = neighbor.1
      · subst same
        simp [host]
      · rw [dlookup_cons_ne _ _ same]
    · have here := reached neighbor mem_cons_self
      generalize sent : network.push node neighbor.1
        (.update node ⟨neighbor.1, router.vectorFor neighbor.1 neighbor.2⟩) = middle
      have only : SendsOnly node network middle := sent ▸ push_sendsOnly _ _ _ _
      have samePeer : middle.peer node = network.peer node := by
        unfold peer
        rw [only.links]
      have later := ih distinctRest middle (fun other member => by
        rw [samePeer]
        exact reached other (mem_cons_of_mem _ member))
      have first : network.send node (router.getPort neighbor.1)
          (.update node ⟨neighbor.1, router.vectorFor neighbor.1 neighbor.2⟩) = middle := by
        rw [send, here]
        exact sent
      have message : router.updateFor isHost neighbor = some (router.getPort neighbor.1,
          ⟨neighbor.1, router.vectorFor neighbor.1 neighbor.2⟩) := if_neg host
      rw [filterMap_cons_some message, foldl_cons, first]
      refine ⟨only.trans later.1, fun receiver => ?_⟩
      rw [later.2 receiver, <- sent, push, channel_setChannel]
      by_cases same : receiver = neighbor.1
      · subst same
        rw [dlookup_eq_none.mpr absent, dlookup_cons_eq]
        simp [host]
      · rw [dlookup_cons_ne _ _ same, if_neg (fun both => same both.2)]

/-- What handling an event at a router does to the network. -/
structure Handling (node : Node) (event : RIPRouter.Event Node) (changed : Bool)
    (network after : Network Node) : Prop where
  handled : (network.routers node).handleRx event = some (changed, after.routers node)
  routers : ∀ other, other ≠ node -> after.routers other = network.routers other
  links : after.links = network.links
  channel : ∀ sender receiver, sender ≠ node ->
    after.channel sender receiver = network.channel sender receiver
  sent : ∀ receiver, after.channel node receiver = network.channel node receiver ++
    if changed then announcement isHost (after.routers node) node receiver else []

theorem setRouter_self (network : Network Node) (node : Node) (router : RIPRouter Node) :
    (network.setRouter node router).routers node = router :=
  update_self _ _ _

theorem setRouter_ne (network : Network Node) (router : RIPRouter Node) (different : other ≠ node) :
    (network.setRouter node router).routers other = network.routers other :=
  update_of_ne different _ _

/-- The neighbours of a router are at the other end of its links. -/
def Linked (links : Dict Node Nat) (router : RIPRouter Node) : Prop :=
  ∀ nbr port, router.neighbors.lookup nbr = some port -> links.lookup nbr = some port

theorem sendRoutingUpdate_spec (network : Network Node) (node : Node)
    (valid : (network.routers node).Valid) (own : OwnPorts (network.links node))
    (linked : Linked (network.links node) (network.routers node)) :
    SendsOnly node network (network.sendRoutingUpdate isHost node) ∧
      ∀ receiver, (network.sendRoutingUpdate isHost node).channel node receiver =
        network.channel node receiver ++
          announcement isHost (network.routers node) node receiver := by
  refine sendAll_spec isHost (network.routers node) node _
    (network.routers node).neighbors.nodupKeys network ?_
  rintro ⟨nbr, port⟩ member
  have onPort : (network.routers node).neighbors.lookup nbr = some port :=
    AList.mem_lookup_iff.mpr member
  have leaves : (network.routers node).getPort nbr = some port := by
    rw [RIPRouter.getPort, valid.direct nbr port onPort]
    rfl
  rw [leaves]
  exact peer_of_link own (linked nbr port onPort)

theorem handle_spec {network after : Network Node} {event : RIPRouter.Event Node}
    (router : isHost node = false) (own : OwnPorts (network.links node))
    (fine : ∀ changed next, (network.routers node).handleRx event = some (changed, next) ->
      next.Valid ∧ Linked (network.links node) next)
    (stepped : network.handle isHost node event = some after) :
    ∃ changed, Handling isHost node event changed network after := by
  unfold handle at stepped
  rw [if_neg (by rw [router]; exact Bool.false_ne_true)] at stepped
  cases handled : (network.routers node).handleRx event with
  | none => rw [handled] at stepped; cases stepped
  | some result =>
    rcases result with ⟨changed, next⟩
    rcases fine changed next handled with ⟨valid, linked⟩
    have placed := setRouter_self network node next
    rw [handled] at stepped
    cases changed with
    | false =>
      cases stepped
      refine ⟨false, ?_, fun other => setRouter_ne network next, rfl, fun _ _ _ => rfl, ?_⟩
      · rw [placed, handled]
      · intro receiver
        exact (append_nil _).symm
    | true =>
      cases stepped
      rcases sendRoutingUpdate_spec isHost (network.setRouter node next) node
        (by rw [placed]; exact valid) own (by rw [placed]; exact linked) with ⟨only, sent⟩
      refine ⟨true, ?_, ?_, only.links, only.channel, ?_⟩
      · rw [only.routers, placed, handled]
      · intro other different
        rw [only.routers, setRouter_ne network next different]
      · intro receiver
        rw [sent receiver, only.routers]
        rfl

end Network

end RipRouter
end Codebank
