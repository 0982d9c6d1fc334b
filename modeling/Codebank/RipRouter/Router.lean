import Codebank.Foundation.Loop

namespace Codebank
namespace RipRouter

open Foundation

/-!
# One router

`RIPRouter` keeps three dictionaries: for each neighbour a row of distances that
goes through it (`routing_table`), the port of each neighbour (`neighbors`), and
the chosen port and distance for each destination (`forwarding_table`).  An
exception from a failed dictionary lookup is `none`.  Ports are numbers; only where
`remove_neighbor` compares two of them with `is` does it matter which object a number is.
-/

/-- `RIPRouter.POSITIVE_INFINITY`. -/
def POSITIVE_INFINITY : Nat := 100

/-- An entry of the forwarding table. -/
structure Entry where
  port : Nat
  distance : Nat
  deriving DecidableEq, Repr

/-- The port of a lost link.  The end that unlinks is given a number that `enumerate` has
counted anew, the other end is given the object that its cable has. -/
structure PortNumber where
  number : Nat
  counted : Bool
  deriving DecidableEq, Repr

/-- Comparing a port with one from the tables by `is`.  CPython keeps one object for each
number up to 256; a greater one that was counted anew is another object. -/
def PortNumber.is (port : PortNumber) (known : Nat) : Bool :=
  known = port.number ∧ (port.counted = true -> port.number <= 256)

structure RIPRouter (Node : Type) where
  self : Node
  routingTable : Dict Node (Dict Node Nat)
  neighbors : Dict Node Nat
  forwardingTable : Dict Node Entry

/-- A `RoutingUpdate`: its destination and the distances it announces. -/
structure RoutingUpdate (Node : Type) where
  dst : Node
  paths : Dict Node Nat

namespace RIPRouter

variable {Node : Type} [DecidableEq Node]

def new (self : Node) : RIPRouter Node := ⟨self, ∅, ∅, ∅⟩

/-- `routing_table[nbr][dest]`. -/
def distanceVia (router : RIPRouter Node) (nbr dest : Node) : Option Nat :=
  (router.routingTable.lookup nbr).bind (fun row => row.lookup dest)

/-- `routing_table[nbr][dest] = distance`, for a neighbour that has a row. -/
def setDistance (router : RIPRouter Node) (nbr dest : Node) (distance : Nat) : RIPRouter Node :=
  match router.routingTable.lookup nbr with
  | none => router
  | some row =>
    { router with routingTable := router.routingTable.insert nbr (row.insert dest distance) }

def setEntry (router : RIPRouter Node) (dest : Node) (entry : Entry) : RIPRouter Node :=
  { router with forwardingTable := router.forwardingTable.insert dest entry }

def popEntry (router : RIPRouter Node) (dest : Node) : RIPRouter Node :=
  { router with forwardingTable := router.forwardingTable.erase dest }

def getPort (router : RIPRouter Node) (destination : Node) : Option Nat :=
  match router.forwardingTable.lookup destination with
  | none => none
  | some entry => if entry.distance < POSITIVE_INFINITY then some entry.port else none

/-- One turn of `find_shortest_path`: the port and distance after looking at `nbr`. -/
def shorter (router : RIPRouter Node) (dest : Node) (best : Option Nat × Nat) (nbr : Node) :
    Option (Option Nat × Nat) :=
  match router.distanceVia nbr dest with
  | none => none
  | some distance =>
    if distance ≠ POSITIVE_INFINITY ∧ distance < best.2 then
      (router.neighbors.lookup nbr).map (fun port => (some port, distance))
    else if distance ≠ POSITIVE_INFINITY ∧ distance = best.2 then
      (router.neighbors.lookup nbr).map (fun port =>
        -- no integer is below `None`
        if best.1.any (fun lowest => port < lowest) then (some port, distance) else best)
    else some best

def findShortestPath (router : RIPRouter Node) (dest : Node) : Option (Option Nat × Nat) :=
  router.routingTable.keys.foldlM (router.shorter dest) (none, POSITIVE_INFINITY)

/-- One turn of the inner loop of `send_routing_update`, with poison reverse. -/
def addDestination (nbr : Node) (port : Nat) (paths : Dict Node Nat) (dst : Node)
    (entry : Entry) : Dict Node Nat :=
  if dst = nbr then paths
  else if entry.port = port then paths.insert dst POSITIVE_INFINITY
  else paths.insert dst entry.distance

/-- The distance vector for one neighbour. -/
def vectorFor (router : RIPRouter Node) (nbr : Node) (port : Nat) : Dict Node Nat :=
  router.forwardingTable.foldl (addDestination nbr port) ∅

/-- The update for one neighbour with the port it leaves through; hosts get none. -/
def updateFor (router : RIPRouter Node) (isHost : Node -> Bool)
    (neighbor : Sigma (fun _ : Node => Nat)) : Option (Option Nat × RoutingUpdate Node) :=
  if isHost neighbor.1 then none
  else some (router.getPort neighbor.1,
    ⟨neighbor.1, router.vectorFor neighbor.1 neighbor.2⟩)

/-- `send_routing_update`: the packets it sends. -/
def sendRoutingUpdate (router : RIPRouter Node) (isHost : Node -> Bool) :
    List (Option Nat × RoutingUpdate Node) :=
  router.neighbors.entries.filterMap (router.updateFor isHost)

/-- `if node not in routing_table[nbr]: routing_table[nbr][node] = POSITIVE_INFINITY`. -/
def fillRow (node : Node) (router : RIPRouter Node) (nbr : Node) : RIPRouter Node :=
  if router.distanceVia nbr node = none then router.setDistance nbr node POSITIVE_INFINITY
  else router

/-- The loop of this assignment over all neighbours. -/
def fillColumn (router : RIPRouter Node) (node : Node) : RIPRouter Node :=
  router.routingTable.keys.foldl (fillRow node) router

/-- `new_rtgTable_entry` of `add_neighbor`. -/
def firstRow (src : Node) (neighbors : List Node) : Dict Node Nat :=
  neighbors.foldl (fun row neighbor => row.insert neighbor POSITIVE_INFINITY)
    ((∅ : Dict Node Nat).insert src 1)

/-- `add_neighbor`, up to the update it always sends. -/
def addNeighbor (router : RIPRouter Node) (src : Node) (port : Nat) : RIPRouter Node :=
  let known := router.fillColumn src
  { known with
    routingTable := known.routingTable.insert src (firstRow src known.neighbors.keys)
    forwardingTable := known.forwardingTable.insert src ⟨port, 1⟩
    neighbors := known.neighbors.insert src port }

/-- One turn of the loop of `remove_neighbor`: `dv_has_changed`, the
destinations to delete, and the router. -/
def reroute (port : PortNumber) (state : Bool × List Node × RIPRouter Node) (dest : Node) :
    Option (Bool × List Node × RIPRouter Node) :=
  match state with
  | (changed, nodesToDelete, router) =>
    match router.forwardingTable.lookup dest with
    | none => none
    | some entry =>
      if port.is entry.port then
        match router.findShortestPath dest with
        | none => none
        | some (newPort, newDist) =>
          let changed := changed || newDist != entry.distance
          match newPort with
          | some newPort =>
            some (changed, nodesToDelete, router.setEntry dest ⟨newPort, newDist⟩)
          | none => some (changed, nodesToDelete ++ [dest], router)
      else some (changed, nodesToDelete, router)

/-- The router without the row and the port of a neighbour. -/
def forget (router : RIPRouter Node) (src : Node) : RIPRouter Node :=
  { router with
    routingTable := router.routingTable.erase src
    neighbors := router.neighbors.erase src }

/-- `remove_neighbor`: whether an update is to be sent, and the router. -/
def removeNeighbor (router : RIPRouter Node) (src : Node) (port : PortNumber) :
    Option (Bool × RIPRouter Node) :=
  match router.forwardingTable.keys.foldlM (reroute port) (false, [], router.forget src) with
  | none => none
  | some (changed, nodesToDelete, router) =>
    some (changed, nodesToDelete.foldl popEntry router)

/-- `update_forwarding_table` with the row of `src` as `nbr_entry`. -/
def updateForwardingTable (router : RIPRouter Node) (src dest : Node) (port : Nat) :
    Option (Bool × RIPRouter Node) :=
  match router.forwardingTable.lookup dest with
  | none => some (false, router)
  | some entry =>
    match router.distanceVia src dest with
    | none => none
    | some distance =>
      if distance < entry.distance then some (true, router.setEntry dest ⟨port, distance⟩)
      else if distance = entry.distance ∧ port < entry.port then
        some (false, router.setEntry dest ⟨port, entry.distance⟩)
      else if entry.port = port ∧ distance > entry.distance then
        match router.findShortestPath dest with
        | none => none
        | some (some minPort, minDist) => some (true, router.setEntry dest ⟨minPort, minDist⟩)
        | some (none, _) => some (true, router.popEntry dest)
      else some (false, router)

/-- The distance that an announced one gives. -/
def stretch (announced : Nat) : Nat :=
  if announced ≥ POSITIVE_INFINITY then POSITIVE_INFINITY else announced + 1

/-- The assignment to `nbr_entry[dest]` in `update_tables`. -/
def relearn (router : RIPRouter Node) (src : Node) (paths : Dict Node Nat) (dest : Node) :
    RIPRouter Node :=
  if dest ≠ src ∧ dest ≠ router.self then
    match paths.lookup dest with
    -- implicit withdrawal
    | none => router.setDistance src dest POSITIVE_INFINITY
    | some announced => router.setDistance src dest (stretch announced)
  else router

/-- One turn of the loop of `update_tables`. -/
def updateKnown (src : Node) (paths : Dict Node Nat) (port : Nat)
    (state : Bool × RIPRouter Node) (dest : Node) : Option (Bool × RIPRouter Node) :=
  match state with
  | (changed, router) =>
    match (router.relearn src paths dest).updateForwardingTable src dest port with
    | none => none
    | some (here, router) => some (changed || here, router)

/-- One turn of the loop of `add_nodes`. -/
def addNode (src : Node) (paths : Dict Node Nat) (port : Nat)
    (state : Bool × RIPRouter Node) (node : Node) : Option (Bool × RIPRouter Node) :=
  match state with
  | (changed, router) =>
    match paths.lookup node with
    | none => none
    | some announced =>
      let router := (router.setDistance src node (stretch announced)).fillColumn node
      match router.forwardingTable.lookup node with
      | none => some (true, router.setEntry node ⟨port, stretch announced⟩)
      | some _ =>
        match router.updateForwardingTable src node port with
        | none => none
        | some (here, router) => some (changed || here, router)

/-- `handle_routing_update`: whether an update is to be sent, and the router. -/
def handleRoutingUpdate (router : RIPRouter Node) (src : Node) (paths : Dict Node Nat)
    (port : Nat) : Option (Bool × RIPRouter Node) :=
  match router.routingTable.lookup src with
  | none => none
  | some nbrEntry =>
    let newNodes := paths.keys.filter (fun node => nbrEntry.lookup node = none)
    match nbrEntry.keys.foldlM (updateKnown src paths port) (false, router) with
    | none => none
    | some (a, router) => newNodes.foldlM (addNode src paths port) (a, router)

/-- What a router is told: that a link came up or went down, or a routing
update, each with the port it arrives at. -/
inductive Event (Node : Type) where
  | linkUp (src : Node) (port : Nat)
  | linkDown (src : Node) (port : PortNumber)
  | update (src : Node) (paths : Dict Node Nat) (port : Nat)

/-- `handle_rx`, for packets other than data: whether `send_routing_update` is
called at the end, and the router. -/
def handleRx (router : RIPRouter Node) : Event Node -> Option (Bool × RIPRouter Node)
  | .linkUp src port => some (true, router.addNeighbor src port)
  | .linkDown src port => router.removeNeighbor src port
  | .update src paths port =>
    match router.routingTable.lookup src with
    -- not from a neighbour: nothing to forward, the packet was for this router
    | none => some (false, router)
    | some _ => router.handleRoutingUpdate src paths port

end RIPRouter

end RipRouter
end Codebank
