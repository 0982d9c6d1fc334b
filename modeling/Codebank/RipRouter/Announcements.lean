import Codebank.RipRouter.Wiring

namespace Codebank
namespace RipRouter

open Foundation List Option AList

/-!
# What neighbours have been told

The last thing that a node was told by another about a destination is in the
youngest update on the way, or else in its row for the other node.  A step of
the network changes it in few ways: nothing but fill-ups with infinity when the
other node does not change, nothing when its handler reports no change, and the
new vector when it does.
-/

namespace Network

variable {Node : Type} [DecidableEq Node]

/-- The paths of the youngest update in a channel. -/
def lastPaths : List (Packet Node) -> Option (Dict Node Nat)
  | [] => none
  | .linkUp _ :: rest => lastPaths rest
  | .update _ update :: rest => some ((lastPaths rest).getD update.paths)

omit [DecidableEq Node] in
theorem lastPaths_append_update (packets : List (Packet Node)) (src : Node)
    (update : RoutingUpdate Node) :
    lastPaths (packets ++ [.update src update]) = some update.paths := by
  induction packets with
  | nil => rfl
  | cons packet rest ih =>
    cases packet with
    | linkUp _ => exact ih
    | update _ _ =>
      simp only [cons_append, lastPaths]
      rw [ih]
      rfl

/-- What a router will know about the distance through `sender` once it has
taken the packets. -/
def lastKnown (packets : List (Packet Node)) (router : RIPRouter Node) (sender dest : Node) :
    Option Nat :=
  match lastPaths packets with
  | some paths => (paths.lookup dest).map RIPRouter.stretch
  | none => router.distanceVia sender dest

variable {packets : List (Packet Node)}

theorem lastKnown_some {paths : Dict Node Nat} (last : lastPaths packets = some paths)
    (router : RIPRouter Node) (sender dest : Node) :
    lastKnown packets router sender dest = (paths.lookup dest).map RIPRouter.stretch := by
  rw [lastKnown, last]

theorem lastKnown_none (last : lastPaths packets = none) (router : RIPRouter Node)
    (sender dest : Node) :
    lastKnown packets router sender dest = router.distanceVia sender dest := by
  rw [lastKnown, last]

/-- What `receiver` was last told by `sender` about the distance through it. -/
def told (network : Network Node) (sender receiver dest : Node) : Option Nat :=
  lastKnown (network.channel sender receiver) (network.routers receiver) sender dest

/-- What an announcement makes of it. -/
def retold (router : RIPRouter Node) (receiver dest : Node) (before : Option Nat) : Option Nat :=
  match router.neighbors.lookup receiver with
  | none => before
  | some port => ((router.vectorFor receiver port).lookup dest).map RIPRouter.stretch

/-- Nothing new, except that infinity takes the place of nothing. -/
def Fills (before after : Option Nat) : Prop :=
  after = before ∨ before = none ∧ after = some POSITIVE_INFINITY

theorem Fills.refl (distance : Option Nat) : Fills distance distance := .inl rfl

/-- The events that the routers handle in one action. -/
def events (network : Network Node) : Action Node -> List (Node × RIPRouter.Event Node)
  | .linkUp _ _ _ _ => []
  | .linkDown node other =>
    match (network.links node).lookup other, (network.links other).lookup node with
    | some port, some otherPort =>
      [(other, .linkDown node ⟨otherPort, false⟩), (node, .linkDown other ⟨port, true⟩)]
    | _, _ => []
  | .deliver sender receiver =>
    match network.channel sender receiver, (network.links receiver).lookup sender with
    | packet :: _, some port => [(receiver, eventOf port packet)]
    | _, _ => []

/-- What a step means for what `receiver` was told by `sender`. -/
inductive Telling (events : List (Node × RIPRouter.Event Node)) (sender receiver : Node)
    (network after : Network Node) : Prop where
  | heard (same : after.routers sender = network.routers sender)
      (fills : ∀ dest, dest ≠ sender ->
        Fills (network.told sender receiver dest) (after.told sender receiver dest))
  | silent {event : RIPRouter.Event Node} (member : (sender, event) ∈ events)
      (other : ∀ port, event ≠ .linkDown receiver port)
      (handled : (network.routers sender).handleRx event = some (false, after.routers sender))
      (same : ∀ dest, after.told sender receiver dest = network.told sender receiver dest)
  | announced {event : RIPRouter.Event Node} (member : (sender, event) ∈ events)
      (other : ∀ port, event ≠ .linkDown receiver port)
      (handled : (network.routers sender).handleRx event = some (true, after.routers sender))
      (new : ∀ dest, after.told sender receiver dest =
        retold (after.routers sender) receiver dest (network.told sender receiver dest))

variable (isHost : Node -> Bool) {network : Network Node} {sender receiver : Node}
  {after : RIPRouter Node} {event : RIPRouter.Event Node} {changed : Bool}

theorem told_of_unlinked (consistent : Consistent isHost (fun _ => False) network)
    (unlinked : (network.links sender).lookup receiver = none) (dest : Node) :
    network.told sender receiver dest = none := by
  have absent : (network.routers receiver).neighbors.lookup sender = none := by
    cases known : (network.routers receiver).neighbors.lookup sender with
    | none => rfl
    | some port =>
      cases (consistent.symmetric sender receiver unlinked).symm.trans
        ((consistent.wired receiver id).linked sender port known)
  unfold told
  rw [consistent.quiet sender receiver unlinked]
  rw [lastKnown_none rfl]
  cases known : (network.routers receiver).distanceVia sender dest with
  | none => rfl
  | some distance =>
    exact absurd (((consistent.wired receiver id).valid.rows sender).mp
      (RIPRouter.mem_of_distanceVia known)) (lookup_eq_none.mp absent)

/-- A handler at the sender, that leaves the rest of what the receiver knows. -/
theorem telling_of_handles {base middle after : Network Node}
    {events : List (Node × RIPRouter.Event Node)} (notHost : isHost receiver = false)
    (apart : receiver ≠ sender) (member : (sender, event) ∈ events)
    (other : ∀ port, event ≠ .linkDown receiver port)
    (handles : Handles isHost sender event base middle)
    (sameRouter : base.routers sender = network.routers sender)
    (sameTold : ∀ dest, base.told sender receiver dest = network.told sender receiver dest)
    (laterRouter : after.routers sender = middle.routers sender)
    (laterTold : ∀ dest, after.told sender receiver dest = middle.told sender receiver dest) :
    Telling events sender receiver network after := by
  rcases handles with ⟨_, rfl⟩ | ⟨_, changed, handling⟩
  · refine Telling.heard (laterRouter.trans sameRouter) (fun dest _ => ?_)
    rw [laterTold, sameTold]
    exact Fills.refl _
  · have handled := handling.handled
    rw [sameRouter, <- laterRouter] at handled
    have row : middle.routers receiver = base.routers receiver := handling.routers receiver apart
    cases changed with
    | false =>
      refine Telling.silent member other handled (fun dest => ?_)
      have channel := handling.sent receiver
      rw [if_neg Bool.false_ne_true, append_nil] at channel
      rw [laterTold, <- sameTold, told, told, channel, row]
    | true =>
      refine Telling.announced member other handled (fun dest => ?_)
      have channel := handling.sent receiver
      rw [if_pos rfl, announcement, if_neg (by rw [notHost]; exact Bool.false_ne_true)] at channel
      rw [laterTold, laterRouter, retold]
      cases onPort : (middle.routers sender).neighbors.lookup receiver with
      | none =>
        rw [onPort, map_none, toList_none, append_nil] at channel
        rw [<- sameTold, told, told, channel, row]
      | some port =>
        rw [onPort, map_some, toList_some] at channel
        rw [told, channel, lastKnown_some (lastPaths_append_update _ _ _)]

/-! ## Rows -/

/-- The node an event is about. -/
def source : RIPRouter.Event Node -> Node
  | .linkUp src _ => src
  | .linkDown src _ => src
  | .update src _ _ => src

variable {router : RIPRouter Node}

/-- An event leaves the rows of other neighbours as they are, up to fill-ups. -/
theorem row_fills (handled : router.Handled event changed after) {nbr : Node}
    (different : nbr ≠ source event) (dest : Node) :
    Fills (router.distanceVia nbr dest) (after.distanceVia nbr dest) := by
  cases handled with
  | linkUp adds =>
    rename_i src port
    by_cases toNew : dest = src
    · subst toNew
      by_cases present : nbr ∈ router.routingTable
      · rw [adds.toward nbr different present]
        cases router.distanceVia nbr dest with
        | none => exact .inr ⟨rfl, rfl⟩
        | some known => exact .inl rfl
      · left
        have before : router.distanceVia nbr dest = none := by
          cases known : router.distanceVia nbr dest with
          | none => rfl
          | some distance => exact absurd (RIPRouter.mem_of_distanceVia known) present
        rw [before]
        cases known : after.distanceVia nbr dest with
        | none => rfl
        | some distance =>
          rcases (adds.rows nbr).mp (RIPRouter.mem_of_distanceVia known) with same | old
          · exact absurd same different
          · exact absurd old present
    · exact .inl (adds.others nbr dest different toNew)
  | linkDown removes =>
    left
    rw [removes.via]
    exact if_neg different
  | ignored _ => exact Fills.refl _
  | update _ _ updates =>
    rcases updates dest with ⟨_, update, _⟩
    exact update.others different

/-- What the receiver was told by the sender of the packet it takes. -/
theorem fills_of_delivery {packet : Packet Node} {rest : List (Packet Node)} {port : Nat}
    (consistent : Consistent isHost (fun _ => False) network) (notHost : isHost receiver = false)
    (pending : network.channel sender receiver = packet :: rest)
    (link : (network.links receiver).lookup sender = some port)
    (handled : (network.routers receiver).handleRx (eventOf port packet) = some (changed, after))
    {dest : Node} (different : dest ≠ sender) :
    Fills (network.told sender receiver dest) (lastKnown rest after sender dest) := by
  have wired := consistent.wired receiver id
  unfold told
  rw [pending]
  cases packet with
  | linkUp src =>
    cases consistent.addressed sender receiver _ (by rw [pending]; exact mem_cons_self)
    have unknown := consistent.unknown sender receiver sender id
      (by rw [pending]; exact mem_cons_self)
    cases last : lastPaths rest with
    | some paths =>
      rw [lastKnown_some last, lastKnown_some
        (show lastPaths (.linkUp sender :: rest) = _ from last)]
      exact Fills.refl _
    | none =>
      have noRow : (network.routers receiver).distanceVia sender dest = none := by
        cases known : (network.routers receiver).distanceVia sender dest with
        | none => rfl
        | some distance =>
          exact absurd ((wired.valid.rows sender).mp (RIPRouter.mem_of_distanceVia known))
            (lookup_eq_none.mp unknown)
      have adds : RIPRouter.Adds sender port (network.routers receiver) after := by
        cases handled
        exact RIPRouter.addNeighbor_spec port (lookup_eq_none.mp unknown)
      rw [lastKnown_none last, lastKnown_none
        (show lastPaths (.linkUp sender :: rest) = _ from last),
        noRow, adds.through dest different]
      split
      · exact .inr ⟨rfl, rfl⟩
      · exact .inl rfl
  | update src update =>
    rcases consistent.addressed sender receiver _ (by rw [pending]; exact mem_cons_self) with
      ⟨rfl, _, _, _⟩
    have first : lastPaths (.update src update :: rest) =
        some ((lastPaths rest).getD update.paths) := rfl
    rw [lastKnown_some first]
    cases last : lastPaths rest with
    | some paths =>
      rw [lastKnown_some last]
      exact Fills.refl _
    | none =>
      rw [lastKnown_none last, getD_none]
      have specified := RIPRouter.handled_of_handleRx (by rintro _ _ ⟨⟩) handled
      cases specified with
      | ignored stranger =>
        have missing : (network.routers receiver).neighbors.lookup src = none :=
          lookup_eq_none.mpr (mt (wired.valid.rows src).mpr stranger)
        rcases consistent.awaited src receiver id notHost
          (by rw [link]; exact some_ne_none _) missing with ⟨_, _, waiting⟩
        cases pending.symm.trans waiting
      | update _ _ updates =>
        rcases updates dest with ⟨_, update', _⟩
        have here : after.distanceVia src dest = _ := update'.here
        rw [here]
        unfold RIPRouter.learned
        cases known : ((network.routers receiver).column dest).via src with
        | none => exact .inl rfl
        | some old =>
          have foreign : dest ≠ src ∧ dest ≠ (network.routers receiver).self := by
            refine ⟨different, ?_⟩
            rintro rfl
            cases (wired.noRoute src).symm.trans known
          simp only [if_pos foreign]
          cases (update.paths.lookup dest).map RIPRouter.stretch with
          | none => exact .inr ⟨rfl, rfl⟩
          | some distance => exact .inl rfl

theorem lastKnown_fills {dest : Node}
    (row : Fills (router.distanceVia sender dest) (after.distanceVia sender dest))
    (packets : List (Packet Node)) :
    Fills (lastKnown packets router sender dest) (lastKnown packets after sender dest) := by
  cases last : lastPaths packets with
  | none =>
    rw [lastKnown_none last, lastKnown_none last]
    exact row
  | some paths =>
    rw [lastKnown_some last, lastKnown_some last]
    exact Fills.refl _

/-- Every event of an action is handled as specified. -/
theorem handled_of_event {action : Action Node} {node : Node}
    (consistent : Consistent isHost (fun _ => False) network)
    (member : (node, event) ∈ network.events action)
    (handled : (network.routers node).handleRx event = some (changed, after)) :
    (network.routers node).Handled event changed after := by
  refine RIPRouter.handled_of_handleRx ?_ handled
  rintro src port rfl
  cases action with
  | linkUp _ _ _ _ => cases member
  | linkDown first second =>
    simp only [events] at member
    split at member
    · simp at member
    · cases member
  | deliver sender receiver =>
    simp only [events] at member
    cases pending : network.channel sender receiver with
    | nil => rw [pending] at member; cases member
    | cons packet rest =>
      rw [pending] at member
      cases link : (network.links receiver).lookup sender with
      | none => rw [link] at member; cases member
      | some number =>
        rw [link] at member
        rcases Prod.mk.inj (mem_singleton.mp member) with ⟨rfl, same⟩
        cases packet with
        | update _ _ => cases same
        | linkUp _ =>
          cases same
          have here : Packet.linkUp src ∈ network.channel sender node := by
            rw [pending]
            exact mem_cons_self
          have mine : src = sender := consistent.addressed sender node _ here
          rw [mine]
          exact lookup_eq_none.mp (consistent.unknown sender node src id here)

/-! ## Every step -/

section

variable {isHost} {network after : Network Node} {sender receiver node other : Node} {port : Nat}

/-- Nothing happens to what `receiver` was told. -/
theorem told_congr {other : Network Node}
    (channel : other.channel sender receiver = network.channel sender receiver)
    (router : other.routers receiver = network.routers receiver) (dest : Node) :
    other.told sender receiver dest = network.told sender receiver dest := by
  rw [told, told, channel, router]

theorem telling_unchanged {events : List (Node × RIPRouter.Event Node)}
    (same : after.routers sender = network.routers sender)
    (channel : after.channel sender receiver = network.channel sender receiver)
    (router : after.routers receiver = network.routers receiver) :
    Telling events sender receiver network after :=
  Telling.heard same (fun dest _ => by
    rw [told_congr channel router]
    exact Fills.refl _)

theorem telling_deliver {first second : Node}
    (consistent : Consistent isHost (fun _ => False) network) (notHost : isHost receiver = false)
    (apart : receiver ≠ sender)
    (stepped : network.next isHost (.deliver first second) = some after) :
    Telling (network.events (.deliver first second)) sender receiver network after := by
  rcases consistent.deliver isHost stepped with ⟨packet, rest, port, pending, link, handles, _⟩
  have firstApart : first ≠ second := by
    rintro rfl
    cases (consistent.loopless first).symm.trans link
  have event : (second, eventOf port packet) ∈ network.events (.deliver first second) := by
    rw [events, pending, link]
    exact mem_singleton_self _
  have others : ∀ start target, ¬ (start = first ∧ target = second) ->
      (network.setChannel first second rest).channel start target =
        network.channel start target := by
    intro start target notPair
    rw [channel_setChannel, if_neg notPair]
  by_cases atReceiver : receiver = second
  · subst atReceiver
    rcases handles with ⟨host, _⟩ | ⟨_, changed, handling⟩
    · cases host.symm.trans notHost
    have handled : (network.routers receiver).handleRx (eventOf port packet) =
        some (changed, after.routers receiver) := handling.handled
    have channel := handling.channel sender receiver (Ne.symm apart)
    refine Telling.heard (handling.routers sender (Ne.symm apart)) (fun dest different => ?_)
    rw [told.eq_def after, channel]
    by_cases mine : sender = first
    · subst mine
      rw [channel_setChannel, if_pos ⟨rfl, rfl⟩]
      exact fills_of_delivery isHost consistent notHost pending link handled different
    · rw [others sender receiver (fun both => mine both.1), told]
      have notSource : sender ≠ source (eventOf port packet) := by
        have addressed := consistent.addressed first receiver packet
          (by rw [pending]; exact mem_cons_self)
        cases packet with
        | linkUp src => exact fun same => mine (same.trans addressed)
        | update src update => exact fun same => mine (same.trans addressed.1)
      exact lastKnown_fills (row_fills (handled_of_event isHost consistent event handled)
        notSource dest) _
  · by_cases atSender : sender = second
    · subst atSender
      have notPair : ¬ (sender = first ∧ receiver = sender) := fun both => apart both.2
      refine telling_of_handles isHost notHost apart event ?_ handles rfl
        (told_congr (others sender receiver notPair) rfl) rfl (fun _ => rfl)
      intro number same
      cases packet <;> cases same
    · refine telling_unchanged (handles.routers atSender) ?_ (handles.routers atReceiver)
      rw [handles.channel atSender receiver]
      exact others sender receiver (fun both => atReceiver both.2)

/-- A lost link leaves what nodes were told by others. -/
theorem told_of_loss {base : Network Node} {port : PortNumber}
    (handles : Handles isHost node (.linkDown other port) base after) (notNode : sender ≠ node)
    (notOther : sender ≠ other) (dest : Node) :
    after.told sender receiver dest = base.told sender receiver dest := by
  have channel := handles.channel notNode receiver
  by_cases atReceiver : receiver = node
  · subst atReceiver
    rcases handles with ⟨_, rfl⟩ | ⟨_, changed, handling⟩
    · rfl
    · have removes := RIPRouter.removeNeighbor_spec handling.handled
      have row : (after.routers receiver).distanceVia sender dest =
          (base.routers receiver).distanceVia sender dest := by
        rw [removes.via, if_neg notOther]
      rw [told, told, channel]
      unfold lastKnown
      rw [row]
  · exact told_congr channel (handles.routers atReceiver) dest

section

variable (consistent : Consistent isHost (fun _ => False) network)

include consistent

theorem telling_linkDown (notHost : isHost receiver = false) (apart : receiver ≠ sender)
    (linked : (after.links sender).lookup receiver ≠ none)
    (stepped : network.next isHost (.linkDown node other) = some after)
    (cached : network.cached (.linkDown node other) = true) :
    Telling (network.events (.linkDown node other)) sender receiver network after := by
  rcases consistent.linkDown isHost stepped cached with
    ⟨port, otherPort, middle, ends, link, otherLink, handles, handles', _⟩
  have notEnds : ¬ Ends node other sender receiver := by
    intro both
    rw [handles'.links, handles.links, lookup_disconnect network ends, if_pos both] at linked
    exact linked rfl
  have channel : (network.disconnect node other).channel sender receiver =
      network.channel sender receiver := by
    rw [channel_disconnect, if_neg notEnds]
  have events : network.events (.linkDown node other) =
      [(other, .linkDown node ⟨otherPort, false⟩), (node, .linkDown other ⟨port, true⟩)] := by
    rw [events, link, otherLink]
  rw [events]
  by_cases atOther : sender = other
  · subst atOther
    have notNode : receiver ≠ node := fun same => notEnds (.inr ⟨rfl, same⟩)
    refine telling_of_handles isHost notHost apart mem_cons_self ?_ handles rfl
      (told_congr channel rfl) (handles'.routers (Ne.symm ends))
      (told_congr (handles'.channel (Ne.symm ends) receiver) (handles'.routers notNode))
    rintro number ⟨⟩
    exact notNode rfl
  · by_cases atNode : sender = node
    · subst atNode
      have notOther : receiver ≠ other := fun same => notEnds (.inl ⟨rfl, same⟩)
      refine telling_of_handles isHost notHost apart (mem_cons_of_mem _ mem_cons_self) ?_
        handles' (handles.routers ends)
        (told_congr ((handles.channel ends receiver).trans channel) (handles.routers notOther))
        rfl (fun _ => rfl)
      rintro number ⟨⟩
      exact notOther rfl
    · refine Telling.heard ((handles'.routers atNode).trans (handles.routers atOther)) ?_
      intro dest _
      rw [told_of_loss handles' atNode atOther, told_of_loss handles atOther atNode,
        told_congr channel rfl]
      exact Fills.refl _

theorem linkUp_cases {otherPort : Nat}
    (stepped : network.next isHost (.linkUp node other port otherPort) = some after) :
    node ≠ other ∧ (network.links node).lookup other = none ∧
      (network.links other).lookup node = none ∧
      after = network.connect node other port otherPort ∧
      Consistent isHost (fun _ => False) after := by
  unfold next at stepped
  simp only at stepped
  split at stepped
  · rename_i condition
    rcases condition with ⟨different, free, otherFree, freePort, otherFreePort⟩
    cases stepped
    exact ⟨different, free, otherFree, rfl, consistent.connect isHost different free otherFree
      (RIPRouter.lookup_ne_of_entries freePort) (RIPRouter.lookup_ne_of_entries otherFreePort)⟩
  · cases stepped

theorem telling_linkUp {otherPort : Nat}
    (stepped : network.next isHost (.linkUp node other port otherPort) = some after) :
    Telling (network.events (.linkUp node other port otherPort)) sender receiver network after := by
  rcases linkUp_cases consistent stepped with ⟨different, free, otherFree, rfl, _⟩
  refine Telling.heard rfl (fun dest _ => ?_)
  have last : lastPaths ((network.connect node other port otherPort).channel sender receiver) =
      lastPaths (network.channel sender receiver) := by
    rw [channel_connect network _ _ different]
    split
    · rename_i ends
      have unlinked : (network.links sender).lookup receiver = none := by
        rcases ends with ⟨rfl, rfl⟩ | ⟨rfl, rfl⟩
        · exact free
        · exact otherFree
      rw [consistent.quiet sender receiver unlinked]
      rfl
    · rfl
  rw [told, told, lastKnown, lastKnown, last]
  exact Fills.refl _

end

variable {action : Action Node}

/-- Every step of the network, for a pair of nodes that stays linked. -/
theorem telling_step (consistent : Consistent isHost (fun _ => False) network)
    (notHost : isHost receiver = false) (apart : receiver ≠ sender)
    (linked : (after.links sender).lookup receiver ≠ none)
    (stepped : Step isHost network action after) (cached : network.cached action = true) :
    Telling (network.events action) sender receiver network after := by
  cases action with
  | linkUp node other port otherPort => exact telling_linkUp consistent stepped
  | linkDown node other => exact telling_linkDown consistent notHost apart linked stepped cached
  | deliver first second => exact telling_deliver consistent notHost apart stepped

theorem Consistent.step (consistent : Consistent isHost (fun _ => False) network)
    (stepped : Step isHost network action after) (cached : network.cached action = true) :
    Consistent isHost (fun _ => False) after := by
  cases action with
  | linkUp node other port otherPort =>
    rcases linkUp_cases consistent stepped with ⟨_, _, _, _, done⟩
    exact done
  | linkDown node other =>
    rcases consistent.linkDown isHost stepped cached with ⟨_, _, _, _, _, _, _, _, done⟩
    exact done
  | deliver first second =>
    rcases consistent.deliver isHost stepped with ⟨_, _, _, _, _, _, done⟩
    exact done

end

end Network

end RipRouter
end Codebank
