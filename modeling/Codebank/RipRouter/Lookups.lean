import Codebank.RipRouter.BestRoute

namespace Codebank
namespace RipRouter

open Foundation Option Function AList

/-!
# Failed lookups

A new neighbour gets a row with the other neighbours only; what lies behind them is
filled in when somebody announces it.  So `find_shortest_path` may ask a row for a
destination that it does not list.  No other lookup of the handlers can fail, and this one
cannot either as long as neighbours only join while nothing behind other neighbours is known.

As long as no lookup fails, and the port of each lost link is recognised, every forwarding
entry is backed by the row of one neighbour that is linked.
-/

namespace RIPRouter

variable {Node : Type} [DecidableEq Node]

/-- One event at the router, with no failed lookup. -/
def Taken (router : RIPRouter Node) (event : Event Node) (after : RIPRouter Node) : Prop :=
  router.Arrives event ∧ ∃ changed, router.handleRx event = some (changed, after)

/-- Every row has the destination. -/
def Known (router : RIPRouter Node) (dest : Node) : Prop :=
  ∀ nbr, nbr ∈ router.routingTable -> router.distanceVia nbr dest ≠ none

/-- The rows are those of the neighbours, and have every destination of the forwarding
table. -/
structure Complete (router : RIPRouter Node) : Prop where
  rowed : ∀ nbr, nbr ∈ router.routingTable <-> nbr ∈ router.neighbors
  known : ∀ dest, dest ∈ router.forwardingTable -> router.Known dest

/-- Complete tables that came from others by filling rows and choosing entries. -/
structure Grown (router after : RIPRouter Node) : Prop where
  complete : Complete after
  shape : SameShape router after
  kept : ∀ nbr dest, router.distanceVia nbr dest ≠ none -> after.distanceVia nbr dest ≠ none

variable {router current after : RIPRouter Node} {src dest : Node}

theorem Complete.grown (complete : Complete router) : Grown router router :=
  ⟨complete, SameShape.refl router, fun _ _ known => known⟩

/-- Changing one column is fine when it keeps its distances, and has all of them where there
is an entry. -/
theorem Grown.column (grown : Grown router current) (only : OnlyColumn dest current after)
    (kept : ∀ nbr, current.distanceVia nbr dest ≠ none -> after.distanceVia nbr dest ≠ none)
    (known : dest ∈ after.forwardingTable -> after.Known dest) : Grown router after := by
  have others : ∀ nbr other, other ≠ dest ->
      after.distanceVia nbr other = current.distanceVia nbr other :=
    fun nbr other different => congrFun (congrArg Column.via (only.others other different)) nbr
  refine ⟨⟨fun nbr => ?_, fun other listed => ?_⟩, grown.shape.trans only.shape, ?_⟩
  · rw [only.shape.rows, only.shape.neighbors]
    exact grown.complete.rowed nbr
  · by_cases same : other = dest
    · subst same
      exact known listed
    · intro nbr present
      rw [<- lookup_isSome, show after.forwardingTable.lookup other = _ from
        congrArg Column.entry (only.others other same)] at listed
      rw [others nbr other same]
      exact grown.complete.known other (lookup_isSome.mp listed) nbr
        ((only.shape.rows nbr).mp present)
  · intro nbr other before
    by_cases same : other = dest
    · subst same
      exact kept nbr (grown.kept nbr other before)
    · rw [others nbr other same]
      exact grown.kept nbr other before

theorem Grown.setEntry (grown : Grown router current) (known : current.Known dest)
    (entry : Entry) : Grown router (current.setEntry dest entry) :=
  grown.column (onlyColumn_setEntry current dest entry) (fun _ before => before) (fun _ => known)

/-! ## The search -/

theorem findShortestPath_total (complete : Complete router) (known : router.Known dest) :
    ∃ best, router.findShortestPath dest = some best := by
  have loop : ∃ best, router.routingTable.keys.foldlM (router.shorter dest)
      (none, POSITIVE_INFINITY) = some best ∧ True := by
    refine foldlM_total (fun _ _ => True) router.routingTable.keys_nodup trivial ?_
    intro _ nbr best member _ _
    have row := mem_keys.mpr member
    rcases ne_none_iff_exists'.mp (known nbr row) with ⟨distance, through⟩
    rcases isSome_iff_exists.mp (lookup_isSome.mpr ((complete.rowed nbr).mp row)) with
      ⟨port, onPort⟩
    unfold shorter
    rw [through, onPort]
    simp only
    split
    · exact ⟨_, rfl, trivial⟩
    · split
      · exact ⟨_, rfl, trivial⟩
      · exact ⟨_, rfl, trivial⟩
  exact loop.imp (fun _ => And.left)

theorem Grown.refreshed (grown : Grown router current) (port : Nat)
    (here : current.distanceVia src dest ≠ none) :
    ∃ changed after, current.updateForwardingTable src dest port = some (changed, after) ∧
      Grown router after := by
  unfold updateForwardingTable
  rcases ne_none_iff_exists'.mp here with ⟨distance, through⟩
  cases chosen : current.forwardingTable.lookup dest with
  | none => exact ⟨_, _, rfl, grown⟩
  | some entry =>
    have known : current.Known dest :=
      grown.complete.known dest (lookup_isSome.mp (isSome_of_eq_some chosen))
    rw [through]
    simp only
    split
    · exact ⟨_, _, rfl, grown.setEntry known _⟩
    · split
      · exact ⟨_, _, rfl, grown.setEntry known _⟩
      · split
        · rcases findShortestPath_total grown.complete known with ⟨⟨port, distance⟩, found⟩
          rw [found]
          cases port with
          | none =>
            refine ⟨_, _, rfl, grown.column (onlyColumn_popEntry current dest) ?_ (fun _ => known)⟩
            exact fun _ before => before
          | some _ => exact ⟨_, _, rfl, grown.setEntry known _⟩
        · exact ⟨_, _, rfl, grown⟩

/-! ## Routing updates -/

section

variable {paths : Dict Node Nat} {port : Nat} {changed : Bool} (grown : Grown router current)

include grown

theorem Grown.updateKnown (here : router.distanceVia src dest ≠ none) :
    ∃ next, updateKnown src paths port (changed, current) dest = some next ∧
      Grown router next.2 := by
  rcases ne_none_iff_exists'.mp (grown.kept src dest here) with ⟨old, through⟩
  rcases relearn_spec paths through with ⟨distance, _, only, column⟩
  have kept : ∀ nbr, current.distanceVia nbr dest ≠ none ->
      (current.relearn src paths dest).distanceVia nbr dest ≠ none := by
    intro nbr before
    have through := congrFun (congrArg Column.via column) nbr
    change _ = Function.update (current.column dest).via src (some distance) nbr at through
    rw [show (current.relearn src paths dest).distanceVia nbr dest = _ from through,
      update_apply]
    split
    · exact some_ne_none distance
    · exact before
  have learnt : Grown router (current.relearn src paths dest) := by
    refine grown.column only kept (fun listed nbr present => kept nbr ?_)
    rw [<- lookup_isSome, show (current.relearn src paths dest).forwardingTable.lookup dest = _ from
      congrArg Column.entry column] at listed
    exact grown.complete.known dest (lookup_isSome.mp listed) nbr
      ((only.shape.rows nbr).mp present)
  rcases learnt.refreshed port (learnt.kept src dest here) with ⟨flag, after, updated, done⟩
  refine ⟨(changed || flag, after), ?_, done⟩
  unfold RIPRouter.updateKnown
  simp only [updated]

theorem Grown.addNode (present : src ∈ router.routingTable) (announced : dest ∈ paths.keys) :
    ∃ next, addNode src paths port (changed, current) dest = some next ∧
      Grown router next.2 := by
  rcases isSome_iff_exists.mp (lookup_isSome.mpr (mem_keys.mpr announced)) with
    ⟨distance, announces⟩
  have inRow := (grown.shape.rows src).mpr present
  have first := onlyColumn_setDistance inRow dest (stretch distance)
  rcases filling_fillColumn (current.setDistance src dest (stretch distance)) dest with
    ⟨only, _, filled⟩
  unfold RIPRouter.addNode
  rw [announces]
  simp only
  generalize (current.setDistance src dest (stretch distance)).fillColumn dest = learnt at *
  have all : learnt.Known dest := by
    intro nbr row
    have listed := mem_keys.mp ((only.shape.rows nbr).mp row)
    rw [show learnt.distanceVia nbr dest = _ from filled nbr, if_pos listed]
    exact some_ne_none _
  have learns : Grown router learnt := by
    refine grown.column (first.trans only) (fun nbr before => all nbr ?_) (fun _ => all)
    rcases ne_none_iff_exists'.mp before with ⟨_, known⟩
    exact ((first.trans only).shape.rows nbr).mpr (mem_of_distanceVia known)
  cases learnt.forwardingTable.lookup dest with
  | none => exact ⟨_, rfl, learns.setEntry all _⟩
  | some entry =>
    have here := all src ((learns.shape.rows src).mpr present)
    rcases learns.refreshed port here with ⟨flag, after, updated, done⟩
    refine ⟨(changed || flag, after), ?_, done⟩
    simp only [updated]

end

theorem Complete.updated (complete : Complete router) (present : src ∈ router.routingTable)
    (paths : Dict Node Nat) (port : Nat) :
    ∃ changed after, router.handleRoutingUpdate src paths port = some (changed, after) ∧
      Complete after := by
  rcases isSome_iff_exists.mp (lookup_isSome.mpr present) with ⟨nbrEntry, found⟩
  have tables : ∃ middle, nbrEntry.keys.foldlM (updateKnown src paths port) (false, router) =
      some middle ∧ Grown router middle.2 := by
    refine foldlM_total (fun _ (state : Bool × RIPRouter Node) => Grown router state.2)
      nbrEntry.keys_nodup complete.grown ?_
    rintro _ dest ⟨changed, current⟩ member _ grown
    refine grown.updateKnown ?_
    rw [distanceVia_of_row found]
    exact ne_none_iff_isSome.mpr (lookup_isSome.mpr (mem_keys.mpr member))
  rcases tables with ⟨⟨first, middle⟩, looped, grown⟩
  have nodes : ∃ last, (paths.keys.filter (fun node => nbrEntry.lookup node = none)).foldlM
      (addNode src paths port) (first, middle) = some last ∧ Grown router last.2 := by
    refine foldlM_total (fun _ (state : Bool × RIPRouter Node) => Grown router state.2)
      (paths.keys_nodup.filter _) grown ?_
    rintro _ dest ⟨changed, current⟩ member _ grown
    exact grown.addNode present (List.mem_filter.mp member).1
  rcases nodes with ⟨⟨changed, after⟩, added, grown⟩
  refine ⟨changed, after, ?_, grown.complete⟩
  rw [handleRoutingUpdate, found]
  simp only [looped]
  exact added

/-! ## Links -/

theorem Complete.forget (complete : Complete router) (src : Node) :
    Complete (router.forget src) := by
  refine ⟨fun nbr => ?_, fun dest listed nbr present => ?_⟩
  · exact mem_erase.trans ((and_congr_right' (complete.rowed nbr)).trans mem_erase.symm)
  · rcases mem_erase.mp present with ⟨different, row⟩
    rw [distanceVia_forget, if_neg different]
    exact complete.known dest listed nbr row

theorem Grown.reroute {port : PortNumber} {changed : Bool} {deleted : List Node}
    (grown : Grown router current) (listed : dest ∈ current.forwardingTable) :
    ∃ next, reroute port (changed, deleted, current) dest = some next ∧
      Grown router next.2.2 ∧
      ∀ other, other ∈ current.forwardingTable -> other ∈ next.2.2.forwardingTable := by
  rcases isSome_iff_exists.mp (lookup_isSome.mpr listed) with ⟨entry, chosen⟩
  have known := grown.complete.known dest listed
  unfold RIPRouter.reroute
  simp only [chosen]
  split
  · rcases findShortestPath_total grown.complete known with ⟨⟨port, distance⟩, found⟩
    rw [found]
    cases port with
    | none => exact ⟨_, rfl, grown, fun _ member => member⟩
    | some port =>
      exact ⟨_, rfl, grown.setEntry known _, fun _ member => (mem_insert _).mpr (.inr member)⟩
  · exact ⟨_, rfl, grown, fun _ member => member⟩

theorem Complete.removed (complete : Complete router) (src : Node) (port : PortNumber) :
    ∃ changed after, router.removeNeighbor src port = some (changed, after) ∧
      Complete after := by
  have loop : ∃ last, router.forwardingTable.keys.foldlM (RIPRouter.reroute port)
      (false, [], router.forget src) = some last ∧ Grown (router.forget src) last.2.2 ∧
        ∀ dest, dest ∈ router.forwardingTable -> dest ∈ last.2.2.forwardingTable := by
    refine foldlM_total (fun _ (state : Bool × List Node × RIPRouter Node) =>
      Grown (router.forget src) state.2.2 ∧
        ∀ dest, dest ∈ router.forwardingTable -> dest ∈ state.2.2.forwardingTable)
      router.forwardingTable.keys_nodup ⟨(complete.forget src).grown, fun _ member => member⟩ ?_
    rintro _ dest ⟨changed, deleted, current⟩ member _ ⟨grown, listed⟩
    rcases grown.reroute (listed dest (mem_keys.mpr member)) with ⟨next, turned, after, more⟩
    exact ⟨next, turned, after, fun other before => more other (listed other before)⟩
  rcases loop with ⟨⟨changed, deleted, last⟩, looped, grown, _⟩
  refine ⟨changed, deleted.foldl popEntry last, by rw [removeNeighbor, looped], ?_⟩
  rcases popAll_spec deleted last with ⟨shape, columns⟩
  refine ⟨fun nbr => ?_, fun dest listed nbr present => ?_⟩
  · rw [shape.rows, shape.neighbors]
    exact grown.complete.rowed nbr
  · have column := columns dest
    rw [<- lookup_isSome, show (deleted.foldl popEntry last).forwardingTable.lookup dest = _ from
      congrArg Column.entry column] at listed
    rw [show (deleted.foldl popEntry last).distanceVia nbr dest = _ from
      congrFun (congrArg Column.via column) nbr]
    split at listed
    · cases listed
    · rename_i kept
      rw [if_neg kept]
      exact grown.complete.known dest (lookup_isSome.mp listed) nbr ((shape.rows nbr).mp present)

/-- A link comes up only while the forwarding table has no destination behind another
neighbour. -/
def Timely (router : RIPRouter Node) : Event Node -> Prop
  | .linkUp src _ => ∀ entry, entry ∈ router.forwardingTable.entries ->
    entry.1 = src ∨ entry.1 ∈ router.neighbors
  | _ => True

instance (router : RIPRouter Node) (event : Event Node) : Decidable (router.Timely event) :=
  match event with
  | .linkUp src _ => inferInstanceAs (Decidable (∀ entry,
    entry ∈ router.forwardingTable.entries -> entry.1 = src ∨ entry.1 ∈ router.neighbors))
  | .linkDown _ _ => inferInstanceAs (Decidable True)
  | .update _ _ _ => inferInstanceAs (Decidable True)

theorem Complete.added {port : Nat} (complete : Complete router) (adds : Adds src port router after)
    (timely : router.Timely (.linkUp src port)) : Complete after := by
  refine ⟨fun nbr => ?_, fun dest listed nbr present => ?_⟩
  · rw [adds.rows, adds.neighbors, mem_insert, complete.rowed]
  · by_cases toNew : dest = src
    · subst toNew
      by_cases same : nbr = dest
      · rw [same, adds.direct]
        exact some_ne_none 1
      · rw [adds.toward nbr same (((adds.rows nbr).mp present).resolve_left same)]
        exact some_ne_none _
    · rw [<- lookup_isSome, adds.entries dest toNew, lookup_isSome] at listed
      by_cases same : nbr = src
      · rcases isSome_iff_exists.mp (lookup_isSome.mpr listed) with ⟨entry, chosen⟩
        have neighbor := (timely ⟨dest, entry⟩ (mem_lookup_iff.mp chosen)).resolve_left toNew
        rw [same, adds.through dest toNew, if_pos (mem_keys.mp neighbor)]
        exact some_ne_none _
      · rw [adds.others nbr dest same toNew]
        exact complete.known dest listed nbr (((adds.rows nbr).mp present).resolve_left same)

/-! ## Every event -/

/-- From complete tables every event is handled; only a link that comes up too early may
leave tables that are not complete. -/
theorem Complete.handled (complete : Complete router) (event : Event Node) :
    ∃ changed after, router.handleRx event = some (changed, after) ∧
      (router.Arrives event -> router.Timely event -> Complete after) := by
  cases event with
  | linkUp src port =>
    refine ⟨true, _, rfl, fun arrives timely => ?_⟩
    exact complete.added (addNeighbor_spec port (lookup_eq_none.mp arrives.1)) timely
  | linkDown src port =>
    rcases complete.removed src port with ⟨changed, after, removed, done⟩
    exact ⟨changed, after, removed, fun _ _ => done⟩
  | update src paths port =>
    cases found : router.routingTable.lookup src with
    | none =>
      refine ⟨false, router, ?_, fun _ _ => complete⟩
      simp only [handleRx, found]
    | some row =>
      have present := lookup_isSome.mp (isSome_of_eq_some found)
      rcases complete.updated present paths port with ⟨changed, after, updated, done⟩
      refine ⟨changed, after, ?_, fun _ _ => done⟩
      simp only [handleRx, found, updated]

/-- As long as links come up only while the forwarding table has nothing behind another
neighbour, every event is handled without a failed lookup, and the row of each neighbour has
every destination that `find_shortest_path` may be asked for. -/
theorem timely_events_handled {self : Node} {events : List (Event Node)} {router : RIPRouter Node}
    (run : Run (fun before event after => Taken before event after ∧ before.Timely event)
      (new self) events router) :
    (∀ event, ∃ changed after, router.handleRx event = some (changed, after)) ∧
      ∀ dest nbr, dest ∈ router.forwardingTable -> nbr ∈ router.neighbors ->
        router.distanceVia nbr dest ≠ none := by
  have complete : Complete router := by
    refine run.invariant ?_ ⟨fun _ => Iff.rfl,
      fun dest listed => absurd listed (notMem_empty dest)⟩
    rintro before event next complete ⟨⟨arrives, flag, taken⟩, timely⟩
    rcases complete.handled event with ⟨changed, after, handled, done⟩
    cases taken.symm.trans handled
    exact done arrives timely
  refine ⟨fun event => ?_, fun dest nbr listed neighbor => ?_⟩
  · rcases complete.handled event with ⟨changed, after, handled, _⟩
    exact ⟨changed, after, handled⟩
  · exact complete.known dest listed nbr ((complete.rowed nbr).mpr neighbor)

/-- Both neighbours join before either announces a node. -/
def earlyNeighbors : List (Event Nat) :=
  [.linkUp 1 0, .linkUp 2 1, .update 1 [⟨3, 1⟩].toAList 0, .linkDown 2 ⟨1, true⟩]

theorem timely_events_handled_early :
    ∃ events router, execute (next (fun router event =>
        router.Arrives event ∧ router.Timely event)) (new 0) earlyNeighbors =
          some (events, router) ∧
      router.forwardingTable.lookup 3 = some ⟨0, 2⟩ ∧
      ∃ changed after, router.handleRx (.update 1 ∅ 0) = some (changed, after) := by
  have outcome : (execute (next (fun router event => router.Arrives event ∧ router.Timely event))
      (new 0) earlyNeighbors).map (fun result => result.2.forwardingTable.lookup 3) =
        some (some ⟨0, 2⟩) := by
    decide +kernel
  rcases map_eq_some_iff.mp outcome with ⟨⟨events, router⟩, done, chosen⟩
  refine ⟨events, router, done, chosen,
    (timely_events_handled (Run.mono ?_ (run_of_next done))).1 (.update 1 ∅ 0)⟩
  rintro before event after ⟨⟨arrives, timely⟩, handled⟩
  exact ⟨⟨arrives, handled⟩, timely⟩

/-- A new node is announced in front of a neighbour that joins late. -/
def lateNeighbor : List (Event Nat) :=
  [.linkUp 1 0, .update 1 [⟨3, 1⟩].toAList 0, .linkUp 2 1]

/-- The row of neighbour 2 has no place for node 3.  The handlers fail when neighbour 1
withdraws the node, and when the link to neighbour 1 goes down. -/
theorem late_neighbor_fails_lookup :
    ∃ events router, Run Step (new 0) events router ∧
      router.Admissible (.update 1 ∅ 0) ∧ router.handleRx (.update 1 ∅ 0) = none ∧
      router.Admissible (.linkDown 1 ⟨0, true⟩) ∧
      router.handleRx (.linkDown 1 ⟨0, true⟩) = none := by
  have outcome : (execute (next Admissible) (new 0) lateNeighbor).map (fun result =>
      (decide (result.2.Admissible (.update 1 ∅ 0)), (result.2.handleRx (.update 1 ∅ 0)).isNone,
        decide (result.2.Admissible (.linkDown 1 ⟨0, true⟩)),
        (result.2.handleRx (.linkDown 1 ⟨0, true⟩)).isNone)) = some (true, true, true, true) := by
    decide +kernel
  rcases map_eq_some_iff.mp outcome with ⟨⟨events, router⟩, done, same⟩
  simp only [Prod.mk.injEq, decide_eq_true_eq, isNone_iff_eq_none] at same
  exact ⟨events, router, run_of_next done, same⟩

/-! ## What backs an entry -/

/-- The ports of the links that are up, by what the events told so far. -/
def linked (links : Node -> Option Nat) : Event Node -> Node -> Option Nat
  | .linkUp src port => Function.update links src (some port)
  | .linkDown src _ => Function.update links src none
  | .update _ _ _ => links

theorem neighbors_linked {self : Node} {events : List (Event Node)}
    (run : Run Taken (new self) events router) :
    router.neighbors.lookup = events.foldl linked (fun _ => none) := by
  induction run with
  | nil => rfl
  | snoc _ last ih =>
    rcases last with ⟨arrives, changed, handled⟩
    rw [List.foldl_concat, <- ih]
    funext nbr
    cases arrives.handled handled with
    | linkUp adds => rw [adds.neighbors, lookup_insert_if, linked, update_apply]
    | linkDown removes => rw [removes.neighbors, linked, update_apply]
    | ignored _ => rfl
    | update _ shape _ => rw [shape.neighbors, linked]

/-- An entry has the port of exactly one linked neighbour and the distance in the row of that
neighbour. -/
def Backed (router : RIPRouter Node) (links : Node -> Option Nat) (dest : Node) (entry : Entry) :
    Prop :=
  ∃ nbr, links nbr = some entry.port ∧
    (∀ other, links other = some entry.port -> other = nbr) ∧
    router.distanceVia nbr dest = some entry.distance

/-- In every state of every run without a failed lookup in which the port of each lost link is
recognised, each forwarding entry is backed by one node that is linked, has distance 1 exactly
for nodes that are linked, and `get_port` returns the ports of such entries only. -/
theorem forwarding_entries_backed {self : Node} {events : List (Event Node)}
    {router : RIPRouter Node}
    (run : Run (fun before event after => Taken before event after ∧ event.Positive ∧
      event.cached = true) (new self) events router) :
    (∀ dest entry, router.forwardingTable.lookup dest = some entry ->
      router.Backed (events.foldl linked (fun _ => none)) dest entry ∧
        (entry.distance = 1 <-> events.foldl linked (fun _ => none) dest ≠ none)) ∧
    ∀ dest port, router.getPort dest = some port ->
      ∃ entry, router.forwardingTable.lookup dest = some entry ∧ entry.port = port := by
  have valid : Valid router := by
    refine run.invariant ?_ (valid_new self)
    rintro before event after valid ⟨⟨arrives, changed, handled⟩, positive, cached⟩
    exact valid.arrived arrives positive cached (arrives.handled handled)
  rw [<- neighbors_linked (run.mono And.left)]
  refine ⟨fun dest entry chosen => ?_, fun dest port chosen => ?_⟩
  · rcases valid.backed dest entry chosen with ⟨nbr, onPort, distance⟩
    refine ⟨⟨nbr, onPort, fun other same => valid.ports other nbr _ same onPort, distance⟩, ?_, ?_⟩
    · intro one stranger
      have different : dest ≠ nbr := by
        rintro rfl
        cases stranger.symm.trans onPort
      have far := (valid.far nbr dest entry.distance different distance).1
      omega
    · intro neighbor
      rcases ne_none_iff_exists'.mp neighbor with ⟨port, known⟩
      cases chosen.symm.trans (valid.direct dest port known)
      rfl
  · rw [getPort] at chosen
    cases found : router.forwardingTable.lookup dest with
    | none => rw [found] at chosen; cases chosen
    | some entry =>
      rw [found] at chosen
      simp only at chosen
      split at chosen
      · exact ⟨entry, rfl, some.inj chosen⟩
      · cases chosen

theorem forwarding_entries_backed_failover :
    ∃ events router, execute (next (fun router event =>
        router.Arrives event ∧ event.Positive ∧ event.cached = true)) (new 0) failover =
          some (events, router) ∧
      (∀ dest entry, router.forwardingTable.lookup dest = some entry ->
        router.Backed (events.foldl linked (fun _ => none)) dest entry ∧
          (entry.distance = 1 <-> events.foldl linked (fun _ => none) dest ≠ none)) ∧
      ∀ dest port, router.getPort dest = some port ->
        ∃ entry, router.forwardingTable.lookup dest = some entry ∧ entry.port = port := by
  have possible : (execute (next (fun router event =>
      router.Arrives event ∧ event.Positive ∧ event.cached = true)) (new 0) failover).isSome =
        true := by
    decide +kernel
  rcases isSome_iff_exists.mp possible with ⟨⟨events, router⟩, done⟩
  refine ⟨events, router, done, forwarding_entries_backed (Run.mono ?_ (run_of_next done))⟩
  rintro before event after ⟨⟨arrives, fine⟩, handled⟩
  exact ⟨⟨arrives, handled⟩, fine⟩

/-- A neighbour is linked on port 257, and unlinked by the router's end. -/
def lateUnlink : List (Event Nat) := [.linkUp 1 257, .linkDown 1 ⟨257, true⟩]

/-- The entry for the neighbour stays, on the port of a dead link. -/
theorem unlinked_neighbor_stays_forwarded :
    ∃ events router, Run (fun before event after => Taken before event after ∧ event.Positive)
        (new 0) events router ∧
      (∀ nbr, events.foldl linked (fun _ => none) nbr ≠ some 257) ∧
      router.forwardingTable.lookup 1 = some ⟨257, 1⟩ ∧ router.getPort 1 = some 257 ∧
      ¬ router.Backed (events.foldl linked (fun _ => none)) 1 ⟨257, 1⟩ := by
  have outcome : (execute (next (fun router event => router.Arrives event ∧ event.Positive))
      (new 0) lateUnlink).map (fun result => (result.2.neighbors.entries.length,
        result.2.forwardingTable.lookup 1, result.2.getPort 1)) =
        some (0, some ⟨257, 1⟩, some 257) := by
    decide +kernel
  rcases map_eq_some_iff.mp outcome with ⟨⟨events, router⟩, done, same⟩
  simp only [Prod.mk.injEq, List.length_eq_zero_iff] at same
  have run : Run (fun before event after => Taken before event after ∧ event.Positive)
      (new 0) events router := by
    refine Run.mono ?_ (run_of_next done)
    rintro before event after ⟨⟨arrives, positive⟩, handled⟩
    exact ⟨⟨arrives, handled⟩, positive⟩
  have nobody : ∀ nbr, events.foldl linked (fun _ => none) nbr ≠ some 257 := by
    intro nbr onPort
    rw [<- neighbors_linked (run.mono And.left)] at onPort
    have listed := mem_lookup_iff.mp onPort
    rw [same.1] at listed
    cases listed
  refine ⟨events, router, run, nobody, same.2.1, same.2.2, ?_⟩
  rintro ⟨nbr, onPort, _⟩
  exact nobody nbr onPort

end RIPRouter

end RipRouter
end Codebank
