import Codebank.RipRouter.Columns

namespace Codebank
namespace RipRouter

open Foundation AList Option

/-!
# The tables of one router over its life

The events a router sees, and the relations between its three tables that they
keep: rows belong to neighbours, a neighbour is one hop away through itself,
everything else is farther, and every forwarding entry is a route that some row
backs.
-/

namespace RIPRouter

variable {Node : Type} [DecidableEq Node] {neighbors : Dict Node Nat} {via : Node -> Option Nat}
  {changed : Bool}

/-- The links an event needs: a new neighbour on a port not in use, or a neighbour on its
port. -/
def Arrives (router : RIPRouter Node) : Event Node -> Prop
  | .linkUp src port =>
    router.neighbors.lookup src = none ∧
      ∀ neighbor, neighbor ∈ router.neighbors.entries -> neighbor.2 ≠ port
  | .linkDown src port => router.neighbors.lookup src = some port.number
  | .update src _ port => router.neighbors.lookup src = some port

instance (router : RIPRouter Node) (event : Event Node) : Decidable (router.Arrives event) :=
  match event with
  | .linkUp _ _ => inferInstanceAs (Decidable (_ ∧ _))
  | .linkDown src port =>
    inferInstanceAs (Decidable (router.neighbors.lookup src = some port.number))
  | .update src _ port => inferInstanceAs (Decidable (router.neighbors.lookup src = some port))

/-- What an event announces. -/
def Event.paths : Event Node -> Dict Node Nat
  | .update _ paths _ => paths
  | _ => ∅

/-- The distances of an update are at least 1. -/
def Event.Positive (event : Event Node) : Prop :=
  ∀ path, path ∈ event.paths.entries -> 1 <= path.2

instance (event : Event Node) : Decidable event.Positive :=
  inferInstanceAs (Decidable (∀ path, path ∈ event.paths.entries -> 1 <= path.2))

/-- The events that links and neighbours can cause: the links are there, and an update does
not name the router itself. -/
def Admissible (router : RIPRouter Node) (event : Event Node) : Prop :=
  router.Arrives event ∧ event.Positive ∧ event.paths.lookup router.self = none

instance (router : RIPRouter Node) (event : Event Node) : Decidable (router.Admissible event) :=
  inferInstanceAs (Decidable (_ ∧ _ ∧ _))

/-- The port of a lost link is recognised by `is` in the tables. -/
def Event.cached : Event Node -> Bool
  | .linkDown _ port => port.is port.number
  | _ => true

theorem number_of_is {port : PortNumber} {known : Nat} (same : port.is known = true) :
    known = port.number :=
  (of_decide_eq_true same).1

variable {router : RIPRouter Node}

/-- The relations between the tables. -/
structure Valid (router : RIPRouter Node) : Prop where
  rows : ∀ nbr, nbr ∈ router.routingTable <-> nbr ∈ router.neighbors
  ports : ∀ nbr other port, router.neighbors.lookup nbr = some port ->
    router.neighbors.lookup other = some port -> nbr = other
  near : ∀ nbr, nbr ∈ router.routingTable -> router.distanceVia nbr nbr = some 1
  far : ∀ nbr dest distance, dest ≠ nbr -> router.distanceVia nbr dest = some distance ->
    2 <= distance ∧ distance <= POSITIVE_INFINITY
  backed : ∀ dest entry, router.forwardingTable.lookup dest = some entry ->
    Route router.neighbors (router.column dest).via entry
  direct : ∀ nbr port, router.neighbors.lookup nbr = some port ->
    router.forwardingTable.lookup nbr = some ⟨port, 1⟩

theorem valid_new (self : Node) : Valid (new self) := by
  constructor
  · intro nbr
    exact Iff.rfl
  · intro nbr other port known
    simp [new] at known
  · intro nbr member
    exact absurd member (notMem_empty nbr)
  · intro nbr dest distance _ known
    simp [new, distanceVia] at known
  · intro dest entry known
    simp [new] at known
  · intro nbr port known
    simp [new] at known

variable {port : Nat}

theorem Valid.present (valid : Valid router) {nbr : Node}
    (onPort : router.neighbors.lookup nbr = some port) : nbr ∈ router.routingTable :=
  (valid.rows nbr).mpr (lookup_isSome.mp (isSome_of_eq_some onPort))

/-! ## A new neighbour -/

variable {src : Node}

/-- On a free port, a new neighbour leaves every port with one neighbour. -/
theorem ports_insert {neighbors : Dict Node Nat} {port : Nat}
    (ports : ∀ nbr other number, neighbors.lookup nbr = some number ->
      neighbors.lookup other = some number -> nbr = other)
    (free : ∀ nbr, neighbors.lookup nbr ≠ some port) (nbr other : Node) (number : Nat)
    (first : (neighbors.insert src port).lookup nbr = some number)
    (second : (neighbors.insert src port).lookup other = some number) : nbr = other := by
  rw [lookup_insert_if] at first second
  by_cases new : nbr = src <;> by_cases otherNew : other = src
  · rw [new, otherNew]
  · rw [if_pos new] at first
    rw [if_neg otherNew, <- first] at second
    exact absurd second (free other)
  · rw [if_pos otherNew] at second
    rw [if_neg new, <- second] at first
    exact absurd first (free nbr)
  · rw [if_neg new] at first
    rw [if_neg otherNew] at second
    exact ports nbr other number first second

theorem Valid.added {after : RIPRouter Node} (valid : Valid router)
    (fresh : router.neighbors.lookup src = none)
    (freePort : ∀ nbr, router.neighbors.lookup nbr ≠ some port)
    (adds : Adds src port router after) : Valid after := by
  have neighbors : ∀ nbr, after.neighbors.lookup nbr =
      if nbr = src then some port else router.neighbors.lookup nbr := by
    intro nbr
    rw [adds.neighbors, lookup_insert_if]
  constructor
  · intro nbr
    rw [adds.rows, adds.neighbors, mem_insert, valid.rows]
  · rw [adds.neighbors]
    exact ports_insert valid.ports freePort
  · intro nbr member
    by_cases new : nbr = src
    · rw [new]
      exact adds.direct
    · rw [adds.others nbr nbr new new]
      exact valid.near nbr (((adds.rows nbr).mp member).resolve_left new)
  · intro nbr dest distance different known
    have infinite : 2 <= POSITIVE_INFINITY ∧ POSITIVE_INFINITY <= POSITIVE_INFINITY := by decide
    by_cases new : nbr = src
    · rw [new, adds.through dest (new ▸ different)] at known
      split at known
      · cases known
        exact infinite
      · cases known
    · by_cases toward : dest = src
      · have member := ((adds.rows nbr).mp (mem_of_distanceVia known)).resolve_left new
        rw [toward, adds.toward nbr new member] at known
        cases old : router.distanceVia nbr src with
        | none =>
          rw [old] at known
          cases known
          exact infinite
        | some before =>
          rw [old] at known
          cases known
          exact valid.far nbr src before (toward ▸ different) old
      · rw [adds.others nbr dest new toward] at known
        exact valid.far nbr dest distance different known
  · intro dest entry chosen
    by_cases new : dest = src
    · rw [new, adds.entry] at chosen
      cases chosen
      refine ⟨src, ?_, new ▸ adds.direct⟩
      rw [neighbors, if_pos rfl]
    · rw [adds.entries dest new] at chosen
      rcases valid.backed dest entry chosen with ⟨nbr, onPort, distance⟩
      have older : nbr ≠ src := by
        rintro rfl
        rw [fresh] at onPort
        cases onPort
      refine ⟨nbr, ?_, ?_⟩
      · rw [neighbors, if_neg older]
        exact onPort
      · exact (adds.others nbr dest older new).trans distance
  · intro nbr number onPort
    rw [neighbors] at onPort
    by_cases new : nbr = src
    · rw [if_pos new] at onPort
      cases onPort
      rw [new]
      exact adds.entry
    · rw [if_neg new] at onPort
      rw [adds.entries nbr new]
      exact valid.direct nbr number onPort

/-! ## A lost neighbour -/

variable {entry : Entry}

theorem Shortest.backed (shortest : Shortest neighbors via (some entry)) :
    Route neighbors via entry := by
  cases shortest with
  | route _ route _ => exact route

theorem Valid.removed {after : RIPRouter Node} {port : PortNumber} (valid : Valid router)
    (cached : port.is port.number = true)
    (mine : ∀ number, router.neighbors.lookup src = some number -> number = port.number)
    (only : ∀ nbr, router.neighbors.lookup nbr = some port.number -> nbr = src)
    (removes : Removes src port changed router after) : Valid after := by
  constructor
  · intro nbr
    rw [removes.rows, valid.rows, <- lookup_isSome (s := after.neighbors), removes.neighbors,
      <- lookup_isSome]
    by_cases same : nbr = src <;> simp [same]
  · intro nbr other number first second
    rw [removes.neighbors] at first second
    split at first
    · cases first
    · split at second
      · cases second
      · exact valid.ports nbr other number first second
  · intro nbr member
    rcases (removes.rows nbr).mp member with ⟨different, present⟩
    rw [removes.via, if_neg different]
    exact valid.near nbr present
  · intro nbr dest distance different known
    rw [removes.via] at known
    split at known
    · cases known
    · exact valid.far nbr dest distance different known
  · intro dest entry chosen
    rcases removes.entries dest with ⟨_, rerouted, _⟩
    rw [chosen] at rerouted
    generalize before : router.forwardingTable.lookup dest = old at rerouted
    cases rerouted with
    | replaced _ shortest => exact shortest.backed
    | kept elsewhere =>
      rcases valid.backed dest entry before with ⟨nbr, onPort, distance⟩
      have different : nbr ≠ src := by
        rintro rfl
        have missed := elsewhere entry rfl
        rw [mine entry.port onPort, cached] at missed
        cases missed
      refine ⟨nbr, ?_, ?_⟩
      · rw [removes.neighbors, if_neg different]
        exact onPort
      · change after.distanceVia nbr dest = _
        rw [removes.via, if_neg different]
        exact distance
  · intro nbr number onPort
    rw [removes.neighbors] at onPort
    split at onPort
    · cases onPort
    · rename_i different
      have before := valid.direct nbr number onPort
      rcases removes.entries nbr with ⟨_, rerouted, _⟩
      rw [before] at rerouted
      generalize after.forwardingTable.lookup nbr = chosen at rerouted
      cases rerouted with
      | kept _ => rfl
      | replaced samePort _ =>
        exact absurd (only nbr (onPort.trans (congrArg _ (number_of_is samePort)))) different

/-! ## An update -/

variable {distance : Nat}

theorem refreshed_backed {before after : Option Entry} (onPort : neighbors.lookup src = some port)
    (here : via src = some distance) (backed : ∀ old, before = some old -> ∃ nbr,
      neighbors.lookup nbr = some old.port ∧ (nbr ≠ src -> via nbr = some old.distance))
    (refreshed : Refreshed neighbors via distance port before changed after)
    (chosen : after = some entry) : Route neighbors via entry := by
  cases refreshed with
  | absent => cases chosen
  | closer _ =>
    cases chosen
    exact ⟨src, onPort, here⟩
  | tie same _ =>
    cases chosen
    exact ⟨src, onPort, same ▸ here⟩
  | lost _ _ shortest =>
    rw [chosen] at shortest
    exact shortest.backed
  | kept _ others =>
    cases chosen
    rcases backed entry rfl with ⟨nbr, samePort, distant⟩
    by_cases same : nbr = src
    · subst same
      rw [onPort] at samePort
      cases samePort
      exact ⟨nbr, onPort, others rfl ▸ here⟩
    · exact ⟨nbr, samePort, distant same⟩

theorem stretch_bounds {announced : Nat} (positive : 1 <= announced) :
    2 <= stretch announced ∧ stretch announced <= POSITIVE_INFINITY := by
  unfold stretch POSITIVE_INFINITY
  split <;> omega

variable {paths : Dict Node Nat} {dest : Node}

/-- The distances that an update leads to. -/
theorem learned_bounds (valid : Valid router) (different : dest ≠ src)
    (positive : ∀ node announced, paths.lookup node = some announced -> 1 <= announced)
    (new : learned router.self (router.column dest) src paths dest = some distance) :
    2 <= distance ∧ distance <= POSITIVE_INFINITY := by
  have announced : ∀ value, (paths.lookup dest).map stretch = some value ->
      2 <= value ∧ value <= POSITIVE_INFINITY := by
    intro value same
    rcases map_eq_some_iff.mp same with ⟨number, announces, rfl⟩
    exact stretch_bounds (positive dest number announces)
  unfold learned at new
  cases known : (router.column dest).via src with
  | none =>
    rw [known] at new
    exact announced distance new
  | some old =>
    rw [known] at new
    simp only at new
    split at new
    · cases value : (paths.lookup dest).map stretch with
      | none =>
        rw [value] at new
        cases new
        decide
      | some number =>
        rw [value] at new
        cases new
        exact announced number value
    · cases new
      exact valid.far src dest _ different known

/-- An entry is kept when the same is learnt again on its port, or something
worse on another one. -/
theorem refreshed_kept {after : Option Entry}
    (refreshed : Refreshed neighbors via distance port (some entry) changed after)
    (known : entry.port = port ∧ distance = entry.distance ∨
      entry.port ≠ port ∧ entry.distance < distance) : after = some entry := by
  cases refreshed with
  | closer less | tie same lower | lost mine more _ => omega
  | kept _ _ => rfl

section

variable {router after : RIPRouter Node} {src : Node} {paths : Dict Node Nat} {port : Nat}
  (updates : ∀ dest, ∃ here,
    router.Updates src paths port dest here (after.column dest))

include updates

variable {nbr : Node}

theorem updated_others (dest : Node) (different : nbr ≠ src) :
    after.distanceVia nbr dest = router.distanceVia nbr dest ∨
      router.distanceVia nbr dest = none ∧
        after.distanceVia nbr dest = some POSITIVE_INFINITY := by
  rcases updates dest with ⟨_, update⟩
  exact update.others different

theorem updated_here (dest : Node) :
    after.distanceVia src dest = learned router.self (router.column dest) src paths dest := by
  rcases updates dest with ⟨_, update⟩
  exact update.here

variable (valid : Valid router)

include valid

theorem updated_near (present : nbr ∈ router.routingTable) :
    after.distanceVia nbr nbr = some 1 := by
  have before := valid.near nbr present
  by_cases same : nbr = src
  · subst same
    have known : (router.column nbr).via nbr = some 1 := before
    rw [updated_here updates]
    simp [learned, known]
  · rcases updated_others updates nbr same with unchanged | ⟨missing, _⟩
    · rw [unchanged, before]
    · rw [missing] at before
      cases before

theorem updated_far
    (positive : ∀ node announced, paths.lookup node = some announced -> 1 <= announced)
    {dest : Node} (different : dest ≠ nbr) (known : after.distanceVia nbr dest = some distance) :
    2 <= distance ∧ distance <= POSITIVE_INFINITY := by
  by_cases same : nbr = src
  · subst same
    rw [updated_here updates] at known
    exact learned_bounds valid different positive known
  · rcases updated_others updates dest same with unchanged | ⟨_, filled⟩
    · rw [unchanged] at known
      exact valid.far nbr dest distance different known
    · rw [filled] at known
      cases known
      decide

variable (onPort : router.neighbors.lookup src = some port)

include onPort

theorem updated_backed {dest : Node} {entry : Entry}
    (chosen : (after.column dest).entry = some entry) :
    Route router.neighbors (after.column dest).via entry := by
  rcases updates dest with ⟨_, update⟩
  have kept : ∀ old, (router.column dest).entry = some old -> ∃ nbr,
      router.neighbors.lookup nbr = some old.port ∧
        (nbr ≠ src -> (after.column dest).via nbr = some old.distance) := by
    intro old before
    rcases valid.backed dest old before with ⟨nbr, samePort, distance⟩
    refine ⟨nbr, samePort, fun different => ?_⟩
    rcases updated_others updates dest different with unchanged | ⟨missing, _⟩
    · exact unchanged.trans distance
    · cases missing.symm.trans distance
  generalize after.column dest = column at *
  cases update with
  | untouched _ => exact valid.backed dest entry chosen
  | first _ _ _ learns =>
    cases chosen
    exact ⟨src, onPort, learns.here⟩
  | refreshed _ _ learns refreshed =>
    exact refreshed_backed onPort learns.here kept refreshed chosen

theorem updated_direct
    (positive : ∀ node announced, paths.lookup node = some announced -> 1 <= announced)
    {number : Nat} (samePort : router.neighbors.lookup nbr = some number) :
    (after.column nbr).entry = some ⟨number, 1⟩ := by
  have before : (router.column nbr).entry = some ⟨number, 1⟩ :=
    valid.direct nbr number samePort
  have owner : number = port -> nbr = src := by
    rintro rfl
    exact valid.ports nbr src number samePort onPort
  have distances : ∀ distance, (after.column nbr).via src = some distance ->
      nbr = src ∧ number = port ∧ distance = 1 ∨ nbr ≠ src ∧ 2 <= distance := by
    intro distance known
    by_cases same : nbr = src
    · subst same
      have direct := updated_near updates valid (valid.present onPort)
      rw [onPort] at samePort
      cases samePort
      exact .inl ⟨rfl, rfl, some.inj (known.symm.trans direct)⟩
    · exact .inr ⟨same, (updated_far updates valid positive same known).1⟩
  rcases updates nbr with ⟨_, update⟩
  generalize after.column nbr = column at *
  cases update with
  | untouched _ => exact before
  | first _ _ missing _ =>
    rw [missing] at before
    cases before
  | refreshed _ _ learns refreshed =>
    rw [before] at refreshed
    refine refreshed_kept refreshed ?_
    rcases distances _ learns.here with ⟨_, samePort, direct⟩ | ⟨different, farther⟩
    · exact .inl ⟨samePort, direct⟩
    · exact .inr ⟨mt owner different, farther⟩

end

theorem Valid.updated {after : RIPRouter Node} (valid : Valid router)
    (onPort : router.neighbors.lookup src = some port)
    (positive : ∀ node announced, paths.lookup node = some announced -> 1 <= announced)
    (shape : SameShape router after) (updates : ∀ dest, ∃ here,
      router.Updates src paths port dest here (after.column dest)) : Valid after := by
  constructor
  · intro nbr
    rw [shape.rows, shape.neighbors, valid.rows]
  · rw [shape.neighbors]
    exact valid.ports
  · intro nbr member
    exact updated_near updates valid ((shape.rows nbr).mp member)
  · intro nbr dest distance different known
    exact updated_far updates valid positive different known
  · intro dest entry chosen
    rw [shape.neighbors]
    exact updated_backed updates valid onPort chosen
  · intro nbr number samePort
    rw [shape.neighbors] at samePort
    exact updated_direct updates valid onPort positive samePort

/-! ## Every event -/

theorem lookup_ne_of_entries {dict : Dict Node Nat} {value : Nat}
    (free : ∀ pair, pair ∈ dict.entries -> pair.2 ≠ value) (key : Node) :
    dict.lookup key ≠ some value :=
  fun found => free ⟨key, value⟩ (mem_lookup_iff.mp found) rfl

theorem positive_of_entries (positive : ∀ path, path ∈ paths.entries -> 1 <= path.2)
    (node : Node) (announced : Nat) (found : paths.lookup node = some announced) : 1 <= announced :=
  positive ⟨node, announced⟩ (mem_lookup_iff.mp found)

/-- What handling an event does, in terms of the specifications above. -/
inductive Handled (router : RIPRouter Node) : Event Node -> Bool -> RIPRouter Node -> Prop where
  | linkUp {src : Node} {port : Nat} {after : RIPRouter Node}
      (adds : Adds src port router after) : Handled router (.linkUp src port) true after
  | linkDown {src : Node} {port : PortNumber} {changed : Bool} {after : RIPRouter Node}
      (removes : Removes src port changed router after) :
      Handled router (.linkDown src port) changed after
  | ignored {src : Node} {paths : Dict Node Nat} {port : Nat}
      (stranger : src ∉ router.routingTable) : Handled router (.update src paths port) false router
  | update {src : Node} {paths : Dict Node Nat} {port : Nat} {changed : Bool}
      {after : RIPRouter Node} (known : src ∈ router.routingTable)
      (shape : SameShape router after)
      (updates : ∀ dest, ∃ here,
        router.Updates src paths port dest here (after.column dest) ∧
          (here = true -> changed = true)) :
      Handled router (.update src paths port) changed after

section

variable {router after : RIPRouter Node} {src : Node} {paths : Dict Node Nat} {port : Nat}
  {changed : Bool}

theorem Handled.update_self (handled : Handled router (.update src paths port) changed after) :
    after.self = router.self := by
  cases handled with
  | ignored _ => rfl
  | update _ shape _ => exact shape.self

theorem Handled.update_neighbors (handled : Handled router (.update src paths port) changed after) :
    after.neighbors = router.neighbors := by
  cases handled with
  | ignored _ => rfl
  | update _ shape _ => exact shape.neighbors

end

variable {router after : RIPRouter Node} {event : Event Node} {changed : Bool}

theorem handled_of_handleRx
    (fresh : ∀ src port, event = .linkUp src port -> src ∉ router.neighbors)
    (handled : router.handleRx event = some (changed, after)) :
    Handled router event changed after := by
  cases event with
  | linkUp src port =>
    cases handled
    exact Handled.linkUp (addNeighbor_spec port (fresh src port rfl))
  | linkDown src port => exact Handled.linkDown (removeNeighbor_spec handled)
  | update src paths port =>
    unfold handleRx at handled
    cases found : router.routingTable.lookup src with
    | none =>
      simp only [found] at handled
      cases handled
      exact Handled.ignored (lookup_eq_none.mp found)
    | some row =>
      simp only [found] at handled
      rcases handleRoutingUpdate_spec handled with ⟨shape, updates⟩
      exact Handled.update (lookup_isSome.mp (isSome_of_eq_some found)) shape
        updates

/-- What an event may do to an entry without reporting a change. -/
inductive Unreported : Option Entry -> Option Entry -> Prop where
  | same (entry : Option Entry) : Unreported entry entry
  | moved {old new : Entry} (same : new.distance = old.distance) :
      Unreported (some old) (some new)
  | dropped {old : Entry} (infinite : old.distance = POSITIVE_INFINITY) :
      Unreported (some old) none

theorem unreported_of_rerouted {port : PortNumber} {via : Node -> Option Nat}
    {before after : Option Entry}
    (rerouted : Rerouted neighbors via port before false after) : Unreported before after := by
  generalize flagged : false = flag at rerouted
  cases rerouted with
  | kept _ => exact Unreported.same _
  | replaced _ _ =>
    rename_i old mine shortest
    have same : (resultOf after).2 = old.distance := by simpa using flagged
    cases after with
    | none => exact Unreported.dropped same.symm
    | some new => exact Unreported.moved same

theorem unreported_of_update {self : Node} {before after : Column Node}
    (update : ColumnUpdate self neighbors src paths port dest before false after) :
    Unreported before.entry after.entry := by
  generalize flagged : false = flag at update
  cases update with
  | untouched _ => exact Unreported.same _
  | first _ _ _ _ => cases flagged
  | refreshed _ _ _ refreshed =>
    generalize before.entry = old at refreshed
    cases refreshed with
    | tie _ _ => exact Unreported.moved rfl
    | closer _ | lost _ _ _ => cases flagged
    | absent | kept _ _ => exact Unreported.same _

theorem Handled.unreported (handled : router.Handled event false after) (dest : Node) :
    Unreported (router.forwardingTable.lookup dest) (after.forwardingTable.lookup dest) := by
  cases handled with
  | linkDown removes =>
    rcases removes.entries dest with ⟨here, rerouted, reported⟩
    cases here with
    | true => cases reported rfl
    | false => exact unreported_of_rerouted rerouted
  | ignored _ => exact Unreported.same _
  | update _ _ updates =>
    rcases updates dest with ⟨here, update, reported⟩
    cases here with
    | true => cases reported rfl
    | false => exact unreported_of_update update

theorem Arrives.handled (arrives : router.Arrives event)
    (handled : router.handleRx event = some (changed, after)) :
    Handled router event changed after := by
  refine handled_of_handleRx ?_ handled
  rintro src port rfl
  exact lookup_eq_none.mp arrives.1

theorem Valid.arrived (valid : Valid router) (arrives : router.Arrives event)
    (positive : event.Positive) (cached : event.cached = true)
    (handled : Handled router event changed after) : Valid after := by
  cases handled with
  | linkUp adds => exact valid.added arrives.1 (lookup_ne_of_entries arrives.2) adds
  | linkDown removes =>
    refine valid.removed cached ?_ ?_ removes
    · intro number onPort
      exact some.inj (onPort.symm.trans arrives)
    · intro nbr onPort
      exact valid.ports nbr _ _ onPort arrives
  | ignored _ => exact valid
  | update _ shape updates =>
    refine valid.updated arrives (positive_of_entries positive) shape ?_
    intro dest
    rcases updates dest with ⟨here, update, _⟩
    exact ⟨here, update⟩

end RIPRouter

end RipRouter
end Codebank
