import Codebank.RipRouter.Router

namespace Codebank
namespace RipRouter

open Foundation AList Function List Option

/-!
# The handlers, column by column

All loops of the handlers treat one destination after the other and touch
nothing of the others.  So each handler is specified by what it does to the
*column* of a destination: the distances to it through each neighbour, and its
entry in the forwarding table.
-/

namespace RIPRouter

variable {Node : Type} [DecidableEq Node]

/-! ## Single assignments -/

/-- The same neighbours and rows, whatever the distances in them. -/
structure SameShape (router after : RIPRouter Node) : Prop where
  self : after.self = router.self
  neighbors : after.neighbors = router.neighbors
  rows : ∀ nbr, nbr ∈ after.routingTable <-> nbr ∈ router.routingTable

omit [DecidableEq Node] in
theorem SameShape.refl (router : RIPRouter Node) : SameShape router router :=
  ⟨rfl, rfl, fun _ => Iff.rfl⟩

variable {router : RIPRouter Node} {after : RIPRouter Node}

omit [DecidableEq Node] in
theorem SameShape.symm (same : SameShape router after) : SameShape after router :=
  ⟨same.self.symm, same.neighbors.symm, fun nbr => (same.rows nbr).symm⟩

variable {middle : RIPRouter Node}

omit [DecidableEq Node] in
theorem SameShape.trans (first : SameShape router middle) (second : SameShape middle after) :
    SameShape router after :=
  ⟨second.self.trans first.self, second.neighbors.trans first.neighbors,
    fun nbr => (second.rows nbr).trans (first.rows nbr)⟩

/-- The distances to a destination through each neighbour, and its entry. -/
@[ext] structure Column (Node : Type) where
  via : Node -> Option Nat
  entry : Option Entry

def column (router : RIPRouter Node) (dest : Node) : Column Node :=
  ⟨fun nbr => router.distanceVia nbr dest, router.forwardingTable.lookup dest⟩

variable {dest : Node}

theorem mem_of_distanceVia {nbr : Node} {distance : Nat}
    (known : router.distanceVia nbr dest = some distance) : nbr ∈ router.routingTable := by
  rw [<- lookup_isSome]
  cases found : router.routingTable.lookup nbr with
  | none => simp [distanceVia, found] at known
  | some row => rfl

theorem setDistance_sameShape (router : RIPRouter Node) (nbr dest : Node) (distance : Nat) :
    SameShape router (router.setDistance nbr dest distance) := by
  unfold setDistance
  cases found : router.routingTable.lookup nbr with
  | none => exact SameShape.refl router
  | some row =>
    refine ⟨rfl, rfl, fun other => ?_⟩
    have present : nbr ∈ router.routingTable := lookup_isSome.mp (by rw [found]; rfl)
    rw [mem_insert]
    constructor
    · rintro (rfl | member)
      · exact present
      · exact member
    · exact .inr

@[simp] theorem setDistance_forwardingTable (router : RIPRouter Node) (nbr dest : Node)
    (distance : Nat) :
    (router.setDistance nbr dest distance).forwardingTable = router.forwardingTable := by
  unfold setDistance
  split <;> rfl

theorem distanceVia_setDistance {nbr : Node} (present : nbr ∈ router.routingTable) (dest : Node)
    (distance : Nat) (other dest' : Node) :
    (router.setDistance nbr dest distance).distanceVia other dest' =
      if other = nbr ∧ dest' = dest then some distance else router.distanceVia other dest' := by
  rcases isSome_iff_exists.mp (lookup_isSome.mpr present) with ⟨row, found⟩
  simp only [setDistance, found, distanceVia]
  by_cases sameNbr : other = nbr
  · subst sameNbr
    rw [lookup_insert, found]
    by_cases sameDest : dest' = dest
    · subst sameDest
      simp [lookup_insert]
    · simp [sameDest, lookup_insert_ne sameDest]
  · simp [sameNbr, lookup_insert_ne sameNbr]

variable {other : Node}

theorem column_setDistance_ne {nbr : Node} (present : nbr ∈ router.routingTable) (distance : Nat)
    (different : other ≠ dest) :
    (router.setDistance nbr dest distance).column other = router.column other := by
  ext : 1
  · funext neighbor
    change distanceVia _ neighbor other = _
    rw [distanceVia_setDistance present, if_neg (fun both => different both.2)]
    rfl
  · change AList.lookup other _ = _
    rw [setDistance_forwardingTable]
    rfl

theorem column_setDistance {nbr : Node} (present : nbr ∈ router.routingTable) (dest : Node)
    (distance : Nat) :
    (router.setDistance nbr dest distance).column dest =
      ⟨Function.update (router.column dest).via nbr (some distance),
        (router.column dest).entry⟩ := by
  ext : 1
  · funext neighbor
    change distanceVia _ neighbor dest =
      Function.update (router.column dest).via nbr (some distance) neighbor
    rw [distanceVia_setDistance present, update_apply]
    simp only [and_true]
    rfl
  · change AList.lookup dest _ = _
    rw [setDistance_forwardingTable]
    rfl

theorem column_setEntry (router : RIPRouter Node) (dest : Node) (entry : Entry) :
    (router.setEntry dest entry).column dest = ⟨(router.column dest).via, some entry⟩ := by
  ext : 1
  · rfl
  · exact lookup_insert _

theorem column_setEntry_ne (router : RIPRouter Node) (entry : Entry) (different : other ≠ dest) :
    (router.setEntry dest entry).column other = router.column other := by
  ext : 1
  · rfl
  · exact lookup_insert_ne different

theorem column_popEntry (router : RIPRouter Node) (dest : Node) :
    (router.popEntry dest).column dest = ⟨(router.column dest).via, none⟩ := by
  ext : 1
  · rfl
  · exact lookup_erase _ _

theorem column_popEntry_ne (router : RIPRouter Node) (different : other ≠ dest) :
    (router.popEntry dest).column other = router.column other := by
  ext : 1
  · rfl
  · exact lookup_erase_ne different

/-- One column changes, and nothing else. -/
structure OnlyColumn (dest : Node) (router after : RIPRouter Node) : Prop where
  shape : SameShape router after
  others : ∀ other, other ≠ dest -> after.column other = router.column other

theorem OnlyColumn.refl (dest : Node) (router : RIPRouter Node) : OnlyColumn dest router router :=
  ⟨SameShape.refl router, fun _ _ => rfl⟩

theorem OnlyColumn.trans (first : OnlyColumn dest router middle)
    (second : OnlyColumn dest middle after) : OnlyColumn dest router after :=
  ⟨first.shape.trans second.shape,
    fun other different => (second.others other different).trans (first.others other different)⟩

theorem onlyColumn_setDistance {nbr : Node} (present : nbr ∈ router.routingTable) (dest : Node)
    (distance : Nat) : OnlyColumn dest router (router.setDistance nbr dest distance) :=
  ⟨setDistance_sameShape router nbr dest distance,
    fun _ different => column_setDistance_ne present distance different⟩

theorem onlyColumn_setEntry (router : RIPRouter Node) (dest : Node) (entry : Entry) :
    OnlyColumn dest router (router.setEntry dest entry) :=
  ⟨⟨rfl, rfl, fun _ => Iff.rfl⟩, fun _ different => column_setEntry_ne router entry different⟩

theorem onlyColumn_popEntry (router : RIPRouter Node) (dest : Node) :
    OnlyColumn dest router (router.popEntry dest) :=
  ⟨⟨rfl, rfl, fun _ => Iff.rfl⟩, fun _ different => column_popEntry_ne router different⟩

/-- How far `fillColumn` has come: the rows done have a distance to the node. -/
structure Filling (router : RIPRouter Node) (node : Node) (done : List Node)
    (current : RIPRouter Node) : Prop where
  only : OnlyColumn node router current
  entry : (current.column node).entry = (router.column node).entry
  via : ∀ nbr, (current.column node).via nbr =
    if nbr ∈ done then some (((router.column node).via nbr).getD POSITIVE_INFINITY)
    else (router.column node).via nbr

theorem Filling.turn {current : RIPRouter Node} {node nbr : Node} {done : List Node}
    (filling : Filling router node done current) (member : nbr ∈ router.routingTable.keys)
    (fresh : nbr ∉ done) : Filling router node (done ++ [nbr]) (fillRow node current nbr) := by
  rcases filling with ⟨only, sameEntry, via⟩
  have present : nbr ∈ current.routingTable :=
    (only.shape.rows nbr).mpr (AList.mem_keys.mpr member)
  have here : current.distanceVia nbr node = (router.column node).via nbr :=
    (via nbr).trans (if_neg fresh)
  unfold fillRow
  by_cases missing : current.distanceVia nbr node = none
  · rw [if_pos missing]
    refine ⟨only.trans (onlyColumn_setDistance present node _), ?_, fun other => ?_⟩ <;>
      rw [column_setDistance present]
    · exact sameEntry
    by_cases same : other = nbr
    · subst same
      rw [here] at missing
      simp [missing]
    · simp [same, via]
  · rw [if_neg missing]
    refine ⟨only, sameEntry, fun other => ?_⟩
    by_cases same : other = nbr
    · subst same
      rw [here] at missing
      rcases ne_none_iff_exists'.mp missing with ⟨distance, known⟩
      rw [via, if_neg fresh, known]
      simp
    · simp [same, via]

/-- `fillColumn` gives every neighbour a distance to the node. -/
theorem filling_fillColumn (router : RIPRouter Node) (node : Node) :
    Filling router node router.routingTable.keys (router.fillColumn node) :=
  foldl_invariant (Filling router node) router.routingTable.keys_nodup
    ⟨OnlyColumn.refl node router, rfl, fun nbr => by simp⟩
    fun _ _ _ member fresh filling => filling.turn member fresh

/-! ## The shortest path -/

end RIPRouter

/-- The order of preference: by distance, then by port. -/
def Entry.Preferred (entry other : Entry) : Prop :=
  entry.distance < other.distance ∨ entry.distance = other.distance ∧ entry.port <= other.port

theorem Entry.Preferred.refl (entry : Entry) : entry.Preferred entry :=
  .inr ⟨rfl, Nat.le_refl _⟩

theorem Entry.Preferred.trans {entry middle other : Entry} (first : entry.Preferred middle)
    (second : middle.Preferred other) : entry.Preferred other := by
  unfold Entry.Preferred at *
  omega

namespace RIPRouter

variable {Node : Type} [DecidableEq Node] {done : List Node} {neighbors : Dict Node Nat}
  {before : Option Entry} {router : RIPRouter Node} {dest : Node}

/-- The routes a router knows to a destination: the port of a neighbour with
the distance through it. -/
def Route (neighbors : Dict Node Nat) (via : Node -> Option Nat) (entry : Entry) : Prop :=
  ∃ nbr, neighbors.lookup nbr = some entry.port ∧ via nbr = some entry.distance

/-- The most preferred route, as long as one is shorter than infinity. -/
inductive Shortest (neighbors : Dict Node Nat) (via : Node -> Option Nat) : Option Entry -> Prop
    where
  | unreachable (far : ∀ other, Route neighbors via other ->
      POSITIVE_INFINITY <= other.distance) : Shortest neighbors via none
  | route {entry : Entry} (near : entry.distance < POSITIVE_INFINITY)
      (route : Route neighbors via entry)
      (best : ∀ other, Route neighbors via other -> entry.Preferred other) :
      Shortest neighbors via (some entry)

/-- What `find_shortest_path` returns for a route or for none. -/
def resultOf : Option Entry -> Option Nat × Nat
  | none => (none, POSITIVE_INFINITY)
  | some entry => (some entry.port, entry.distance)

/-- The distances through some of the neighbours. -/
def among (done : List Node) (via : Node -> Option Nat) (nbr : Node) : Option Nat :=
  if nbr ∈ done then via nbr else none

variable {via : Node -> Option Nat} {nbr : Node}

theorem route_among_append {entry : Entry} :
    Route neighbors (among (done ++ [nbr]) via) entry <->
      Route neighbors (among done via) entry ∨
        neighbors.lookup nbr = some entry.port ∧ via nbr = some entry.distance := by
  constructor
  · rintro ⟨other, port, distance⟩
    by_cases earlier : other ∈ done
    · refine .inl ⟨other, port, ?_⟩
      rw [<- distance]
      simp [among, earlier]
    · by_cases same : other = nbr
      · subst same
        exact .inr ⟨port, by simpa [among] using distance⟩
      · simp [among, earlier, same] at distance
  · rintro (⟨other, port, distance⟩ | ⟨port, distance⟩)
    · refine ⟨other, port, ?_⟩
      by_cases earlier : other ∈ done
      · rw [<- distance]
        simp [among, earlier]
      · simp [among, earlier] at distance
    · exact ⟨nbr, port, by simp [among, distance]⟩

theorem among_keys (router : RIPRouter Node) (dest : Node) :
    among router.routingTable.keys (router.column dest).via = (router.column dest).via := by
  funext nbr
  unfold among
  split
  · rfl
  · rename_i absent
    cases known : (router.column dest).via nbr with
    | none => rfl
    | some distance => exact absurd (AList.mem_keys.mp (mem_of_distanceVia known)) absent

/-- A route that nothing done so far is preferred to becomes the best one. -/
theorem shortest_of_new {port distance : Nat} (so_far : Shortest neighbors (among done via) before)
    (better : ∀ entry, before = some entry -> Entry.Preferred ⟨port, distance⟩ entry)
    (near : distance < POSITIVE_INFINITY) (known : via nbr = some distance)
    (onPort : neighbors.lookup nbr = some port) :
    Shortest neighbors (among (done ++ [nbr]) via) (some ⟨port, distance⟩) := by
  refine Shortest.route near (route_among_append.mpr (.inr ⟨onPort, known⟩)) ?_
  intro other route
  rcases route_among_append.mp route with earlier | ⟨samePort, sameDistance⟩
  · cases so_far with
    | unreachable far => exact .inl (Nat.lt_of_lt_of_le near (far other earlier))
    | route _ _ best => exact (better _ rfl).trans (best other earlier)
  · rw [onPort] at samePort
    rw [known] at sameDistance
    cases samePort
    cases sameDistance
    exact Entry.Preferred.refl _

/-- A route that the best one so far is preferred to changes nothing. -/
theorem shortest_of_old (so_far : Shortest neighbors (among done via) before)
    (far : before = none -> ∀ distance, via nbr = some distance ->
      POSITIVE_INFINITY <= distance)
    (worse : ∀ entry, before = some entry -> ∀ port distance,
      neighbors.lookup nbr = some port -> via nbr = some distance ->
      entry.Preferred ⟨port, distance⟩) :
    Shortest neighbors (among (done ++ [nbr]) via) before := by
  cases so_far with
  | unreachable allFar =>
    refine Shortest.unreachable (fun other route => ?_)
    rcases route_among_append.mp route with earlier | ⟨_, known⟩
    · exact allFar other earlier
    · exact far rfl other.distance known
  | route near route best =>
    refine Shortest.route near (route_among_append.mpr (.inl route)) (fun other route => ?_)
    rcases route_among_append.mp route with earlier | ⟨onPort, known⟩
    · exact best other earlier
    · exact worse _ rfl other.port other.distance onPort known

/-- One turn of `find_shortest_path` takes one more neighbour into account. -/
theorem shorter_spec {next : Option Nat × Nat}
    (so_far : Shortest router.neighbors (among done (router.column dest).via) before)
    (turned : router.shorter dest (resultOf before) nbr = some next) :
    ∃ after, next = resultOf after ∧
      Shortest router.neighbors (among (done ++ [nbr]) (router.column dest).via) after := by
  have bounded : (resultOf before).2 <= POSITIVE_INFINITY := by
    cases so_far with
    | unreachable _ => exact Nat.le_refl _
    | route near _ _ => exact Nat.le_of_lt near
  unfold shorter at turned
  cases known : router.distanceVia nbr dest with
  | none => rw [known] at turned; cases turned
  | some distance =>
    have through : (router.column dest).via nbr = some distance := known
    rw [known] at turned
    simp only at turned
    by_cases closer : distance ≠ POSITIVE_INFINITY ∧ distance < (resultOf before).2
    · rw [if_pos closer] at turned
      rcases map_eq_some_iff.mp turned with ⟨port, onPort, rfl⟩
      refine ⟨some ⟨port, distance⟩, rfl, shortest_of_new so_far ?_
        (Nat.lt_of_lt_of_le closer.2 bounded) through onPort⟩
      rintro entry rfl
      exact .inl closer.2
    · rw [if_neg closer] at turned
      by_cases tie : distance ≠ POSITIVE_INFINITY ∧ distance = (resultOf before).2
      · rw [if_pos tie] at turned
        rcases map_eq_some_iff.mp turned with ⟨port, onPort, rfl⟩
        cases before with
        | none => exact absurd tie.2 tie.1
        | some entry =>
          rcases entry with ⟨lowest, least⟩
          rcases tie with ⟨finite, same⟩
          change distance = least at same
          subst same
          by_cases lower : port < lowest
          · refine ⟨some ⟨port, distance⟩, by simp [resultOf, lower],
              shortest_of_new so_far ?_ ?_ through onPort⟩
            · rintro entry ⟨⟩
              exact .inr ⟨rfl, Nat.le_of_lt lower⟩
            · exact Nat.lt_of_le_of_ne bounded finite
          · refine ⟨some ⟨lowest, distance⟩, by simp [resultOf, lower],
              shortest_of_old so_far (fun missing => by cases missing) ?_⟩
            rintro entry ⟨⟩ otherPort other samePort sameDistance
            rw [onPort] at samePort
            rw [through] at sameDistance
            cases samePort
            cases sameDistance
            exact .inr ⟨rfl, Nat.le_of_not_lt lower⟩
      · rw [if_neg tie] at turned
        cases turned
        have farther : distance = POSITIVE_INFINITY ∨ (resultOf before).2 < distance := by
          omega
        refine ⟨before, rfl, shortest_of_old so_far ?_ ?_⟩
        · rintro rfl other sameDistance
          rw [through] at sameDistance
          cases sameDistance
          change _ ∨ POSITIVE_INFINITY < distance at farther
          omega
        · rintro entry rfl port other _ sameDistance
          rw [through] at sameDistance
          cases sameDistance
          cases so_far with
          | route near _ _ =>
            rcases farther with infinite | farther
            · exact .inl (infinite ▸ near)
            · exact .inl farther

theorem findShortestPath_spec {found : Option Nat × Nat}
    (returned : router.findShortestPath dest = some found) :
    ∃ best, found = resultOf best ∧
      Shortest router.neighbors (router.column dest).via best := by
  rw [<- among_keys]
  refine foldlM_invariant (fun done best => ∃ entry, best = resultOf entry ∧
    Shortest router.neighbors (among done (router.column dest).via) entry)
    router.routingTable.keys_nodup ⟨none, rfl, Shortest.unreachable ?_⟩ ?_ returned
  · rintro other ⟨nbr, _, distance⟩
    simp [among] at distance
  · rintro done nbr _ next _ _ ⟨before, rfl, so_far⟩ turned
    exact shorter_spec so_far turned

/-! ## Routing updates -/

/-- What `update_forwarding_table` makes of an entry when the distance through
the neighbour at `port` is `distance`; the flag tells whether it was reported
as a change. -/
inductive Refreshed (neighbors : Dict Node Nat) (via : Node -> Option Nat) (distance port : Nat) :
    Option Entry -> Bool -> Option Entry -> Prop where
  | absent : Refreshed neighbors via distance port none false none
  | closer {entry : Entry} (less : distance < entry.distance) :
      Refreshed neighbors via distance port (some entry) true (some ⟨port, distance⟩)
  | tie {entry : Entry} (same : distance = entry.distance) (lower : port < entry.port) :
      Refreshed neighbors via distance port (some entry) false (some ⟨port, entry.distance⟩)
  | lost {entry : Entry} {best : Option Entry} (mine : entry.port = port)
      (more : entry.distance < distance) (shortest : Shortest neighbors via best) :
      Refreshed neighbors via distance port (some entry) true best
  | kept {entry : Entry} (preferred : entry.Preferred ⟨port, distance⟩)
      (others : entry.port = port -> distance = entry.distance) :
      Refreshed neighbors via distance port (some entry) false (some entry)

variable {changed : Bool} {after : RIPRouter Node}

theorem updateForwardingTable_spec {src : Node} {port distance : Nat}
    (known : router.distanceVia src dest = some distance)
    (updated : router.updateForwardingTable src dest port = some (changed, after)) :
    OnlyColumn dest router after ∧ (after.column dest).via = (router.column dest).via ∧
      Refreshed router.neighbors (router.column dest).via distance port
        (router.column dest).entry changed (after.column dest).entry := by
  have setting : ∀ entry, OnlyColumn dest router (router.setEntry dest entry) ∧
      ((router.setEntry dest entry).column dest).via = (router.column dest).via ∧
      ((router.setEntry dest entry).column dest).entry = some entry := by
    intro entry
    rw [column_setEntry]
    exact ⟨onlyColumn_setEntry router dest entry, rfl, rfl⟩
  unfold updateForwardingTable at updated
  cases found : router.forwardingTable.lookup dest with
  | none =>
    rw [found] at updated
    cases updated
    have missing : (router.column dest).entry = none := found
    rw [missing]
    exact ⟨OnlyColumn.refl dest router, rfl, Refreshed.absent⟩
  | some entry =>
    have chosen : (router.column dest).entry = some entry := found
    rw [found, known] at updated
    simp only at updated
    rw [chosen]
    by_cases less : distance < entry.distance
    · rw [if_pos less] at updated
      cases updated
      rcases setting ⟨port, distance⟩ with ⟨only, sameVia, newEntry⟩
      rw [newEntry]
      exact ⟨only, sameVia, Refreshed.closer less⟩
    rw [if_neg less] at updated
    by_cases tie : distance = entry.distance ∧ port < entry.port
    · rw [if_pos tie] at updated
      cases updated
      rcases setting ⟨port, entry.distance⟩ with ⟨only, sameVia, newEntry⟩
      rw [newEntry]
      exact ⟨only, sameVia, Refreshed.tie tie.1 tie.2⟩
    rw [if_neg tie] at updated
    by_cases lost : entry.port = port ∧ distance > entry.distance
    · rw [if_pos lost] at updated
      cases search : router.findShortestPath dest with
      | none => rw [search] at updated; cases updated
      | some result =>
        rw [search] at updated
        rcases findShortestPath_spec search with ⟨best, rfl, shortest⟩
        cases best with
        | none =>
          cases updated
          rw [column_popEntry]
          exact ⟨onlyColumn_popEntry router dest, rfl,
            Refreshed.lost lost.1 lost.2 shortest⟩
        | some route =>
          cases updated
          rcases setting route with ⟨only, sameVia, newEntry⟩
          rw [newEntry]
          exact ⟨only, sameVia, Refreshed.lost lost.1 lost.2 shortest⟩
    · rw [if_neg lost] at updated
      cases updated
      rw [chosen]
      refine ⟨OnlyColumn.refl dest router, rfl, Refreshed.kept ?_ ?_⟩
      · change entry.distance < distance ∨ entry.distance = distance ∧ entry.port <= port
        omega
      · omega

/-- The distance to a destination that an update leaves in the row of its
sender: infinity for a known destination that it does not announce. -/
def learned (self : Node) (column : Column Node) (src : Node) (paths : Dict Node Nat)
    (dest : Node) : Option Nat :=
  match column.via src with
  | some old =>
    if dest ≠ src ∧ dest ≠ self then
      some (((paths.lookup dest).map stretch).getD POSITIVE_INFINITY)
    else some old
  | none => (paths.lookup dest).map stretch

/-- The distances of a column when `src` is given one, and neighbours that
have none may be filled up. -/
structure Learns (src : Node) (distance : Nat) (before after : Node -> Option Nat) : Prop where
  here : after src = some distance
  others : ∀ nbr, nbr ≠ src ->
    after nbr = before nbr ∨ before nbr = none ∧ after nbr = some POSITIVE_INFINITY

/-- What an update makes of a column. -/
inductive ColumnUpdate (self : Node) (neighbors : Dict Node Nat) (src : Node)
    (paths : Dict Node Nat) (port : Nat) (dest : Node) (column : Column Node) :
    Bool -> Column Node -> Prop where
  | untouched (nothing : learned self column src paths dest = none) :
      ColumnUpdate self neighbors src paths port dest column false column
  | first {distance : Nat} {via : Node -> Option Nat}
      (new : learned self column src paths dest = some distance) (unknown : column.via src = none)
      (missing : column.entry = none) (learns : Learns src distance column.via via) :
      ColumnUpdate self neighbors src paths port dest column true ⟨via, some ⟨port, distance⟩⟩
  | refreshed {distance : Nat} {via : Node -> Option Nat} {changed : Bool}
      {entry : Option Entry} (new : learned self column src paths dest = some distance)
      (known : column.via src ≠ none ∨ column.entry ≠ none)
      (learns : Learns src distance column.via via)
      (refreshed : Refreshed neighbors via distance port column.entry changed entry) :
      ColumnUpdate self neighbors src paths port dest column changed ⟨via, entry⟩

section

variable {self : Node} {neighbors : Dict Node Nat} {src : Node} {paths : Dict Node Nat}
  {port : Nat} {dest : Node} {before after : Column Node} {changed : Bool}

theorem ColumnUpdate.here
    (update : ColumnUpdate self neighbors src paths port dest before changed after) :
    after.via src = learned self before src paths dest := by
  cases update with
  | untouched nothing =>
    rw [nothing]
    unfold learned at nothing
    cases known : before.via src with
    | none => rfl
    | some old =>
      rw [known] at nothing
      simp only at nothing
      split at nothing <;> cases nothing
  | first new _ _ learns | refreshed new _ learns _ => exact learns.here.trans new.symm

theorem ColumnUpdate.others
    (update : ColumnUpdate self neighbors src paths port dest before changed after)
    {nbr : Node} (different : nbr ≠ src) :
    after.via nbr = before.via nbr ∨
      before.via nbr = none ∧ after.via nbr = some POSITIVE_INFINITY := by
  cases update with
  | untouched _ => exact .inl rfl
  | first _ _ _ learns | refreshed _ _ learns _ => exact learns.others nbr different

end

variable {router current : RIPRouter Node} {src : Node} {done : List Node} {paths : Dict Node Nat}
  {port : Nat}

theorem learns_update (src : Node) (distance : Nat) (via : Node -> Option Nat) :
    Learns src distance via (Function.update via src (some distance)) :=
  ⟨update_self _ _ _, fun _ different => .inl (update_of_ne different _ _)⟩

variable {dest : Node} {old : Nat}

theorem relearn_spec (paths : Dict Node Nat) (known : router.distanceVia src dest = some old) :
    ∃ distance, learned router.self (router.column dest) src paths dest = some distance ∧
      OnlyColumn dest router (router.relearn src paths dest) ∧
      (router.relearn src paths dest).column dest =
        ⟨Function.update (router.column dest).via src (some distance),
          (router.column dest).entry⟩ := by
  have present : src ∈ router.routingTable := mem_of_distanceVia known
  have through : (router.column dest).via src = some old := known
  unfold relearn learned
  rw [through]
  simp only
  by_cases foreign : dest ≠ src ∧ dest ≠ router.self
  · rw [if_pos foreign, if_pos foreign]
    cases paths.lookup dest with
    | none =>
      exact ⟨POSITIVE_INFINITY, rfl, onlyColumn_setDistance present dest _,
        column_setDistance present dest _⟩
    | some announced =>
      exact ⟨stretch announced, rfl, onlyColumn_setDistance present dest _,
        column_setDistance present dest _⟩
  · rw [if_neg foreign, if_neg foreign]
    refine ⟨old, rfl, OnlyColumn.refl dest router, ?_⟩
    rw [<- through, update_eq_self]

/-- How far the loops over the destinations have come: the columns of those
done are updated, the others are as they were. -/
structure Progress (router : RIPRouter Node) (Update : Node -> Bool -> Column Node -> Prop)
    (done : List Node) (state : Bool × RIPRouter Node) : Prop where
  shape : SameShape router state.2
  later : ∀ dest, dest ∉ done -> state.2.column dest = router.column dest
  updated : ∀ dest, dest ∈ done -> ∃ changed,
    Update dest changed (state.2.column dest) ∧ (changed = true -> state.1 = true)

theorem Progress.turn {Update : Node -> Bool -> Column Node -> Prop} {here : Bool}
    (progress : Progress router Update done (changed, current)) (fresh : dest ∉ done)
    (only : OnlyColumn dest current after) (update : Update dest here (after.column dest)) :
    Progress router Update (done ++ [dest]) (changed || here, after) := by
  refine ⟨progress.shape.trans only.shape, ?_, ?_⟩
  · intro other notDone
    rw [mem_append, mem_singleton, not_or] at notDone
    exact (only.others other notDone.2).trans (progress.later other notDone.1)
  · intro other member
    by_cases same : other = dest
    · subst same
      refine ⟨here, update, ?_⟩
      rintro rfl
      exact Bool.or_true changed
    · have earlier : other ∈ done := by simpa [same] using member
      rcases progress.updated other earlier with ⟨flag, updated, reported⟩
      refine ⟨flag, (only.others other same).symm ▸ updated, fun set => ?_⟩
      have before : changed = true := reported set
      rw [before]
      rfl

/-- What an update from `src` on `port` makes of the columns of `router`. -/
abbrev Updates (router : RIPRouter Node) (src : Node) (paths : Dict Node Nat) (port : Nat)
    (dest : Node) : Bool -> Column Node -> Prop :=
  ColumnUpdate router.self router.neighbors src paths port dest (router.column dest)

/-- One turn of either loop that ends with `update_forwarding_table`: first the
distances of the column are set, then its entry is refreshed. -/
theorem turn_refreshed {learnt : RIPRouter Node} {distance : Nat} {here : Bool}
    (progress : Progress router (router.Updates src paths port) done (changed, current))
    (fresh : dest ∉ done)
    (new : learned router.self (router.column dest) src paths dest = some distance)
    (known : (router.column dest).via src ≠ none ∨ (router.column dest).entry ≠ none)
    (only : OnlyColumn dest current learnt)
    (learns : Learns src distance (router.column dest).via (learnt.column dest).via)
    (sameEntry : (learnt.column dest).entry = (router.column dest).entry)
    (updated : learnt.updateForwardingTable src dest port = some (here, after)) :
    Progress router (router.Updates src paths port) (done ++ [dest]) (changed || here, after) := by
  rcases updateForwardingTable_spec learns.here updated with ⟨onlyAfter, sameVia, refreshed⟩
  refine progress.turn fresh (only.trans onlyAfter) ?_
  rw [sameEntry, only.shape.neighbors, progress.shape.neighbors] at refreshed
  change ColumnUpdate _ _ _ _ _ _ _ here ⟨(after.column dest).via, (after.column dest).entry⟩
  rw [sameVia]
  exact ColumnUpdate.refreshed new known learns refreshed

theorem updateKnown_spec {next : RIPRouter Node} {changed' : Bool}
    (known : router.distanceVia src dest = some old)
    (progress : Progress router (router.Updates src paths port) done (changed, current))
    (fresh : dest ∉ done)
    (turned : updateKnown src paths port (changed, current) dest = some (changed', next)) :
    Progress router (router.Updates src paths port) (done ++ [dest]) (changed', next) := by
  have sameColumn := progress.later dest fresh
  have sameSelf : current.self = router.self := progress.shape.self
  have through : (router.column dest).via src = some old := known
  have here : current.distanceVia src dest = some old :=
    (congrFun (congrArg Column.via sameColumn) src).trans through
  rcases relearn_spec paths here with ⟨distance, new, only, column⟩
  rw [sameColumn, sameSelf] at new
  rw [sameColumn] at column
  unfold updateKnown at turned
  simp only at turned
  cases updated : (current.relearn src paths dest).updateForwardingTable src dest port with
  | none => rw [updated] at turned; cases turned
  | some result =>
    rw [updated] at turned
    cases turned
    refine turn_refreshed progress fresh new (.inl (by rw [through]; exact some_ne_none _))
      only ?_ ?_ updated
    · rw [column]
      exact learns_update src distance _
    · rw [column]

/-- The assignments of one turn of `add_nodes` to the rows. -/
theorem addDistances_spec (present : src ∈ router.routingTable) (node : Node) (distance : Nat) :
    OnlyColumn node router ((router.setDistance src node distance).fillColumn node) ∧
      (((router.setDistance src node distance).fillColumn node).column node).entry =
        (router.column node).entry ∧
      Learns src distance (router.column node).via
        (((router.setDistance src node distance).fillColumn node).column node).via := by
  have first := onlyColumn_setDistance present node distance
  have column := column_setDistance present node distance
  rcases filling_fillColumn (router.setDistance src node distance) node with
    ⟨only, sameEntry, filled⟩
  have stillPresent := (first.shape.rows src).mpr present
  rw [column] at sameEntry filled
  refine ⟨first.trans only, sameEntry, ?_, ?_⟩
  · rw [filled src, if_pos (AList.mem_keys.mp stillPresent)]
    simp
  · intro nbr different
    by_cases member : nbr ∈ router.routingTable
    · rw [filled nbr, if_pos (AList.mem_keys.mp ((first.shape.rows nbr).mpr member))]
      simp only [update_of_ne different]
      cases (router.column node).via nbr with
      | none => exact .inr ⟨rfl, rfl⟩
      | some known => exact .inl rfl
    · rw [filled nbr, if_neg fun inside =>
        member ((first.shape.rows nbr).mp (AList.mem_keys.mpr inside))]
      exact .inl (update_of_ne different _ _)

theorem addNode_spec {next : RIPRouter Node} {changed' : Bool} (present : src ∈ router.routingTable)
    (unknown : router.distanceVia src dest = none)
    (progress : Progress router (router.Updates src paths port) done (changed, current))
    (fresh : dest ∉ done)
    (turned : addNode src paths port (changed, current) dest = some (changed', next)) :
    Progress router (router.Updates src paths port) (done ++ [dest]) (changed', next) := by
  have sameColumn := progress.later dest fresh
  have absent : (router.column dest).via src = none := unknown
  unfold addNode at turned
  simp only at turned
  split at turned
  next => cases turned
  next announced announces =>
    have new : learned router.self (router.column dest) src paths dest =
        some (stretch announced) := by
      unfold learned
      rw [absent, announces]
      rfl
    rcases addDistances_spec ((progress.shape.rows src).mpr present) dest
      (stretch announced) with ⟨only, sameEntry, learns⟩
    generalize (current.setDistance src dest (stretch announced)).fillColumn dest = learnt at *
    rw [sameColumn] at sameEntry learns
    cases chosen : learnt.forwardingTable.lookup dest with
    | none =>
      rw [chosen] at turned
      cases turned
      have missing : (router.column dest).entry = none := sameEntry ▸ chosen
      rw [<- Bool.or_true changed]
      refine progress.turn fresh (only.trans (onlyColumn_setEntry learnt dest _)) ?_
      rw [column_setEntry]
      exact ColumnUpdate.first new absent missing learns
    | some entry =>
      rw [chosen] at turned
      have present : (router.column dest).entry = some entry := sameEntry ▸ chosen
      cases updated : learnt.updateForwardingTable src dest port with
      | none => rw [updated] at turned; cases turned
      | some result =>
        rw [updated] at turned
        cases turned
        exact turn_refreshed progress fresh new
          (.inr (by rw [present]; exact some_ne_none _)) only learns sameEntry updated

section

variable {router : RIPRouter Node} {src : Node} {nbrEntry paths : Dict Node Nat} {port : Nat}
  {done : List Node} {dest : Node} {state next : Bool × RIPRouter Node}
  (found : router.routingTable.lookup src = some nbrEntry)

include found

theorem distanceVia_of_row (dest : Node) : router.distanceVia src dest = nbrEntry.lookup dest := by
  simp [distanceVia, found]

theorem updateKnown_turn (member : dest ∈ nbrEntry.keys) (fresh : dest ∉ done)
    (progress : Progress router (router.Updates src paths port) done state)
    (turned : updateKnown src paths port state dest = some next) :
    Progress router (router.Updates src paths port) (done ++ [dest]) next := by
  rcases isSome_iff_exists.mp (lookup_isSome.mpr (AList.mem_keys.mpr member)) with
    ⟨old, oldDistance⟩
  exact updateKnown_spec ((distanceVia_of_row found dest).trans oldDistance) progress fresh turned

theorem addNode_turn
    (member : dest ∈ paths.keys.filter (fun node => decide (nbrEntry.lookup node = none)))
    (fresh : dest ∉ done)
    (progress : Progress router (router.Updates src paths port) (nbrEntry.keys ++ done) state)
    (turned : addNode src paths port state dest = some next) :
    Progress router (router.Updates src paths port) (nbrEntry.keys ++ (done ++ [dest])) next := by
  have unknown : nbrEntry.lookup dest = none := by
    simpa using (mem_filter.mp member).2
  have new : dest ∉ nbrEntry.keys ++ done := by
    rw [mem_append, not_or]
    exact ⟨lookup_eq_none.mp unknown, fresh⟩
  rw [<- append_assoc]
  exact addNode_spec (lookup_isSome.mp (isSome_of_eq_some found))
    ((distanceVia_of_row found dest).trans unknown) progress new turned

/-- The loop of `update_tables`. -/
theorem updateTables_progress
    (looped : nbrEntry.keys.foldlM (updateKnown src paths port) (false, router) = some state) :
    Progress router (router.Updates src paths port) nbrEntry.keys state := by
  refine foldlM_invariant (Progress router (router.Updates src paths port)) nbrEntry.keys_nodup
    ⟨SameShape.refl router, fun _ _ => rfl, fun _ member => absurd member not_mem_nil⟩ ?_ looped
  exact fun _ _ _ _ member fresh progress turned =>
    updateKnown_turn found member fresh progress turned

end

variable {router after : RIPRouter Node} {src : Node} {port : Nat} {changed : Bool}

/-- `handle_routing_update` updates each column on its own, and reports a
change when one of them does. -/
theorem handleRoutingUpdate_spec {paths : Dict Node Nat}
    (handled : router.handleRoutingUpdate src paths port = some (changed, after)) :
    SameShape router after ∧ ∀ dest, ∃ here,
      router.Updates src paths port dest here (after.column dest) ∧
        (here = true -> changed = true) := by
  unfold handleRoutingUpdate at handled
  split at handled
  next => cases handled
  next nbrEntry found =>
    split at handled
    next => cases handled
    next middle first =>
      have all := foldlM_invariant
        (fun done => Progress router (router.Updates src paths port) (nbrEntry.keys ++ done))
        (paths.keys_nodup.filter _)
        (by rw [append_nil]; exact updateTables_progress found first)
        (fun _ _ _ _ member fresh progress turned =>
          addNode_turn found member fresh progress turned) handled
      refine ⟨all.shape, fun dest => ?_⟩
      by_cases done : dest ∈ nbrEntry.keys ++ paths.keys.filter (fun node =>
          decide (nbrEntry.lookup node = none))
      · exact all.updated dest done
      · rw [all.later dest done]
        refine ⟨false, ColumnUpdate.untouched ?_, fun set => absurd set Bool.false_ne_true⟩
        rw [mem_append, not_or, mem_filter] at done
        have unknown : nbrEntry.lookup dest = none := lookup_eq_none.mpr done.1
        have unannounced : paths.lookup dest = none := by
          rw [lookup_eq_none]
          exact fun member => done.2 ⟨member, decide_eq_true unknown⟩
        have absent : (router.column dest).via src = none :=
          (distanceVia_of_row found dest).trans unknown
        unfold learned
        rw [absent, unannounced]
        rfl

/-! ## Neighbours that go -/

/-- What `remove_neighbor` makes of an entry, when `via` are the distances left. -/
inductive Rerouted (neighbors : Dict Node Nat) (via : Node -> Option Nat) (port : PortNumber) :
    Option Entry -> Bool -> Option Entry -> Prop where
  | kept {entry : Option Entry} (elsewhere : ∀ chosen, entry = some chosen ->
      port.is chosen.port = false) : Rerouted neighbors via port entry false entry
  | replaced {entry : Entry} {best : Option Entry} (mine : port.is entry.port = true)
      (shortest : Shortest neighbors via best) :
      Rerouted neighbors via port (some entry) ((resultOf best).2 != entry.distance) best

/-- The final loop of `remove_neighbor`, over `nodes_to_delete`. -/
theorem popAll_spec (deleted : List Node) (router : RIPRouter Node) :
    SameShape router (deleted.foldl popEntry router) ∧ ∀ dest,
      (deleted.foldl popEntry router).column dest =
        if dest ∈ deleted then ⟨(router.column dest).via, none⟩ else router.column dest := by
  induction deleted generalizing router with
  | nil => exact ⟨SameShape.refl router, fun _ => rfl⟩
  | cons node rest ih =>
    rcases ih (router.popEntry node) with ⟨shape, columns⟩
    refine ⟨(onlyColumn_popEntry router node).shape.trans shape, fun dest => ?_⟩
    rw [foldl_cons, columns]
    by_cases same : dest = node
    · subst same
      rw [column_popEntry]
      simp
    · rw [column_popEntry_ne router same]
      simp [same]

theorem onlyColumn_popAll (deleted : List Node) (only : OnlyColumn dest router after) :
    OnlyColumn dest (deleted.foldl popEntry router) (deleted.foldl popEntry after) := by
  rcases popAll_spec deleted router with ⟨shape, columns⟩
  rcases popAll_spec deleted after with ⟨shape', columns'⟩
  refine ⟨shape.symm.trans (only.shape.trans shape'), fun other different => ?_⟩
  rw [columns, columns', only.others other different]

/-- What the loop of `remove_neighbor` makes of the columns of `router`. -/
def Reroutes (router : RIPRouter Node) (port : PortNumber) (dest : Node) (changed : Bool)
    (column : Column Node) : Prop :=
  column.via = (router.column dest).via ∧
    Rerouted router.neighbors (router.column dest).via port (router.column dest).entry changed
      column.entry

/-- One turn of the loop, where the destinations in `nodes_to_delete` are
counted as deleted already. -/
theorem reroute_spec {port : PortNumber} {current next : RIPRouter Node} {done : List Node}
    {changed' : Bool}
    {deleted deleted' : List Node} (progress : Progress router (router.Reroutes port) done
      (changed, deleted.foldl popEntry current))
    (listed : ∀ node, node ∈ deleted -> node ∈ done) (fresh : dest ∉ done)
    (turned : reroute port (changed, deleted, current) dest = some (changed', deleted', next)) :
    Progress router (router.Reroutes port) (done ++ [dest])
        (changed', deleted'.foldl popEntry next) ∧
      ∀ node, node ∈ deleted' -> node ∈ done ++ [dest] := by
  rcases popAll_spec deleted current with ⟨shape, columns⟩
  have notDeleted : dest ∉ deleted := fun member => fresh (listed dest member)
  have sameColumn : current.column dest = router.column dest := by
    rw [<- progress.later dest fresh, columns, if_neg notDeleted]
  have sameNeighbors : current.neighbors = router.neighbors :=
    shape.neighbors.symm.trans progress.shape.neighbors
  have stillListed : ∀ node, node ∈ deleted -> node ∈ done ++ [dest] :=
    fun node member => mem_append_left _ (listed node member)
  unfold reroute at turned
  simp only at turned
  split at turned
  next => cases turned
  next entry found =>
    have chosen : (router.column dest).entry = some entry := by
      rw [<- sameColumn]
      exact found
    by_cases mine : port.is entry.port = true
    · rw [if_pos mine] at turned
      cases search : current.findShortestPath dest with
      | none => rw [search] at turned; cases turned
      | some result =>
        rw [search] at turned
        rcases findShortestPath_spec search with ⟨best, rfl, shortest⟩
        rw [sameNeighbors, sameColumn] at shortest
        have rerouted : Rerouted router.neighbors (router.column dest).via port
            (router.column dest).entry ((resultOf best).2 != entry.distance) best := by
          rw [chosen]
          exact Rerouted.replaced mine shortest
        cases best with
        | none =>
          cases turned
          rw [foldl_append, foldl_cons, foldl_nil]
          refine ⟨progress.turn fresh (onlyColumn_popEntry _ dest) ?_, ?_⟩
          · rw [column_popEntry, columns, if_neg notDeleted, sameColumn]
            exact ⟨rfl, rerouted⟩
          · intro node member
            rcases mem_append.mp member with earlier | last
            · exact stillListed node earlier
            · exact mem_append_right _ last
        | some route =>
          cases turned
          refine ⟨progress.turn fresh
            (onlyColumn_popAll deleted (onlyColumn_setEntry current dest route)) ?_,
            stillListed⟩
          rw [(popAll_spec deleted _).2, if_neg notDeleted, column_setEntry, sameColumn]
          exact ⟨rfl, rerouted⟩
    · rw [if_neg mine] at turned
      cases turned
      rw [<- Bool.or_false changed]
      refine ⟨progress.turn fresh (OnlyColumn.refl dest _) ?_, stillListed⟩
      rw [columns, if_neg notDeleted, sameColumn]
      refine ⟨rfl, Rerouted.kept ?_⟩
      intro other same
      rw [chosen] at same
      cases same
      exact eq_false_of_ne_true mine

theorem distanceVia_forget (router : RIPRouter Node) (src nbr dest : Node) :
    (router.forget src).distanceVia nbr dest =
      if nbr = src then none else router.distanceVia nbr dest := by
  unfold distanceVia forget
  by_cases same : nbr = src
  · subst same
    simp [lookup_erase]
  · simp [same, lookup_erase_ne same]

/-- How far the loop of `remove_neighbor` has come. -/
def Rerouting (router : RIPRouter Node) (port : PortNumber) (done : List Node)
    (state : Bool × List Node × RIPRouter Node) : Prop :=
  Progress router (router.Reroutes port) done (state.1, state.2.1.foldl popEntry state.2.2) ∧
    ∀ node, node ∈ state.2.1 -> node ∈ done

theorem rerouting_nil (router : RIPRouter Node) (port : PortNumber) :
    Rerouting router port [] (false, [], router) :=
  ⟨⟨SameShape.refl _, fun _ _ => rfl, fun _ member => absurd member not_mem_nil⟩,
    fun _ member => absurd member not_mem_nil⟩

theorem removeNeighbor_columns {port : PortNumber}
    (removed : router.removeNeighbor src port = some (changed, after)) :
    SameShape (router.forget src) after ∧ ∀ dest, ∃ here,
      (router.forget src).Reroutes port dest here (after.column dest) ∧
        (here = true -> changed = true) := by
  unfold removeNeighbor at removed
  split at removed
  next => cases removed
  next result looped =>
    rcases result with ⟨flag, deleted, final⟩
    cases removed
    have all := foldlM_invariant (Rerouting (router.forget src) port)
      router.forwardingTable.keys_nodup (rerouting_nil _ port)
      (fun _ _ _ _ _ fresh rerouting turned =>
        reroute_spec rerouting.1 rerouting.2 fresh turned) looped
    refine ⟨all.1.shape, fun dest => ?_⟩
    by_cases done : dest ∈ router.forwardingTable.keys
    · exact all.1.updated dest done
    · refine ⟨false, ?_, fun set => absurd set Bool.false_ne_true⟩
      rw [all.1.later dest done]
      refine ⟨rfl, Rerouted.kept (fun chosen here => ?_)⟩
      exact absurd (AList.mem_keys.mp (lookup_isSome.mp (isSome_of_eq_some here)))
        done

/-- What the loss of a neighbour changes: its row and port are dropped, and
each entry on the port is replaced. -/
structure Removes (src : Node) (port : PortNumber) (changed : Bool)
    (router after : RIPRouter Node) :
    Prop where
  self : after.self = router.self
  neighbors : ∀ nbr, after.neighbors.lookup nbr =
    if nbr = src then none else router.neighbors.lookup nbr
  rows : ∀ nbr, nbr ∈ after.routingTable <-> nbr ≠ src ∧ nbr ∈ router.routingTable
  via : ∀ nbr dest, after.distanceVia nbr dest =
    if nbr = src then none else router.distanceVia nbr dest
  entries : ∀ dest, ∃ here,
    Rerouted after.neighbors (after.column dest).via port (router.forwardingTable.lookup dest)
        here (after.forwardingTable.lookup dest) ∧
      (here = true -> changed = true)

theorem removeNeighbor_spec {port : PortNumber}
    (removed : router.removeNeighbor src port = some (changed, after)) :
    Removes src port changed router after := by
  rcases removeNeighbor_columns removed with ⟨shape, reroutes⟩
  constructor
  · exact shape.self
  · intro nbr
    rw [shape.neighbors]
    exact lookup_erase_if _ _ _
  · intro nbr
    rw [shape.rows]
    exact mem_erase
  · intro nbr dest
    rcases reroutes dest with ⟨_, ⟨sameVia, _⟩, _⟩
    rw [<- distanceVia_forget]
    exact congrFun sameVia nbr
  · intro dest
    rcases reroutes dest with ⟨here, ⟨sameVia, rerouted⟩, reported⟩
    rw [shape.neighbors, sameVia]
    exact ⟨here, rerouted, reported⟩

/-! ## Neighbours that come -/

theorem lookup_firstRow (src : Node) (neighbors : List Node) (dest : Node) :
    (firstRow src neighbors).lookup dest =
      if dest ∈ neighbors then some POSITIVE_INFINITY else if dest = src then some 1 else none := by
  have filled : ∀ (row : Dict Node Nat),
      (neighbors.foldl (fun row neighbor => row.insert neighbor POSITIVE_INFINITY) row).lookup
        dest = if dest ∈ neighbors then some POSITIVE_INFINITY else row.lookup dest := by
    induction neighbors with
    | nil => exact fun _ => rfl
    | cons neighbor rest ih =>
      intro row
      rw [foldl_cons, ih]
      by_cases same : dest = neighbor
      · subst same
        simp [lookup_insert]
      · simp [same, lookup_insert_ne same]
  rw [firstRow, filled]
  by_cases same : dest = src
  · subst same
    rw [lookup_insert, if_pos rfl]
  · rw [lookup_insert_ne same, if_neg same]
    rfl

/-- What a new neighbour changes. -/
structure Adds (src : Node) (port : Nat) (router after : RIPRouter Node) : Prop where
  self : after.self = router.self
  neighbors : after.neighbors = router.neighbors.insert src port
  rows : ∀ nbr, nbr ∈ after.routingTable <-> nbr = src ∨ nbr ∈ router.routingTable
  entry : after.forwardingTable.lookup src = some ⟨port, 1⟩
  entries : ∀ dest, dest ≠ src ->
    after.forwardingTable.lookup dest = router.forwardingTable.lookup dest
  direct : after.distanceVia src src = some 1
  through : ∀ dest, dest ≠ src -> after.distanceVia src dest =
    if dest ∈ router.neighbors.keys then some POSITIVE_INFINITY else none
  toward : ∀ nbr, nbr ≠ src -> nbr ∈ router.routingTable -> after.distanceVia nbr src =
    some ((router.distanceVia nbr src).getD POSITIVE_INFINITY)
  others : ∀ nbr dest, nbr ≠ src -> dest ≠ src ->
    after.distanceVia nbr dest = router.distanceVia nbr dest

theorem addNeighbor_spec (port : Nat) (fresh : src ∉ router.neighbors) :
    Adds src port router (router.addNeighbor src port) := by
  rcases filling_fillColumn router src with ⟨only, sameEntry, filled⟩
  have sameTable : ∀ dest, (router.fillColumn src).forwardingTable.lookup dest =
      router.forwardingTable.lookup dest := by
    intro dest
    by_cases same : dest = src
    · subst same
      exact sameEntry
    · exact congrArg Column.entry (only.others dest same)
  have newRow : ∀ dest, (router.addNeighbor src port).distanceVia src dest =
      (firstRow src router.neighbors.keys).lookup dest := by
    intro dest
    simp [addNeighbor, distanceVia, lookup_insert, only.shape.neighbors]
  have oldRows : ∀ nbr dest, nbr ≠ src -> (router.addNeighbor src port).distanceVia nbr dest =
      ((router.fillColumn src).column dest).via nbr := by
    intro nbr dest different
    simp [addNeighbor, distanceVia, column, lookup_insert_ne different]
  constructor
  · exact only.shape.self
  · simp [addNeighbor, only.shape.neighbors]
  · intro nbr
    simp [addNeighbor, mem_insert, only.shape.rows]
  · exact lookup_insert _
  · intro dest different
    exact (lookup_insert_ne different).trans (sameTable dest)
  · rw [newRow, lookup_firstRow, if_neg (mt AList.mem_keys.mpr fresh), if_pos rfl]
  · intro dest different
    rw [newRow, lookup_firstRow, if_neg different]
  · intro nbr different present
    rw [oldRows nbr src different]
    exact (filled nbr).trans (if_pos (AList.mem_keys.mp present))
  · intro nbr dest differentNbr different
    rw [oldRows nbr dest differentNbr, only.others dest different]
    rfl

end RIPRouter

end RipRouter
end Codebank
