import Codebank.RipRouter.Tables
import Codebank.Foundation.Machine

namespace Codebank
namespace RipRouter

open Foundation Option

/-!
# The forwarding table as the best choice

Each handler changes the forwarding table only where it sees a reason to.  As
long as no neighbour announces again a destination that has lost its entry
while the row of the neighbour still lists it, the table holds the preferred
one among all routes in the rows.  Such an announcement is overlooked:
`update_forwarding_table` skips destinations without an entry, and `add_nodes`
those with a place in the row.
-/

namespace RIPRouter

variable {Node : Type} [DecidableEq Node]

/-- The entry for a destination is the best choice the router knows: when some
neighbour reaches it, there is an entry with the least distance in the rows and
with the lowest port among the neighbours at that distance. -/
def BestChoice (router : RIPRouter Node) (dest : Node) : Prop :=
  (∃ nbr distance, router.distanceVia nbr dest = some distance ∧
    distance < POSITIVE_INFINITY) ->
  ∃ entry, router.forwardingTable.lookup dest = some entry ∧
    (∀ nbr distance, router.distanceVia nbr dest = some distance ->
      entry.distance <= distance) ∧
    (∃ nbr, router.neighbors.lookup nbr = some entry.port ∧
      router.distanceVia nbr dest = some entry.distance) ∧
    ∀ nbr port, router.neighbors.lookup nbr = some port ->
      router.distanceVia nbr dest = some entry.distance -> entry.port <= port

/-- A finite announcement of a destination that is in the row of the sender but
has no entry in the forwarding table. -/
def Overlooked (router : RIPRouter Node) (src : Node) (path : Sigma (fun _ : Node => Nat)) : Prop :=
  path.1 ≠ src ∧ path.1 ≠ router.self ∧ router.distanceVia src path.1 ≠ none ∧
    router.forwardingTable.lookup path.1 = none ∧ stretch path.2 < POSITIVE_INFINITY

instance (router : RIPRouter Node) (src : Node) (path : Sigma (fun _ : Node => Nat)) :
    Decidable (router.Overlooked src path) :=
  inferInstanceAs (Decidable (_ ∧ _))

/-- An update with such an announcement. -/
def Reannounces (router : RIPRouter Node) : Event Node -> Prop
  | .update src paths _ => ∃ path, path ∈ paths.entries ∧ router.Overlooked src path
  | _ => False

instance (router : RIPRouter Node) (event : Event Node) : Decidable (router.Reannounces event) :=
  match event with
  | .linkUp _ _ => inferInstanceAs (Decidable False)
  | .linkDown _ _ => inferInstanceAs (Decidable False)
  | .update src paths _ =>
    inferInstanceAs (Decidable (∃ path, path ∈ paths.entries ∧ router.Overlooked src path))

/-- One event at the router, with no failed lookup. -/
def Step (router : RIPRouter Node) (event : Event Node) (after : RIPRouter Node) : Prop :=
  router.Admissible event ∧ ∃ changed, router.handleRx event = some (changed, after)

/-- The entry is preferred to every route shorter than infinity. -/
def Optimal (neighbors : Dict Node Nat) (column : Column Node) : Prop :=
  ∀ route, Route neighbors column.via route -> route.distance < POSITIVE_INFINITY ->
    ∃ entry, column.entry = some entry ∧ entry.Preferred route

variable {router : RIPRouter Node} {dest : Node}

theorem bestChoice_of_optimal (valid : Valid router)
    (optimal : Optimal router.neighbors (router.column dest)) : router.BestChoice dest := by
  rintro ⟨nbr, distance, known, near⟩
  have onPort : ∀ other number, router.distanceVia other dest = some number ->
      ∃ port, router.neighbors.lookup other = some port := by
    intro other number through
    exact isSome_iff_exists.mp (AList.lookup_isSome.mpr
      ((valid.rows other).mp (mem_of_distanceVia through)))
  rcases onPort nbr distance known with ⟨port, portOf⟩
  rcases optimal ⟨port, distance⟩ ⟨nbr, portOf, known⟩ near with ⟨entry, chosen, preferred⟩
  have finite : entry.distance < POSITIVE_INFINITY := by
    rcases preferred with less | ⟨same, _⟩
    · exact Nat.lt_trans less near
    · exact same ▸ near
  have best : ∀ other number place, router.neighbors.lookup other = some place ->
      router.distanceVia other dest = some number -> entry.Preferred ⟨place, number⟩ := by
    intro other number place placed through
    by_cases close : number < POSITIVE_INFINITY
    · rcases optimal ⟨place, number⟩ ⟨other, placed, through⟩ close with ⟨same, chosen', preferred'⟩
      rw [chosen] at chosen'
      cases chosen'
      exact preferred'
    · exact .inl (Nat.lt_of_lt_of_le finite (Nat.le_of_not_lt close))
  refine ⟨entry, chosen, ?_, valid.backed dest entry chosen, ?_⟩
  · intro other number through
    rcases onPort other number through with ⟨place, placed⟩
    rcases best other number place placed through with less | ⟨same, _⟩
    · exact Nat.le_of_lt less
    · exact Nat.le_of_eq same
  · intro other place placed through
    rcases best other entry.distance place placed through with less | ⟨_, lower⟩
    · exact absurd less (Nat.lt_irrefl _)
    · exact lower

variable {neighbors : Dict Node Nat}

theorem optimal_of_shortest {via : Node -> Option Nat} {best : Option Entry}
    (shortest : Shortest neighbors via best) : Optimal neighbors ⟨via, best⟩ := by
  intro route known near
  cases shortest with
  | unreachable far => exact absurd near (Nat.not_lt.mpr (far route known))
  | route _ _ preferred => exact ⟨_, rfl, preferred route known⟩

variable {port : Nat} {src : Node} {distance : Nat}

/-- A finite route after an update is the one through its sender, or was there
before. -/
theorem route_of_learns {before via : Node -> Option Nat} {route : Entry}
    (onPort : neighbors.lookup src = some port) (learns : Learns src distance before via)
    (known : Route neighbors via route) (near : route.distance < POSITIVE_INFINITY) :
    route = ⟨port, distance⟩ ∨ Route neighbors before route := by
  rcases known with ⟨nbr, portOf, through⟩
  by_cases same : nbr = src
  · subst same
    rw [onPort] at portOf
    rw [learns.here] at through
    left
    rcases route with ⟨routePort, routeDistance⟩
    cases portOf
    cases through
    rfl
  · rcases learns.others nbr same with unchanged | ⟨_, filled⟩
    · exact .inr ⟨nbr, portOf, unchanged.symm.trans through⟩
    · exact absurd (some.inj (filled.symm.trans through)) (Nat.ne_of_gt near)

section

variable {neighbors : Dict Node Nat} {before via : Node -> Option Nat} {src : Node}
  {distance port : Nat} {old new : Option Entry} {changed : Bool}

/-- An entry preferred to what was learnt and to the old entry is optimal. -/
theorem optimal_of_preferred {entry : Entry} (onPort : neighbors.lookup src = some port)
    (learns : Learns src distance before via) (optimal : Optimal neighbors ⟨before, old⟩)
    (toLearnt : entry.Preferred ⟨port, distance⟩)
    (toOld : ∀ chosen, old = some chosen -> entry.Preferred chosen) :
    Optimal neighbors ⟨via, some entry⟩ := by
  intro route known near
  refine ⟨entry, rfl, ?_⟩
  rcases route_of_learns onPort learns known near with rfl | earlier
  · exact toLearnt
  · rcases optimal route earlier near with ⟨chosen, same, preferred⟩
    exact (toOld chosen same).trans preferred

/-- An entry that is refreshed stays preferred, as long as nothing finite is
learnt for a destination without one. -/
theorem optimal_of_refreshed (onPort : neighbors.lookup src = some port)
    (learns : Learns src distance before via) (optimal : Optimal neighbors ⟨before, old⟩)
    (announced : old = none -> POSITIVE_INFINITY <= distance)
    (refreshed : Refreshed neighbors via distance port old changed new) :
    Optimal neighbors ⟨via, new⟩ := by
  cases refreshed with
  | absent =>
    intro route known near
    rcases route_of_learns onPort learns known near with rfl | earlier
    · exact absurd near (Nat.not_lt.mpr (announced rfl))
    · rcases optimal route earlier near with ⟨_, missing, _⟩
      cases missing
  | closer less =>
    refine optimal_of_preferred onPort learns optimal (Entry.Preferred.refl _) ?_
    rintro chosen ⟨⟩
    exact .inl less
  | tie same lower =>
    refine optimal_of_preferred onPort learns optimal (.inr ⟨same.symm, Nat.le_refl _⟩) ?_
    rintro chosen ⟨⟩
    exact .inr ⟨rfl, Nat.le_of_lt lower⟩
  | lost _ _ shortest => exact optimal_of_shortest shortest
  | kept preferred _ =>
    refine optimal_of_preferred onPort learns optimal preferred ?_
    rintro chosen ⟨⟩
    exact Entry.Preferred.refl _

end

/-! ## Every event -/

variable {paths : Dict Node Nat}

/-- Without a finite announcement for a destination that lost its entry. -/
theorem learned_far (onPort : router.neighbors.lookup src = some port)
    (ordinary : ¬ router.Reannounces (.update src paths port))
    (known : router.distanceVia src dest ≠ none)
    (missing : router.forwardingTable.lookup dest = none)
    (optimal : Optimal router.neighbors (router.column dest))
    (new : learned router.self (router.column dest) src paths dest = some distance) :
    POSITIVE_INFINITY <= distance := by
  rcases ne_none_iff_exists'.mp known with ⟨old, through⟩
  have column : (router.column dest).via src = some old := through
  unfold learned at new
  rw [column] at new
  simp only at new
  by_cases foreign : dest ≠ src ∧ dest ≠ router.self
  · rw [if_pos foreign] at new
    cases announces : paths.lookup dest with
    | none =>
      rw [announces] at new
      cases new
      exact Nat.le_refl _
    | some announced =>
      rw [announces] at new
      cases new
      by_contra near
      exact ordinary ⟨⟨dest, announced⟩, AList.mem_lookup_iff.mp announces, foreign.1,
        foreign.2, known, missing, Nat.lt_of_not_le near⟩
  · rw [if_neg foreign] at new
    cases new
    by_contra near
    rcases optimal ⟨port, distance⟩ ⟨src, onPort, column⟩ (Nat.lt_of_not_le near) with
      ⟨entry, chosen, _⟩
    cases missing.symm.trans chosen

variable {after : RIPRouter Node}

theorem optimal_updated {here : Bool} (onPort : router.neighbors.lookup src = some port)
    (ordinary : ¬ router.Reannounces (.update src paths port))
    (optimal : Optimal router.neighbors (router.column dest))
    (update : router.Updates src paths port dest here (after.column dest)) :
    Optimal router.neighbors (after.column dest) := by
  generalize after.column dest = column at update
  cases update with
  | untouched _ => exact optimal
  | first _ _ missing learns =>
    refine optimal_of_preferred onPort learns optimal (Entry.Preferred.refl _) ?_
    intro chosen present
    cases missing.symm.trans present
  | refreshed new known learns refreshed =>
    refine optimal_of_refreshed onPort learns optimal (fun missing => ?_) refreshed
    have inRow : router.distanceVia src dest ≠ none :=
      known.resolve_right (fun present => present missing)
    exact learned_far onPort ordinary inRow missing optimal new

theorem optimal_added (valid : Valid after) (adds : Adds src port router after)
    (optimal : ∀ dest, Optimal router.neighbors (router.column dest)) (dest : Node) :
    Optimal after.neighbors (after.column dest) := by
  rintro route ⟨nbr, portOf, through⟩ near
  change after.distanceVia nbr dest = _ at through
  rw [adds.neighbors, lookup_insert_if] at portOf
  by_cases toNew : dest = src
  · subst toNew
    refine ⟨⟨port, 1⟩, adds.entry, ?_⟩
    by_cases same : nbr = dest
    · subst same
      rw [if_pos rfl] at portOf
      rw [adds.direct] at through
      exact .inr ⟨some.inj through, Nat.le_of_eq (some.inj portOf)⟩
    · exact .inl (valid.far nbr dest _ (Ne.symm same) through).1
  · by_cases same : nbr = src
    · subst same
      rw [adds.through dest toNew] at through
      split at through
      · exact absurd (some.inj through) (Nat.ne_of_gt near)
      · cases through
    · rw [if_neg same] at portOf
      rw [adds.others nbr dest same toNew] at through
      rcases optimal dest route ⟨nbr, portOf, through⟩ near with ⟨entry, chosen, preferred⟩
      exact ⟨entry, (adds.entries dest toNew).trans chosen, preferred⟩

theorem optimal_removed {changed : Bool} {port : PortNumber}
    (removes : Removes src port changed router after)
    (optimal : Optimal router.neighbors (router.column dest)) :
    Optimal after.neighbors (after.column dest) := by
  rcases removes.entries dest with ⟨_, rerouted, _⟩
  intro route known near
  change ∃ entry, after.forwardingTable.lookup dest = some entry ∧ _
  generalize before : router.forwardingTable.lookup dest = old at rerouted
  cases rerouted with
  | replaced _ shortest => exact optimal_of_shortest shortest route known near
  | kept _ =>
    rw [<- before]
    rcases known with ⟨nbr, portOf, through⟩
    change after.distanceVia nbr dest = _ at through
    rw [removes.neighbors] at portOf
    rw [removes.via] at through
    split at portOf
    · cases portOf
    · rename_i different
      rw [if_neg different] at through
      exact optimal route ⟨nbr, portOf, through⟩ near

variable {event : Event Node}

theorem optimal_handled {changed : Bool} (valid : Valid router)
    (optimal : ∀ dest, Optimal router.neighbors (router.column dest))
    (admissible : router.Admissible event) (ordinary : ¬ router.Reannounces event)
    (handled : Handled router event changed after) (dest : Node) :
    Optimal after.neighbors (after.column dest) := by
  cases handled with
  | linkUp adds =>
    have valid := valid.arrived admissible.1 admissible.2.1 rfl (Handled.linkUp adds)
    exact optimal_added valid adds optimal dest
  | linkDown removes => exact optimal_removed removes (optimal dest)
  | ignored _ => exact optimal dest
  | update _ shape updates =>
    rcases updates dest with ⟨_, update, _⟩
    rw [shape.neighbors]
    exact optimal_updated admissible.1 ordinary (optimal dest) update

structure Sound (router : RIPRouter Node) : Prop where
  valid : Valid router
  optimal : ∀ dest, Optimal router.neighbors (router.column dest)

theorem sound_new (self : Node) : Sound (new self) := by
  refine ⟨valid_new self, ?_⟩
  rintro dest route ⟨nbr, portOf, _⟩ near
  simp [new] at portOf

theorem Sound.step (sound : Sound router) (step : Step router event after)
    (ordinary : ¬ router.Reannounces event) (cached : event.cached = true) : Sound after := by
  rcases step with ⟨admissible, changed, handled⟩
  have specified := admissible.1.handled handled
  exact ⟨sound.valid.arrived admissible.1 admissible.2.1 cached specified,
    optimal_handled sound.valid sound.optimal admissible ordinary specified⟩

/-- In every run in which no update reannounces a destination that has lost its entry, and
the port of each lost link is recognised, the forwarding table is the best choice in every
state. -/
theorem forwardingTable_bestChoice {self : Node} {events : List (Event Node)}
    {router : RIPRouter Node}
    (run : Run (fun before event after => Step before event after ∧
      ¬ before.Reannounces event ∧ event.cached = true) (new self) events router) (dest : Node) :
    router.BestChoice dest := by
  have sound : Sound router :=
    run.invariant (fun before stepped => before.step stepped.1 stepped.2.1 stepped.2.2)
      (sound_new self)
  exact bestChoice_of_optimal sound.valid (sound.optimal dest)

/-- An event as a step, when it meets a condition. -/
def next (condition : RIPRouter Node -> Event Node -> Prop)
    [∀ router event, Decidable (condition router event)] (router : RIPRouter Node)
    (event : Event Node) : Option (Event Node × RIPRouter Node) :=
  if condition router event then
    (router.handleRx event).map (fun result => (event, result.2))
  else none

theorem run_of_next {condition : RIPRouter Node -> Event Node -> Prop}
    [∀ router event, Decidable (condition router event)] {start final : RIPRouter Node}
    {actions events : List (Event Node)}
    (done : execute (next condition) start actions = some (events, final)) :
    Run (fun before event after => condition before event ∧
      ∃ changed, before.handleRx event = some (changed, after)) start events final := by
  refine (run_of_execute done).mono ?_
  rintro before event after ⟨action, stepped⟩
  unfold next at stepped
  split at stepped
  · rename_i holds
    rcases map_eq_some_iff.mp stepped with ⟨⟨changed, result⟩, handled, same⟩
    cases same
    exact ⟨holds, changed, handled⟩
  · cases stepped

/-- Two neighbours of router 0; the nearer one to node 3 withdraws it, and is lost. -/
def failover : List (Event Nat) :=
  [.linkUp 1 0, .linkUp 2 1, .update 1 [⟨3, 1⟩].toAList 0, .update 2 [⟨3, 4⟩].toAList 1,
    .update 1 ∅ 0, .linkDown 1 ⟨0, true⟩]

theorem forwardingTable_bestChoice_failover :
    ∃ events router, execute (next (fun router event =>
        router.Admissible event ∧ ¬ router.Reannounces event ∧ event.cached = true)) (new 0)
          failover = some (events, router) ∧
      router.BestChoice 3 := by
  have possible : (execute (next (fun router event =>
      router.Admissible event ∧ ¬ router.Reannounces event ∧ event.cached = true)) (new 0)
        failover).isSome = true := by
    decide +kernel
  rcases isSome_iff_exists.mp possible with ⟨⟨events, router⟩, done⟩
  refine ⟨events, router, done, forwardingTable_bestChoice (Run.mono ?_ (run_of_next done)) 3⟩
  rintro before event after ⟨⟨admissible, fine⟩, handled⟩
  exact ⟨⟨admissible, handled⟩, fine⟩

/-- Neighbour 1 announces node 2, withdraws it, and announces it again. -/
def reannouncement : List (Event Nat) :=
  [.linkUp 1 0, .update 1 [⟨2, 1⟩].toAList 0, .update 1 ∅ 0, .update 1 [⟨2, 1⟩].toAList 0]

/-- The router then knows a distance of 2 to the node and has no entry for it. -/
theorem reannounced_node_stays_unreachable :
    ∃ events router, Run Step (new 0) events router ∧
      router.distanceVia 1 2 = some 2 ∧ router.forwardingTable.lookup 2 = none ∧
      ¬ router.BestChoice 2 := by
  have outcome : (execute (next Admissible) (new 0) reannouncement).map (fun result =>
      (result.2.distanceVia 1 2, result.2.forwardingTable.lookup 2)) = some (some 2, none) := by
    decide +kernel
  rcases map_eq_some_iff.mp outcome with ⟨⟨events, router⟩, done, same⟩
  rcases Prod.mk.inj same with ⟨reached, missing⟩
  refine ⟨events, router, run_of_next done, reached, missing, fun best => ?_⟩
  rcases best ⟨1, 2, reached, by decide⟩ with ⟨entry, chosen, _⟩
  cases missing.symm.trans chosen

end RIPRouter

end RipRouter
end Codebank
