import FleetSharding.Simulation.Runner
import FleetSharding.Simulation.VerbResult

/-!
# Several nodes on one membership

A script drives coordinators that share one membership: at given moments it changes the membership,
starts and stops nodes, or makes a node's next query slow.  The nodes meet only in the membership,
so each has a runner of its own.
-/

namespace FleetSharding

/-- What a node sees of the membership, and for how long its next answer is held up. -/
structure SharedList where
  membership : Membership
  lag : Nat

instance : World SharedList where
  ask w clock := ({ w with lag := 0 }, ⟨clock + w.lag, w.membership.query, []⟩)

/-- Something a script does. -/
inductive ClusterVerb where
  | membership (action : MembershipAction)
  | instances
  | members
  | start (address : String)
  | stop (address : String)
  | drop (address : String)
  | lag (address : String) (millis : Nat)
  | notify (address : String)
  | close (address : String)

/-- How the nodes of a cluster are set up. -/
structure ClusterSetup where
  cluster : ClusterConfig
  timers : TimerConfig
  devices : List Device
  /-- Whether nodes hear of changes only from the script. -/
  manual : Bool
  hasTracker : Bool
  updateCapacity : Nat
  changeCapacity : Nat

structure Cluster where
  setup : ClusterSetup
  membership : Membership
  nodes : SortedMap (Runner SharedList)
  clock : Nat

namespace Cluster

def mapNodes (c : Cluster) (f : Runner SharedList → Runner SharedList) : Cluster :=
  { c with nodes := .ofList (c.nodes.entries.map fun e => (e.1, f e.2)) }

def setNode (c : Cluster) (address : String) (r : Runner SharedList) : Cluster :=
  { c with nodes := c.nodes.insert address r }

def startNode (c : Cluster) (address : String) : Cluster :=
  let s := c.setup
  let core := Coordinator.start { s.cluster with nodeAddress := address } s.timers s.devices
    (.ofCapacity s.updateCapacity) (.ofCapacity s.changeCapacity) c.clock
  c.setNode address
    (.start core ⟨c.membership, 0⟩ (if s.hasTracker then some .start else none) false)

/-- Changes the membership; nodes that watch it are signalled. -/
def act (c : Cluster) (action : MembershipAction) : Cluster :=
  let membership := c.membership.apply action
  let signals := c.membership.signals action && !c.setup.manual
  { c with membership }.mapNodes fun r =>
    let r := { r with world := { r.world with membership } }
    if signals then r.poke .change else r

/-- Does something to one node. -/
def onNode (c : Cluster) (address : String)
    (f : Runner SharedList → VerbResult × Runner SharedList) : VerbResult × Cluster :=
  match c.nodes.get? address with
  | none => (.noNode, c)
  | some r =>
    let (result, r) := f r
    (result, c.setNode address r)

/-- Whether the script can signal changes to a node. -/
def hasNotifier (c : Cluster) (r : Runner SharedList) : Bool :=
  c.setup.manual && r.core.changes.hasSenders

def perform (c : Cluster) : ClusterVerb → VerbResult × Cluster
  | .membership action => (action.result c.membership, c.act action)
  | .instances => (c.membership.queryResult, c)
  | .members => (.members c.membership.members, c)
  | .start address => (.nothing, c.startNode address)
  | .stop address => c.onNode address fun r =>
    let (heard, r) := r.shutdown (.send true)
    (.flag heard, r)
  | .drop address => c.onNode address fun r => (.nothing, (r.shutdown .abandon).2)
  | .lag address millis => c.onNode address fun r =>
    (.nothing, { r with world := { r.world with lag := millis * Duration.nanosPerMilli } })
  | .notify address => c.onNode address fun r =>
    if c.hasNotifier r then (.flag (r.core.changes.delivery == .accepted), r.poke .change)
    else (.nothing, r)
  | .close address => c.onNode address fun r =>
    (.nothing, if c.setup.manual then r.poke .changesEnd else r)

/-- The verbs of one moment, back to back, before anything else happens. -/
def performAll (c : Cluster) : List ClusterVerb → List VerbResult × Cluster
  | [] => ([], c)
  | v :: vs =>
    let (result, c) := c.perform v
    let (results, c) := c.performAll vs
    (result :: results, c)

/-- One moment of a script: what was due before it, its verbs, and what follows at once. -/
def step (c : Cluster) (millis : Nat) (verbs : List ClusterVerb) : List VerbResult × Cluster :=
  let clock := millis * Duration.nanosPerMilli
  let c := { c.mapNodes (·.runTo clock) with clock }
  let (results, c) := c.performAll verbs
  (results, c.mapNodes Runner.runNow)

end Cluster

end FleetSharding
