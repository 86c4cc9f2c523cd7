import FleetSharding.ConfigFile
import FleetSharding.Etcd.Client
import FleetSharding.Simulation.Runner

/-!
# A whole node

A node registers, starts to watch the members, opens its admin interface and then runs its
coordinator to the end; after that it gives up its registration.  Whatever fails before the
coordinator runs ends the node where it is, and what it has registered stays.

The backend is a `Discovery`: a world that also registers and deregisters the node.  Whether there
is anything to listen on at an address is not up to the node either, nor when that is known: a host
that is a name is looked up, and meanwhile everything else goes on.
-/

namespace FleetSharding

/-- What giving up a registration comes to, and when that is known. -/
structure Departure where
  due : Nat
  result : Except DiscoveryError Unit

/-- A world in which a node can register. -/
class Discovery (W : Type) extends World W where
  /-- Registers the node; no result if it waits for one forever. -/
  register : W → Option (Except DiscoveryError Unit) × W
  /-- Starts to signal changes. -/
  watch : W → W
  /-- Nobody hears the signals any more. -/
  ignore : W → W
  deregister : W → Nat → Departure × W

/-- What comes of the wish to listen on an address. -/
inductive Listening where
  /-- Whether it can be listened on is known at once. -/
  | now (isOpen : Bool)
  /-- It is known after other tasks have had their turn. -/
  | later (isOpen : Bool)

/-- Why a node ended with a failure. -/
inductive NodeFailure where
  | registration (cause : DiscoveryError)
  /-- The admin interface could not listen on its address. -/
  | binding (address : String)
  /-- The node was not seen among the members. -/
  | unseen (address : String) (attempts : Nat)
  deriving DecidableEq, Repr

namespace NodeFailure

/-- What failed, and the cause if it is told. -/
def chain : NodeFailure → List String
  | .registration cause => ["Failed to register in membership", cause.message]
  | .binding address => ["Failed to bind admin API on " ++ address]
  | .unseen address attempts =>
    ["Shard coordinator failed", unseenMessage address attempts]

end NodeFailure

/-- How far a node is. -/
inductive NodePhase where
  /-- It waits for its registration, forever. -/
  | registering
  /-- It waits until it is known whether its admin interface can listen. -/
  | opening (isOpen : Bool)
  | running
  /-- The coordinator has ended, and the registration is being given up. -/
  | leaving (due : Nat) (result : Except DiscoveryError Unit) (outcome : Outcome)
  | ended (failure : Option NodeFailure)
  | crashed

structure Node (W : Type) where
  config : FleetConfig
  runner : Runner W
  phase : NodePhase

namespace Node

variable {W : Type} [Discovery W]

/-- The runner of a node whose coordinator waits to be run. -/
def held (c : FleetConfig) (w : W) (tracker : Option Tracker) : Runner W :=
  let signal := Signal.ofCapacity 1
  let core := Coordinator.start c.cluster c.timers c.devices signal signal 0
  { Runner.start (core.setTodo .main []) w tracker true with ready := [] }.hear

/-- The node after its coordinator has ended: it gives up its registration. -/
def leave (n : Node W) : Node W :=
  match n.phase, n.runner.core.outcome? with
  | .running, some .crashed => { n with phase := .crashed }
  | .running, some outcome =>
    let (d, world) := Discovery.deregister n.runner.world n.runner.core.clock
    { n with runner := { n.runner with world }.hear, phase := .leaving d.due d.result outcome }
  | _, _ => n

/-- How a node ends when its coordinator came to such an end. -/
def failureOf (c : FleetConfig) : Outcome → Option NodeFailure
  | .timedOut attempts => some (.unseen c.cluster.nodeAddress attempts)
  | _ => none

/-- The node after it has given up its registration, if that is done. -/
def close (n : Node W) : Node W :=
  match n.phase with
  | .leaving due result outcome =>
    if due ≤ n.runner.core.clock then
      { n with
        phase := .ended (failureOf n.config outcome)
        runner := n.runner.report (match result with
          | .ok _ => []
          | .error e => [.deregistrationFailed e]) }
    else n
  | _ => n

/-- Everything that follows at once. -/
def settle (n : Node W) : Node W :=
  { n with runner := n.runner.runNow }.leave.close

/-- The node from where it runs its coordinator. -/
def run (n : Node W) : Node W :=
  let core := n.runner.core.setTodo .main [.ask]
  settle { n with runner := { n.runner with core }.enqueue (.strand .main), phase := .running }

/-- The node returns without having run its coordinator; nobody hears what that was to hear, and its
tracker ends. -/
def fail (n : Node W) (f : NodeFailure) : Node W :=
  let (core, _) := Coordinator.exec .main (.finish .completed) n.runner.core
  let runner := { n.runner with core, world := Discovery.ignore n.runner.world }
  { n with runner := (runner.enqueue .tracker).runNow, phase := .ended (some f) }

/-- What is known of the admin interface's address takes effect. -/
def resolve (n : Node W) : Node W :=
  match n.phase with
  | .opening true => n.run
  | .opening false => n.fail (.binding n.config.api.bindAddr)
  | _ => n

/-- A node from its start to the first moment at which it has to wait. -/
def start (listen : String → Listening) (c : FleetConfig) (w : W) : Node W :=
  match Discovery.register w with
  | (none, w) => ⟨c, held c w none, .registering⟩
  | (some (.error e), w) => fail ⟨c, held c w none, .registering⟩ (.registration e)
  | (some (.ok _), w) =>
    let runner := held c (Discovery.watch w) (some .start)
    match if c.api.enabled then listen c.api.bindAddr else .now true with
    | .now isOpen => resolve ⟨c, runner, .opening isOpen⟩
    | .later isOpen => settle ⟨c, runner, .opening isOpen⟩

/-- The next moment at which something is due. -/
def nextDue? (n : Node W) : Option Nat :=
  match n.phase with
  | .leaving due _ _ => some (n.runner.nextDue?.elim due (min due))
  | _ => n.runner.nextDue?

/-- Lets time pass to the next moment at which something is due, and does it. -/
def advance (n : Node W) (due : Nat) : Node W :=
  { n with runner := n.runner.advance due }.leave.close

/-- Does everything that is due from `now` to the last moment before `limit`. -/
def runBefore (now limit : Nat) (n : Node W) : Node W :=
  match n.nextDue? with
  | none => n
  | some due => if _h : now < due ∧ due < limit then runBefore due limit (n.advance due) else n
  termination_by limit - now

/-- Does everything that is due before a moment, and lets time pass up to it. -/
def runTo (n : Node W) (clock : Nat) : Node W :=
  let n := runBefore n.runner.core.clock clock n
  { n with runner := n.runner.take (.pass clock) }

/-- Whether it is still open if the node comes up, for all that time may bring. -/
def isStarting (n : Node W) : Bool :=
  match n.phase with
  | .registering | .leaving .. => true
  | .running =>
    match n.runner.core.main.point with
    | .registering _ | .retrying _ => true
    | _ => false
  | _ => false

/-- Runs a node until it has come up or ended.  The number bounds the moments at which something
happens. -/
def comeUp : Nat → Node W → Node W
  | 0, n => n
  | k + 1, n =>
    let n := n.resolve
    if n.isStarting then
      match n.nextDue? with
      | some due => comeUp k (n.advance due)
      | none => n
    else n

/-- Requests the shutdown, or leaves nobody to do so; whether somebody listened. -/
def shutdown (n : Node W) (action : ShutdownAction) : Bool × Node W :=
  let (heard, runner) := n.runner.shutdown action
  (heard, { n with runner })

/-- What was reported since the last look, and the node without it. -/
def takeJournal (n : Node W) : List Event × Node W :=
  let (events, runner) := n.runner.takeJournal
  (events, { n with runner })

end Node

/-- A node of a membership in one process. -/
structure ListedNode where
  membership : Membership
  address : String

instance : Discovery ListedNode where
  ask w clock := (w, ⟨clock, w.membership.query, []⟩)
  register w :=
    let result := match w.membership.registration w.address with
      | .refused e => .error e
      | _ => .ok ()
    (some result, { w with membership := w.membership.register w.address })
  watch w := w
  ignore w := w
  deregister w clock :=
    (⟨clock, .ok ()⟩, { w with membership := w.membership.deregister w.address })

/-- Something happens to the membership of a node, which hears of it. -/
def Node.act (n : Node ListedNode) (action : MembershipAction) : Node ListedNode :=
  let m := n.runner.world.membership
  let world := { n.runner.world with membership := m.apply action }
  let runner := { n.runner with world }
  { n with runner := if m.signals action then runner.poke .change else runner }

namespace Etcd.Client

/-- A query at a moment; one that is never answered fails when it has taken too long. -/
def ask (c : Client) (clock : Nat) : Client × Reply :=
  match { c with clock }.request (.range c.front) with
  | (.answered (.records found), c) =>
    let (members, skipped) := readRecords c.front found
    (c, ⟨clock, .ok members, skippedRecords skipped⟩)
  | (.silent, c) => (c, ⟨clock + c.discovery.requestTimeout.nanos, .error .timeout, []⟩)
  | (_, c) => (c, ⟨clock, .error .request, []⟩)

/-- Does what is due at a moment. -/
def fireAt (c : Client) (clock : Nat) : Client :=
  runTo clock (c.timersIn Duration.nanosPerMilli) { c with clock }.settle

/-- What was reported, measured and signalled since the last look. -/
def news (c : Client) : News × Client :=
  (⟨c.journal.reverse, c.measured.reverse, c.signals⟩,
    { c with journal := [], measured := [], signals := 0 })

def departure (c : Client) (clock : Nat) : Departure × Client :=
  match { c with clock }.leave with
  | (some .refused, c) => (⟨clock, .error .request⟩, c)
  | (some .silent, c) =>
    (⟨Duration.ceilMilli (clock + c.discovery.requestTimeout.nanos), .error .timeout⟩, c)
  | (_, c) => (⟨clock, .ok ()⟩, c)

instance : Discovery Client where
  ask := ask
  due? := nextDue?
  fire := fireAt
  news := news
  register c :=
    let (result, c) := c.register
    (result.map fun r => r.map fun _ => (), c)
  watch := startWatch
  ignore c := { c with isHeard := false }
  deregister := departure

end Etcd.Client

end FleetSharding
