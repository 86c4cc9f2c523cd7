import FleetSharding.Coordinator.Snapshot
import FleetSharding.Metrics
import FleetSharding.Registry
import FleetSharding.Shutdown
import FleetSharding.Signal

/-!
# The coordinator's state

A coordinator decides which devices its node collects.  It is two strands of work over one state:
the main strand, which lives through registration, warm-up, settling and the steady loop, and the
delayed strand, which looks for failed slots once, some time after the main shard went in.

A strand is at a *point*, where it waits for something from outside, and has a list of *actions* to
do before it gets there.  Each action is one atomic change, so any interleaving of the two strands
is a sequence of actions.  Decisions are made under a lock, the ownership, which is held from the
query of the membership to the last word on what it led to.
-/

namespace FleetSharding

/-- The filter with the node's own share of the devices. -/
def mainFilter : String := "mainShard"

/-- The filter with devices taken over from failed slots. -/
def extraFilter : String := "extraShard"

/-- The two strands of a coordinator. -/
inductive Task where
  | main
  | delayed
  deriving DecidableEq, Repr

/-- How the main strand came to its end. -/
inductive Outcome where
  | completed
  /-- The node was not seen among the members after so many attempts. -/
  | timedOut (attempts : Nat)
  /-- A tick without any time between two of them cannot be. -/
  | crashed
  deriving DecidableEq, Repr

/-- The words for a registration that was given up. -/
def unseenMessage (address : String) (attempts : Nat) : String :=
  address ++ " was not seen as a passing member after " ++ toString attempts ++ " attempts"

/-- A change of the published status. -/
inductive StatusUpdate where
  | registered (slot : Nat)
  | warmth (healthy : Nat)
  | phase (phase : Phase)
  | discoveryFailed
  | decided (phase : Phase) (healthy : Nat) (failed : List Nat)
  deriving DecidableEq, Repr

def StatusUpdate.apply (s : ShardStatus) : StatusUpdate → ShardStatus
  | .registered slot =>
    { s with shardId := some slot, phase := .warmingUp, discoveryOk := true }
  | .warmth healthy => { s with healthyMembers := healthy, discoveryOk := true }
  | .phase p => { s with phase := p }
  | .discoveryFailed => { s with discoveryOk := false }
  | .decided p healthy failed =>
    { s with phase := p, healthyMembers := healthy, failedSlots := failed, discoveryOk := true }

/-- One atomic piece of work. -/
inductive Action where
  /-- Takes the ownership. -/
  | acquire
  | unlock
  /-- Asks for the members. -/
  | ask
  /-- Asks for the members unless collection is suspended. -/
  | look
  | installMain
  | installExtra (slots : SlotMap)
  | removeMain
  | removeExtra
  /-- Removes the main filter for good. -/
  | dropMain
  /-- Removes the other filter for good; a refresh is due if it or the main filter was there. -/
  | dropExtra (hadMain : Bool)
  | setSuspended (on : Bool)
  | report (event : Event)
  | measure (m : Measurement)
  /-- Signals that the collected devices may have changed. -/
  | requestRefresh
  | publish (update : StatusUpdate)
  /-- Sets the end of a pause. -/
  | sleep (d : Duration)
  | startTicker
  | spawnDelayed
  | abortDelayed
  /-- All changes so far have been acted on. -/
  | settle
  | finish (outcome : Outcome)

/-- Whether a strand may be cut off right before an action: where it might have to wait. -/
def Action.mayWait : Action → Bool
  | .acquire | .installMain | .installExtra _ | .removeMain | .removeExtra | .dropMain
  | .dropExtra _ | .publish _ | .sleep _ => true
  | _ => false

/-- What the main strand waits for. -/
inductive MainPoint where
  /-- The members, to find itself among them. -/
  | registering (attempt : Nat)
  | retrying (attempt : Nat)
  /-- The members, to see how many are healthy. -/
  | warming
  | waiting
  | settling
  /-- A tick, a change or the shutdown. -/
  | steady
  /-- The members, to decide anew. -/
  | rebalancing
  /-- The end of the delayed strand. -/
  | stopping
  | releasing
  | ended (outcome : Outcome)
  deriving DecidableEq, Repr

/-- What the delayed strand waits for. -/
inductive DelayedPoint where
  | unborn
  | pausing
  /-- The members. -/
  | checking
  | ended
  deriving DecidableEq, Repr

/-- A strand: where it waits, what it does before, and when its pause ends. -/
structure Strand (Point : Type) where
  point : Point
  todo : List Action
  due : Nat := 0

structure Coordinator where
  cluster : ClusterConfig
  timers : TimerConfig
  registry : Registry
  status : ShardStatus
  suspended : Bool
  /-- Requests to refresh the collected devices. -/
  updates : Signal
  /-- Signals that the membership has changed. -/
  changes : Signal
  shutdown : Shutdown
  /-- The strand that holds the ownership. -/
  owner : Option Task
  /-- The strands that wait for the ownership, in order. -/
  queue : List Task
  /-- The time in nanoseconds. -/
  clock : Nat
  main : Strand MainPoint
  delayed : Strand DelayedPoint
  /-- Whether the delayed strand was told to end. -/
  aborted : Bool
  /-- The slot that was adopted. -/
  slot : Nat
  /-- Whether a change has not been acted on. -/
  dirty : Bool
  /-- Whether changes are still signalled. -/
  listening : Bool
  /-- When the next tick is due. -/
  tickDue : Nat

namespace Coordinator

/-- A coordinator about to ask for the members for the first time. -/
def start (cluster : ClusterConfig) (timers : TimerConfig) (devices : List Device)
    (updates changes : Signal) (clock : Nat) : Coordinator where
  cluster
  timers
  registry := .ofDevices devices
  status := .initial cluster.nodeAddress cluster.numberOfNodes
  suspended := false
  updates
  changes
  shutdown := .ofValue false
  owner := none
  queue := []
  clock
  main := { point := .registering 1, todo := [.ask] }
  delayed := { point := .unborn, todo := [] }
  aborted := false
  slot := 0
  dirty := false
  listening := true
  tickDue := 0

/-- How often the members are asked for before registration is given up: at least once. -/
def attempts (c : Coordinator) : Nat := max c.timers.registrationAttempts 1

def todo (c : Coordinator) : Task → List Action
  | .main => c.main.todo
  | .delayed => c.delayed.todo

def due (c : Coordinator) : Task → Nat
  | .main => c.main.due
  | .delayed => c.delayed.due

def setTodo (c : Coordinator) (t : Task) (todo : List Action) : Coordinator :=
  match t with
  | .main => { c with main := { c.main with todo } }
  | .delayed => { c with delayed := { c.delayed with todo } }

def setDue (c : Coordinator) (t : Task) (due : Nat) : Coordinator :=
  match t with
  | .main => { c with main := { c.main with due } }
  | .delayed => { c with delayed := { c.delayed with due } }

/-- Sends the main strand to a point, with work to do before. -/
def goMain (c : Coordinator) (point : MainPoint) (todo : List Action) : Coordinator :=
  { c with main := { c.main with point, todo } }

/-- Sends the delayed strand to a point, with work to do before. -/
def goDelayed (c : Coordinator) (point : DelayedPoint) (todo : List Action) : Coordinator :=
  { c with delayed := { c.delayed with point, todo } }

/-- Whether the delayed strand has nothing left to do. -/
def delayedIsOver (c : Coordinator) : Bool :=
  c.delayed.todo.isEmpty && (c.delayed.point == .unborn || c.delayed.point == .ended)

/-- What the main strand came to. -/
def outcome? (c : Coordinator) : Option Outcome :=
  match c.main.point with
  | .ended o => some o
  | _ => none

end Coordinator

end FleetSharding
