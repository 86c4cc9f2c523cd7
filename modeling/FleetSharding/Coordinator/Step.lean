import FleetSharding.Coordinator.Decision

/-!
# The coordinator's steps

`Coordinator.step?` is the transition function: given a step, the coordinator after it and its
effects, or `none` if the step cannot be taken.  The steps of the two strands may come in any order;
so may what happens around them: time passes, the membership changes, the shutdown is requested.
-/

namespace FleetSharding

/-- What a step does to the world outside. -/
inductive Effect where
  | report (event : Event)
  | measure (m : Measurement)
  /-- A strand has asked for the members. -/
  | asked (t : Task)
  deriving DecidableEq, Repr

/-- A step of a coordinator or of what is around it. -/
inductive Step where
  /-- A strand does its next action, or queues for the ownership. -/
  | run (t : Task)
  /-- A query is answered. -/
  | answer (t : Task) (a : Answer)
  /-- A pause has lasted its full time. -/
  | wake (t : Task)
  /-- A strand that waits sees the shutdown. -/
  | stop (t : Task)
  | tick
  /-- A change is heard of. -/
  | hear
  /-- There will be no more signals. -/
  | hearEnd
  /-- The delayed strand is cut off where it waits. -/
  | cut
  /-- The main strand sees the end of the delayed one. -/
  | join
  /-- Time has passed. -/
  | pass (clock : Nat)
  | request (action : ShutdownAction)
  /-- A change is signalled. -/
  | change
  /-- Nobody is left to signal a change. -/
  | changesEnd

namespace Coordinator

/-- Gives the ownership to whoever waits first. -/
def handOver (c : Coordinator) : Coordinator :=
  match c.queue with
  | [] => { c with owner := none }
  | t :: ts => { c with owner := some t, queue := ts }

/-- Whether a strand may take the ownership. -/
def mayAcquire (c : Coordinator) (t : Task) : Bool :=
  c.owner == none || c.owner == some t

/-- Whether a strand's next action has to wait for the ownership. -/
def isBlocked (c : Coordinator) (t : Task) : Bool :=
  match c.todo t with
  | .acquire :: _ => !c.mayAcquire t
  | _ => false

/-- The claim of the main filter. -/
def mainClaim (c : Coordinator) : Claim := mainShard c.slot c.cluster.numberOfNodes

/-- Publishes a change, with the names of the filters that are there now. -/
def publish (c : Coordinator) (u : StatusUpdate) : Coordinator :=
  { c with status := { u.apply c.status with filters := c.registry.names } }

/-- What is measured when a signal is sent into a channel of a given name. -/
def dropped (name : String) (s : Signal) : List Effect :=
  if s.delivery = .full then [.measure (.signalDropped name)] else []

/-- What one action does.  The list of what the strand has to do is already without it. -/
def exec (t : Task) (a : Action) (c : Coordinator) : Coordinator × List Effect :=
  match a with
  | .acquire => ({ c with owner := some t }, [])
  | .unlock => (c.handOver, [])
  | .ask => (c, [.asked t])
  | .look =>
    if c.suspended then (c.goDelayed .ended [.unlock], []) else (c, [.asked t])
  | .installMain => ({ c with registry := c.registry.add mainFilter c.mainClaim }, [])
  | .installExtra slots =>
    ({ c with registry := c.registry.add extraFilter (slots.takeover c.slot) }, [])
  | .removeMain => ({ c with registry := c.registry.remove mainFilter }, [])
  | .removeExtra => ({ c with registry := c.registry.remove extraFilter }, [])
  | .dropMain =>
    (({ c with registry := c.registry.remove mainFilter }).setTodo t
      (.dropExtra (c.registry.has mainFilter) :: c.todo t), [])
  | .dropExtra hadMain =>
    let c' := { c with registry := c.registry.remove extraFilter }
    if hadMain || c.registry.has extraFilter then (c'.setTodo t (.requestRefresh :: c.todo t), [])
    else (c', [])
  | .setSuspended on => ({ c with suspended := on }, [])
  | .report e => (c, [.report e])
  | .measure m => (c, [.measure m])
  | .requestRefresh =>
    ({ c with updates := c.updates.notify }, dropped "update_request" c.updates)
  | .publish u => (c.publish u, [])
  | .sleep d => (c.setDue t (c.clock + d.nanos), [])
  | .startTicker =>
    if c.timers.watchInterval.isZero then
      ({ c with changes := c.changes.close }.goMain (.ended .crashed) [], [])
    else ({ c with tickDue := c.clock + c.timers.watchInterval.nanos }, [])
  | .spawnDelayed =>
    (c.goDelayed .pausing [.sleep c.timers.takeoverDelay], [])
  | .abortDelayed => ({ c with aborted := true }, [])
  | .settle => ({ c with dirty := !c.listening }, [])
  | .finish outcome =>
    ({ c with changes := c.changes.close, updates := c.updates.dropSender 0 }.goMain
      (.ended outcome) [], [])

/-- A strand's next action; one that has to wait for the ownership queues for it. -/
def run? (c : Coordinator) (t : Task) : Option (Coordinator × List Effect) :=
  match c.todo t with
  | [] => none
  | a :: rest =>
    if c.isBlocked t then
      if t ∈ c.queue then none else some ({ c with queue := c.queue ++ [t] }, [])
    else some (exec t a (c.setTodo t rest))

/-- Ticks that come too late by more than this are not made up for. -/
def tickSlack : Nat := 5 * Duration.nanosPerMilli

/-- When the tick after the one that comes now is due. -/
def nextTick (c : Coordinator) : Nat :=
  (if c.tickDue + tickSlack < c.clock then c.clock else c.tickDue) + c.timers.watchInterval.nanos

/-- The main strand, woken by the end of its pause. -/
def wakeMain? (c : Coordinator) : Option Coordinator :=
  match c.main.point with
  | .retrying attempt => some (c.goMain (.registering (attempt + 1)) [.ask])
  | .waiting => some (c.goMain .warming [.ask])
  | .settling => some c.enterSteady
  | _ => none

/-- The main strand, stopped where it waits. -/
def stopMain? (c : Coordinator) : Option Coordinator :=
  match c.main.point with
  | .retrying _ | .waiting | .settling => some (c.release .completed [])
  | .steady => some (c.goMain .stopping [.abortDelayed])
  | _ => none

/-- The main strand with an answer. -/
def answerMain? (c : Coordinator) (a : Answer) : Option Coordinator :=
  match c.main.point with
  | .registering attempt => some (c.onRegistration attempt a)
  | .warming => some (c.onWarmup a)
  | .rebalancing => some (c.onRebalance a)
  | _ => none

/-- The delayed strand cut off: it does nothing more, and its ownership passes on. -/
def cutDelayed (c : Coordinator) : Coordinator :=
  let c' := c.goDelayed .ended []
  if c.owner = some .delayed then c'.handOver else { c' with queue := c'.queue.erase .delayed }

/-- Whether the delayed strand is where it may be cut off. -/
def mayCut (c : Coordinator) : Bool :=
  c.aborted && !c.delayedIsOver &&
    match c.delayed.todo with
    | [] => true
    | a :: _ => a.mayWait

/-- A tick: what has changed is acted on. -/
def tick (c : Coordinator) : Coordinator :=
  let c := { c with tickDue := c.nextTick }
  if c.dirty then c.goMain .rebalancing [.acquire, .ask] else c

/-- The coordinator after a step, and its effects. -/
def step? (c : Coordinator) : Step → Option (Coordinator × List Effect)
  | .run t => c.run? t
  | .answer .main a =>
    if c.main.todo.isEmpty then (c.answerMain? a).map (·, []) else none
  | .answer .delayed a =>
    if c.delayed.todo.isEmpty && c.delayed.point == .checking then some (c.onDelayed a, [])
    else none
  | .wake .main =>
    if c.main.todo.isEmpty && c.main.due ≤ c.clock then c.wakeMain?.map (·, []) else none
  | .wake .delayed =>
    if c.delayed.todo.isEmpty && c.delayed.point == .pausing && c.delayed.due ≤ c.clock then
      some (c.goDelayed .checking [.acquire, .look], [])
    else none
  | .stop .main =>
    if c.main.todo.isEmpty && c.shutdown.isDue then c.stopMain?.map (·, []) else none
  | .stop .delayed =>
    if c.delayed.todo.isEmpty && c.delayed.point == .pausing && c.shutdown.isDue then
      some (c.goDelayed .ended [], [])
    else none
  | .tick =>
    if c.main.todo.isEmpty && c.main.point == .steady && c.tickDue ≤ c.clock then
      some (c.tick, [])
    else none
  | .hear =>
    if c.main.todo.isEmpty && c.main.point == .steady && c.listening
        && c.changes.receipt == .signal then
      some ({ c with dirty := true, changes := c.changes.receive }, [])
    else none
  | .hearEnd =>
    if c.main.todo.isEmpty && c.main.point == .steady && c.listening
        && c.changes.receipt == .ended then
      some ({ c with dirty := true, listening := false }, [.report .notificationsClosed])
    else none
  | .cut => if c.mayCut then some (c.cutDelayed, []) else none
  | .join =>
    if c.main.todo.isEmpty && c.main.point == .stopping && c.delayedIsOver then
      some (c.release .completed [], [])
    else none
  | .pass clock => if c.clock ≤ clock then some ({ c with clock }, []) else none
  | .request action => some ({ c with shutdown := c.shutdown.apply action }, [])
  | .change =>
    some ({ c with changes := c.changes.notify }, dropped "membership_change" c.changes)
  | .changesEnd =>
    some ({ c with changes := { c.changes with senders := c.changes.senders.map fun _ => false } },
      [])

end Coordinator

end FleetSharding
