import FleetSharding.Coordinator.Step
import FleetSharding.Membership
import FleetSharding.Subscription

/-!
# One node under virtual time

A runner carries out the steps of one coordinator, and of the tracker beside it, as a scheduler with
one thread does: a task runs until it has to wait, and tasks that can go on queue up in the order in
which they were woken.  Time passes only when nobody can go on, and then to the next moment at which
somebody is due.

Queries go to a *world*, which takes its answer at once and says when it arrives.
-/

namespace FleetSharding

/-- Something that can be scheduled. -/
inductive Job where
  | strand (t : Task)
  | tracker
  deriving DecidableEq, Repr

/-- What a query comes to: when the answer arrives, the answer, and what is reported then. -/
structure Reply where
  due : Nat
  answer : Answer
  reports : List Event := []

/-- What a world has done on its own. -/
structure News where
  reports : List Event := []
  measurements : List Measurement := []
  /-- Signals that the membership has changed. -/
  signals : Nat := 0

/-- A world that answers queries.  It may have timers of its own. -/
class World (W : Type) where
  /-- Asks for the members at a moment. -/
  ask : W → Nat → W × Reply
  /-- When the next timer is due. -/
  due? : W → Option Nat := fun _ => none
  /-- Does what is due at a moment. -/
  fire : W → Nat → W := fun w _ => w
  /-- What was done since the last look. -/
  news : W → News × W := fun w => ({}, w)

structure Runner (W : Type) where
  core : Coordinator
  world : W
  tracker : Option Tracker
  /-- Whether the tracker ends with the shutdown, not only with its channel. -/
  trackerStops : Bool
  /-- Answers that are on their way. -/
  arriving : List (Task × Reply)
  ready : List Job
  /-- What was reported, the latest first. -/
  journal : List Event
  metrics : Metrics

namespace Runner

variable {W : Type} [World W]

def start (core : Coordinator) (world : W) (tracker : Option Tracker) (trackerStops : Bool) :
    Runner W :=
  ⟨core, world, tracker, trackerStops, [], [.strand .main], [], .empty⟩

/-- Queues a job, unless it is queued already. -/
def enqueue (r : Runner W) (job : Job) : Runner W :=
  if job ∈ r.ready then r else { r with ready := r.ready ++ [job] }

def report (r : Runner W) (events : List Event) : Runner W :=
  { r with journal := events.reverse ++ r.journal }

def ask (r : Runner W) (t : Task) : Runner W :=
  let (world, reply) := World.ask r.world r.core.clock
  { r with world, arriving := (t, reply) :: r.arriving.filter (·.1 != t) }

def effect (r : Runner W) : Effect → Runner W
  | .report e => r.report [e]
  | .measure m => { r with metrics := r.metrics.record m }
  | .asked t => r.ask t

/-- The answer that has arrived for a strand. -/
def arrived? (r : Runner W) (t : Task) : Option Reply :=
  match r.arriving.find? (·.1 == t) with
  | some (_, reply) => if reply.due ≤ r.core.clock then some reply else none
  | none => none

/-- Whom a step has made ready, by what it changed. -/
def woken (before after : Coordinator) : List Job :=
  (if before.updates.pending < after.updates.pending
      || before.updates.hasSenders != after.updates.hasSenders then [.tracker] else []) ++
    (match after.owner with
    | some t => if before.owner != some t && before.owner != none then [.strand t] else []
    | none => []) ++
    (if before.delayed.point == .unborn && after.delayed.point != .unborn
      || !before.aborted && after.aborted then [.strand .delayed] else []) ++
    if !before.delayedIsOver && after.delayedIsOver then [.strand .main] else []

/-- Takes a step of the coordinator, if it can be taken. -/
def take (r : Runner W) (s : Step) : Runner W :=
  match r.core.step? s with
  | none => r
  | some (core, effects) =>
    let jobs := woken r.core core
    jobs.foldl enqueue (effects.foldl effect { r with core })

/-- What a strand does next without waiting. -/
def next? (r : Runner W) (t : Task) : Option (Step) :=
  let c := r.core
  if t = .delayed && c.mayCut then some .cut
  else if !(c.todo t).isEmpty then
    if c.isBlocked t && t ∈ c.queue then none else some (.run t)
  else
    match r.arrived? t with
    | some reply => some (.answer t reply.answer)
    | none =>
      [.stop t, .wake t, .hear, .hearEnd, .tick, .join].find? fun s =>
        (t = .main || match s with
          | .stop _ | .wake _ => true
          | _ => false) && (c.step? s).isSome

/-- Takes an answer off its way; what came with it is reported. -/
def receive (r : Runner W) (t : Task) : Runner W :=
  let reports := (r.arriving.filter (·.1 == t)).flatMap (·.2.reports)
  { r with arriving := r.arriving.filter (·.1 != t) }.report reports

/-- A strand runs until it has to wait.  The number bounds its steps in one turn. -/
def poll (t : Task) : Nat → Runner W → Runner W
  | 0, r => r
  | n + 1, r =>
    match r.next? t with
    | none => r
    | some (.answer u a) => poll t n ((r.receive u).take (.answer u a))
    | some s => poll t n (r.take s)

/-- The tracker runs until it waits for a signal. -/
def track : Nat → Runner W → Runner W
  | 0, r => r
  | n + 1, r =>
    match r.tracker with
    | none => r
    | some tracker =>
      if r.trackerStops && r.core.shutdown.isDue then
        { r with tracker := some { tracker with point := .stopped } }
      else
        match tracker.step? r.core.updates r.core.registry with
        | none => r
        | some (tracker, updates, refresh?) =>
          let r := { r with tracker := some tracker, core := { r.core with updates } }
          match refresh? with
          | none => track n r
          | some refresh =>
            track n
              ({ r with metrics := r.metrics.record refresh.measurement }.report
                refresh.diff.events)

/-- No strand takes more steps than this in one turn. -/
def turnSteps : Nat := 1000000

/-- Runs whoever is ready until nobody is. -/
def settle : Nat → Runner W → Runner W
  | 0, r => r
  | n + 1, r =>
    match r.ready with
    | [] => r
    | .strand t :: rest => settle n (poll t turnSteps { r with ready := rest })
    | .tracker :: rest => settle n (track turnSteps { r with ready := rest })

/-- Hears what the world has done. -/
def hear (r : Runner W) : Runner W :=
  let (news, world) := World.news r.world
  let r := { r with world, metrics := r.metrics.recordAll news.measurements }.report news.reports
  news.signals.repeat
    (fun r => [Job.strand .main, .strand .delayed].foldl enqueue (r.take .change)) r

/-- Runs whoever is ready now; then the world does what is due, and those whom it signals run. -/
def idle (r : Runner W) : Runner W :=
  let r := settle turnSteps r
  settle turnSteps { r with world := World.fire r.world r.core.clock }.hear

/-- When each strand is due next, on whole milliseconds. -/
def dueTimes (r : Runner W) : List (Task × Nat) :=
  let c := r.core
  let main : List Nat :=
    if c.main.todo.isEmpty then
      match c.main.point with
      | .retrying _ | .waiting | .settling => [c.main.due]
      | .steady => [c.tickDue]
      | _ => []
    else []
  let delayed : List Nat :=
    if c.delayed.todo.isEmpty && c.delayed.point == .pausing then [c.delayed.due] else []
  let answers : List (Task × Nat) := r.arriving.map fun (t, reply) => (t, reply.due)
  (main.map (Task.main, ·) ++ delayed.map (Task.delayed, ·) ++ answers).map fun (t, due) =>
    (t, Duration.ceilMilli due)

/-- The next moment at which somebody is due. -/
def nextDue? (r : Runner W) : Option Nat :=
  (r.dueTimes.map (·.2) ++ (World.due? r.world).toList).min?

/-- Lets time pass to a moment and wakes those that are due. -/
def advance (r : Runner W) (clock : Nat) : Runner W :=
  let jobs := (r.dueTimes.filter (·.2 ≤ clock)).map fun (t, _) => Job.strand t
  (jobs.foldl enqueue (r.take (.pass clock))).idle

/-- Does everything that is due from `now` to the last moment before `limit`. -/
def runBefore (now limit : Nat) (r : Runner W) : Runner W :=
  match r.nextDue? with
  | none => r
  | some due =>
    if _h : now < due ∧ due < limit then runBefore due limit (r.advance due) else r
  termination_by limit - now

/-- Does everything that is due before a moment, and lets time pass up to it. -/
def runTo (r : Runner W) (clock : Nat) : Runner W :=
  (runBefore r.core.clock clock r).take (.pass clock)

/-- Does everything that is due now. -/
def runNow (r : Runner W) : Runner W :=
  let jobs := (r.dueTimes.filter (·.2 ≤ r.core.clock)).map fun (t, _) => Job.strand t
  (jobs.foldl enqueue r).idle

/-- Does something to the coordinator from outside and wakes its strands. -/
def poke (r : Runner W) (s : Step) : Runner W :=
  [Job.strand .main, .strand .delayed].foldl enqueue (r.take s)

/-- What was reported since the journal was last taken, in order, and the runner without it. -/
def takeJournal (r : Runner W) : List Event × Runner W :=
  (r.journal.reverse, { r with journal := [] })

/-- How many refreshes were requested since the channel was last drained. -/
def drainUpdates (r : Runner W) : Nat × Runner W :=
  (r.core.updates.pending, { r with core := { r.core with updates := r.core.updates.drain } })

/-- Requests the shutdown or leaves nobody to do so; whether somebody listened. -/
def shutdown (r : Runner W) (action : ShutdownAction) : Bool × Runner W :=
  (r.core.outcome?.isNone, [Job.tracker].foldl enqueue (r.poke (.request action)))

end Runner

end FleetSharding
