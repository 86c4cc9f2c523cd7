import FleetSharding.Config
import FleetSharding.Etcd.KeepAlive
import FleetSharding.Etcd.Registration
import FleetSharding.Etcd.Watch

/-!
# A node's place in the store

What one node has to do with the store over time: its session with the lease that is kept alive, and
its watch.  Requests take no time unless they are never answered; then the node waits for as long as
a request may take, and meanwhile its signs of life and its watch go on.

Times are in nanoseconds, and timers fire on whole milliseconds.
-/

namespace FleetSharding.Etcd

structure Client where
  cluster : ClusterConfig
  discovery : DiscoveryConfig
  server : Server
  clock : Nat := 0
  session : Option Session := none
  keepAlive : Option KeepAlive := none
  watch : Option Watch := none
  /-- Whether somebody hears the signals of the watch. -/
  isHeard : Bool := false
  /-- Signals of the watch that were not passed on yet. -/
  signals : Nat := 0
  /-- What was reported and measured, the latest first. -/
  journal : List Event := []
  measured : List Measurement := []

namespace Client

def registrant (c : Client) : Registrant :=
  ⟨c.cluster.clusterId, c.cluster.nodeAddress, c.cluster.numberOfNodes, c.discovery.leaseTtl⟩

def front (c : Client) : String := c.registrant.front

def report (c : Client) (es : List Event) : Client :=
  { c with journal := es.reverse ++ c.journal }

def measure (c : Client) (ms : List Measurement) : Client :=
  { c with measured := ms.reverse ++ c.measured }

def request (c : Client) (r : Request) : Outcome × Client :=
  let (server, outcome) := c.server.request r
  (outcome, { c with server })

/-- The watch gets an input.  The answer to the opening of a stream is the next input. -/
def tellWatch (c : Client) (i : WatchInput) : Client × List WatchInput :=
  match c.watch with
  | none => (c, [])
  | some w =>
    let (w, effects) := w.step c.discovery.reconnectDelay c.clock i
    effects.foldl
      (fun (c, next) e =>
        match e with
        | .notify => ({ c with signals := c.signals + 1 }, next)
        | .report e => (c.report [e], next)
        | .measure m => (c.measure [m], next)
        | .cancelStream => ({ c with server := c.server.receive .watchCancel }, next)
        | .openStream =>
          match c.server.takeFault .watch with
          | (some .fail, s) =>
            ({ c with server := s.receive (.faulty .watch .fail) }, next ++ [.refused])
          | (some .hang, s) => ({ c with server := s.receive (.faulty .watch .hang) }, next)
          | (_, s) =>
            ({ c with server := { s.receive (.watch c.front) with changes := [] } },
              next ++ [.opened]))
      ({ c with watch := some w }, [])

/-- What the watch can go on with now. -/
def watchInput? (c : Client) : Option WatchInput :=
  match c.watch with
  | some .starting => some (.resumed c.isHeard)
  | some (.pausing due) => if due ≤ c.clock then some (.resumed c.isHeard) else none
  | some .streaming =>
    if c.server.changes.any (startsLike c.front ·) then some .changed else none
  | _ => none

/-- The watch goes on until it has to wait.  The number bounds its inputs. -/
def runWatch : Nat → List WatchInput → Client → Client
  | 0, _, c => c
  | n + 1, i :: is, c =>
    let (c, next) := c.tellWatch i
    runWatch n (next ++ is) c
  | n + 1, [], c =>
    match c.watchInput? with
    | none => { c with server := { c.server with changes := [] } }
    | some i => runWatch n [i] { c with server := { c.server with changes := [] } }

/-- More inputs than a watch gets at one moment. -/
def watchInputs : Nat := 100

/-- Whatever the watch can do now is done. -/
def settle (c : Client) : Client := runWatch watchInputs [] c

/-- What comes of a sign of life. -/
def pingOutcome : Option Fault → Ping
  | some .fail => .failed
  | some .ends => .closed
  | some .unsent => .unsent
  | _ => .kept

/-- Sends the sign of life that is due. -/
def ping (c : Client) (k : KeepAlive) : Client :=
  let (fault, server) := c.server.takeFault .ping
  let outcome := pingOutcome fault
  let c := { c with server := server.receive (.ping k.lease), keepAlive := k.next? outcome }
  (c.report (outcome.events k.lease)).measure outcome.measurements

/-- When the next timer fires. -/
def nextDue? (c : Client) : Option Nat :=
  let ping := c.keepAlive.map fun k => Duration.ceilMilli k.due
  let watch := match c.watch with
    | some (.pausing due) => some (Duration.ceilMilli due)
    | _ => none
  match ping, watch with
  | some a, some b => some (min a b)
  | a, none => a
  | none, b => b

/-- Fires the timers that are due now.  Of two, the one that was set first comes first. -/
def fire (c : Client) : Client :=
  let due? := c.keepAlive.filter fun k => Duration.ceilMilli k.due ≤ c.clock
  match due?, c.watch with
  | none, _ => c.settle
  | some k, some (.pausing due) =>
    if due ≤ c.clock && due - c.discovery.reconnectDelay.nanos < k.due - k.interval.nanos then
      c.settle.ping k
    else (c.ping k).settle
  | some k, _ => (c.ping k).settle

/-- Time passes from one timer to the next, up to a moment. -/
def runTo (limit : Nat) : Nat → Client → Client
  | 0, c => c
  | n + 1, c =>
    match c.nextDue? with
    | some due =>
      if due ≤ limit then runTo limit n { c with clock := max c.clock due }.fire
      else { c with clock := max c.clock limit }
    | none => { c with clock := max c.clock limit }

/-- More timers than fire in so many nanoseconds: signs of life come at their interval, and the
watch sets its timer only when its stream has ended or did not open. -/
def timersIn (c : Client) (nanos : Nat) : Nat :=
  (c.keepAlive.map fun k => nanos / k.interval.nanos).getD 0 + watchInputs

/-- Time passes. -/
def elapse (c : Client) (nanos : Nat) : Client :=
  runTo (c.clock + nanos) (c.timersIn nanos) c.settle

/-- Waits for an answer that never comes. -/
def await (c : Client) : Client :=
  let limit := Duration.ceilMilli (c.clock + c.discovery.requestTimeout.nanos)
  c.elapse (limit - c.clock)

/-- A request, and what comes of it after at most the time it may take. -/
def bounded (c : Client) (r : Request) : Outcome × Client :=
  match c.request r with
  | (.silent, c) => (.silent, c.await)
  | result => result

/-- The members that the store lists. -/
def instances (c : Client) : Except DiscoveryError (List Member) × Client :=
  match c.bounded (.range c.front) with
  | (.answered (.records found), c) =>
    let (members, skipped) := readRecords c.front found
    (.ok members, c.report (skippedRecords skipped))
  | (.silent, c) => (.error .timeout, c)
  | (_, c) => (.error .request, c)

/-- Goes through a registration, up to its end or to a request that is never answered and for which
the node waits all the same.  The number bounds the requests. -/
def follow : Nat → Registration → Client → Registration × Client
  | 0, g, c => (g, c)
  | n + 1, g, c =>
    match g.request? c.registrant with
    | none => (g, c)
    | some r =>
      match c.request r with
      | (.silent, c) =>
        if g.isPatient then (g, c)
        else
          let (g, events) := g.receive c.registrant .silent
          follow n g (c.await.report events)
      | (outcome, c) =>
        let (g, events) := g.receive c.registrant outcome
        follow n g (c.report events)

/-- More requests than a registration makes: each claim that is lost is lost to a key. -/
def requestsOf (c : Client) : Nat :=
  c.server.store.records.entries.length + c.server.rivals.length + 8

/-- Registers the node, unless it is registered.  There is no result while an answer is waited for
that never comes. -/
def register (c : Client) : Option (Except DiscoveryError Member) × Client :=
  match c.session with
  | some s => (some (.ok s.member), c)
  | none =>
    match follow c.requestsOf .start c with
    | (.ended (.ok s), c) =>
      (some (.ok s.member),
        { c with
          session := some s
          keepAlive := KeepAlive.start? s.lease c.discovery.keepaliveInterval c.clock })
    | (.ended (.error e), c) => (some (.error e), c)
    | (_, c) => (none, c)

/-- Starts to watch, in place of an older watch. -/
def startWatch (c : Client) : Client :=
  { c with watch := some .starting, isHeard := true, signals := 0 }

/-- Gives up the watch, the session and the lease, without waiting for an answer; there is none
to wait for if there was no session. -/
def leave (c : Client) : Option Outcome × Client :=
  let c := { c with watch := none }
  match c.session with
  | none => (none, c)
  | some s =>
    let (outcome, c) := { c with session := none, keepAlive := none }.request (.revoke s.lease)
    (some outcome, c)

/-- Gives up the watch, the session and the lease. -/
def deregister (c : Client) : Except DiscoveryError Unit × Client :=
  match c.leave with
  | (some .refused, c) => (.error .request, c)
  | (some .silent, c) => (.error .timeout, c.await)
  | (_, c) => (.ok (), c)

/-- A stream of changes ends, behind the changes that it has yet to report. -/
def endStream (c : Client) (how : StreamEnd) : Client :=
  runWatch watchInputs [.over how] c.settle

/-- How often connecting is tried: again as long as the pause before it is short enough. -/
def attemptsWithin (d : DiscoveryConfig) : Nat → Nat
  | 0 => 1
  | failures + 1 =>
    if d.backoffInitial.nanos ≤ d.backoffMaxElapsed.nanos && !d.backoffMaxElapsed.isZero then
      failures + 2
    else 1

/-- Connects to a server of which the first attempts fail; whether it worked. -/
def connect (c : Client) (failures : Nat) : Bool × Client :=
  let endpoints := c.discovery.etcdEndpoints
  let tries := if endpoints.isEmpty then 1 else attemptsWithin c.discovery failures
  let works := !endpoints.isEmpty && failures < tries
  let failed := if works then failures else tries
  let calls := List.replicate tries (Call.connect endpoints)
  (works,
    { c with server := calls.foldl .receive c.server }.report
      (List.replicate failed .connectFailed))

end Client

end FleetSharding.Etcd
