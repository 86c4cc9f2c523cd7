import FleetSharding.Metrics
import FleetSharding.Status
import FleetSharding.Subscription

/-!
# The admin interface

What a node answers to those who look after it: whether it is alive and ready, its metrics, its
status and the devices it collects.  All of it can only be read.
-/

namespace FleetSharding

/-- What the interface shows. -/
structure AdminView where
  status : StampedStatus
  registry : Registry
  /-- The devices that are collected. -/
  active : List Device
  /-- The metrics, if they are recorded. -/
  metrics : Option Metrics

inductive Endpoint where
  | health
  | ready
  | metrics
  | shard
  | devices
  deriving DecidableEq, Repr

namespace Endpoint

def path : Endpoint → String
  | .health => "/health"
  | .ready => "/ready"
  | .metrics => "/metrics"
  | .shard => "/shard"
  | .devices => "/devices"

def all : List Endpoint := [.health, .ready, .metrics, .shard, .devices]

/-- The endpoint that a request's target names; what stands behind its path does not matter. -/
def ofTarget? (target : String) : Option Endpoint :=
  let path := String.ofList (target.toList.takeWhile fun c => c != '?' && c != '#')
  all.find? (·.path == path)

end Endpoint

inductive Body where
  | empty
  | text (s : String)
  | json (v : Json)
  /-- Every series with its value. -/
  | series (samples : SortedMap String)

structure Response where
  code : Nat
  contentType : Option String
  body : Body

namespace Response

/-- A code that says everything. -/
def bare (code : Nat) : Response := ⟨code, none, .empty⟩

def plain (code : Nat) (body : Body) : Response :=
  ⟨code, some "text/plain; charset=utf-8", body⟩

def json (v : Json) : Response := ⟨200, some "application/json", .json v⟩

end Response

namespace AdminView

/-- The devices that are collected, and how many are configured. -/
def devicesJson (a : AdminView) : Json :=
  .object [("count", .nat a.active.length), ("total", .nat a.registry.devices.length),
    ("devices", .arr (a.active.map Device.toJson))]

/-- What an endpoint shows. -/
def view (a : AdminView) : Endpoint → Response
  | .health => if a.status.status.discoveryOk then .plain 200 (.text "OK") else .bare 503
  | .ready => if a.status.status.isReady then .plain 200 (.text "READY") else .bare 503
  | .metrics =>
    match a.metrics with
    | some m => .plain 200 (.series m.samples)
    | none => .plain 503 (.text "Metrics not initialized")
  | .shard => .json a.status.toJson
  | .devices => .json a.devicesJson

/-- The answer to a request.  To ask for the head alone leaves out the body. -/
def respond (a : AdminView) (method target : String) : Response :=
  match Endpoint.ofTarget? target with
  | none => .bare 404
  | some e =>
    if method = "GET" then a.view e
    else if method = "HEAD" then { a.view e with body := .empty }
    else .bare 405

/-- Brings the collected devices in line with the registry. -/
def refresh (a : AdminView) : SubscriptionDiff × AdminView :=
  let r := Refresh.of a.active a.registry
  (r.diff, { a with active := r.active, metrics := a.metrics.map (·.record r.measurement) })

end AdminView

end FleetSharding
