import FleetSharding.Json.Decode

/-!
# The published status

What a coordinator tells the world about itself: the phase of its life, the slot it adopted, and
what its last decision was based on.
-/

namespace FleetSharding

/-- The phases of a coordinator's life. -/
inductive Phase where
  /-- Waiting to find itself among the members. -/
  | registering
  /-- Waiting for enough healthy members. -/
  | warmingUp
  /-- A fixed delay before anything is collected. -/
  | settling
  /-- The main shard is collected, every slot is healthy. -/
  | steady
  /-- The main shard and devices of failed slots are collected. -/
  | takenOver
  /-- Too few healthy members, nothing is collected. -/
  | suspended
  /-- Everything is released. -/
  | stopped
  deriving DecidableEq, Repr, Inhabited

namespace Phase

def toText : Phase → String
  | .registering => "registering"
  | .warmingUp => "warming_up"
  | .settling => "settling"
  | .steady => "steady"
  | .takenOver => "taken_over"
  | .suspended => "suspended"
  | .stopped => "stopped"

def all : List Phase :=
  [.registering, .warmingUp, .settling, .steady, .takenOver, .suspended, .stopped]

/-- The phase with a name. -/
def ofText? (s : String) : Option Phase :=
  all.find? (·.toText == s)

/-- Whether a node in this phase collects its share. -/
def isReady (p : Phase) : Bool := p == .steady || p == .takenOver

def read {V : Type} [Format V] (v : V) : Decoded Phase := do
  return (ofText? (← Format.variant (all.map toText) v)).getD .registering

/-- A phase is read back from its name. -/
theorem ofText?_toText (p : Phase) : ofText? p.toText = some p := by
  cases p <;> decide

end Phase

structure ShardStatus where
  address : String
  shardId : Option Nat
  nodes : Nat
  phase : Phase
  healthyMembers : Nat
  failedSlots : List Nat
  /-- The names of the installed filters, ascending. -/
  filters : List String
  /-- Whether the last query of the membership succeeded. -/
  discoveryOk : Bool
  deriving DecidableEq, Repr, Inhabited

namespace ShardStatus

/-- The status before anything has happened. -/
def initial (address : String) (nodes : Nat) : ShardStatus :=
  ⟨address, none, nodes, .registering, 0, [], [], true⟩

def isReady (s : ShardStatus) : Bool := s.phase.isReady

/-- The parts that change, as JSON. -/
def changingFields (s : ShardStatus) : List (String × Json) :=
  [ ("shard_id", Json.option .nat s.shardId), ("phase", .str s.phase.toText),
    ("healthy_members", .nat s.healthyMembers), ("failed_slots", .arr (s.failedSlots.map .nat)),
    ("filters", .strs s.filters), ("discovery_ok", .bool s.discoveryOk) ]

def toFields (s : ShardStatus) : List (String × Json) :=
  [("node_address", .str s.address), ("number_of_nodes", .nat s.nodes)] ++ s.changingFields

end ShardStatus

/-- A status with the moment of its last change. -/
structure StampedStatus where
  status : ShardStatus
  updatedAt : Timestamp

namespace StampedStatus

def toJson (s : StampedStatus) : Json :=
  .object (("updated_at", .str s.updatedAt.toText) :: s.status.toFields)

variable {V : Type} [Format V]

def readTimestamp (v : V) : Decoded Timestamp := do
  match Format.text v with
  | .error _ => .error (.expected "an RFC 3339 formatted date and time string")
  | .ok s =>
    match Timestamp.parse s with
    | .ok t => return t
    | .error e => .error (.timestamp e)

def fields : List (Field V StampedStatus) :=
  let part {α : Type} (name : String) (read : V → Decoded α)
      (put : ShardStatus → α → ShardStatus) : Field V StampedStatus :=
    .mandatory name read fun s x => { s with status := put s.status x }
  [ part "node_address" Format.text fun s x => { s with address := x },
    { part "shard_id" (readOption readWord) fun s x => { s with shardId := x } with
      required := false },
    part "number_of_nodes" readWord fun s x => { s with nodes := x },
    part "phase" Phase.read fun s x => { s with phase := x },
    part "healthy_members" readWord fun s x => { s with healthyMembers := x },
    part "failed_slots" (readList readWord) fun s x => { s with failedSlots := x },
    part "filters" (readList Format.text) fun s x => { s with filters := x },
    part "discovery_ok" Format.boolean fun s x => { s with discoveryOk := x },
    .mandatory "updated_at" readTimestamp fun s x => { s with updatedAt := x } ]

def read (v : V) : Decoded StampedStatus :=
  readRecord "ShardStatus" fields ⟨.initial "" 0, ⟨⟨1970, 1, 1⟩, 0, 0⟩⟩ v

end StampedStatus

end FleetSharding
