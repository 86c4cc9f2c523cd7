import FleetSharding.DiscoveryError
import FleetSharding.Json.Value

/-!
# What a node reports

Everything a node puts into its log that others rely on: the events of its life, each with a type
of its own, and the warnings and errors that it goes on after.  `Event.record` gives an event its
level, its fields and its words, in one place.
-/

namespace FleetSharding

inductive Level where
  | info
  | warn
  | error
  deriving DecidableEq, Repr

def Level.toText : Level → String
  | .info => "INFO"
  | .warn => "WARN"
  | .error => "ERROR"

inductive Event where
  /-- The node found itself among the members. -/
  | registered (address : String) (slot attempts : Nat)
  | warmupProgress (healthy required : Nat)
  | mainShardInstalled (slot nodes : Nat)
  | takeoverInstalled (slot : Nat) (failed : List Nat) (survivors : Nat) (source : String)
  | suspended (healthy minimum : Nat)
  | unsuspended (healthy minimum : Nat)
  | deviceSubscribed (host : String)
  | deviceUnsubscribed (host : String)
  | registrationQueryFailed (attempt : Nat) (error : DiscoveryError)
  | warmupQueryFailed (error : DiscoveryError)
  | delayedQueryFailed (error : DiscoveryError)
  | rebalanceQueryFailed (error : DiscoveryError)
  /-- No more changes will be signalled. -/
  | notificationsClosed
  /-- The node's own member has no slot of this cluster. -/
  | slotOutOfRange (id : String)
  | duplicateSlot (slot : Nat) (address : String)
  | invalidSlot (id address : String)
  | deregistrationFailed (error : DiscoveryError)
  | connectFailed
  | memberSkipped
  | leaseNotRevoked (lease : Nat)
  | keepAliveUnsent (lease : Nat)
  | keepAliveClosed (lease : Nat)
  | keepAliveFailed (lease : Nat)
  | watchCanceled
  | watchEnded
  | watchFailed
  | watchRefused
  deriving DecidableEq, Repr

/-- A line of the log. -/
structure LogRecord where
  level : Level
  fields : List (String × Json)
  message : String

/-- Numbers in brackets, as the log lists them. -/
def listText (ns : List Nat) : String :=
  "[" ++ ", ".intercalate (ns.map toString) ++ "]"

namespace Event

/-- A line about an event that has a type. -/
def typed (level : Level) (type : String) (fields : List (String × Json)) (message : String) :
    LogRecord :=
  ⟨level, ("event_type", .str type) :: fields, message⟩

def warning (fields : List (String × Json)) (message : String) : LogRecord :=
  ⟨.warn, fields, message⟩

/-- A request to discovery has failed. -/
def failedRequest (error : DiscoveryError) (fields : List (String × Json)) (message : String) :
    LogRecord :=
  warning (("error", .str error.message) :: fields) message

/-- The keep-alive of a lease has come to its end. -/
def keepAliveOver (lease : Nat) (message : String) : LogRecord :=
  ⟨.error, [("lease_id", .nat lease)], message⟩

def record : Event → LogRecord
  | .registered address slot attempts =>
    typed .info "registered"
      [("node_address", .str address), ("shard_id", .nat slot), ("attempts", .nat attempts)]
      "Registered in membership"
  | .warmupProgress healthy required =>
    typed .info "warmup_progress" [("healthy", .nat healthy), ("required", .nat required)]
      "Waiting for cluster members"
  | .mainShardInstalled slot nodes =>
    typed .info "main_shard_installed" [("shard_id", .nat slot), ("number_of_nodes", .nat nodes)]
      "Main shard installed"
  | .takeoverInstalled slot failed survivors source =>
    typed .info "takeover_installed"
      [("shard_id", .nat slot), ("failed_slots", .str (listText failed)),
        ("survivors", .nat survivors), ("source", .str source)]
      "Takeover shard installed"
  | .suspended healthy minimum =>
    typed .warn "suspended" [("healthy", .nat healthy), ("minimum", .nat minimum)]
      "Collection suspended, too few healthy members"
  | .unsuspended healthy minimum =>
    typed .info "unsuspended" [("healthy", .nat healthy), ("minimum", .nat minimum)]
      "Collection resumed"
  | .deviceSubscribed host =>
    typed .info "device_subscribed" [("host", .str host)] "Subscribed to device"
  | .deviceUnsubscribed host =>
    typed .info "device_unsubscribed" [("host", .str host)] "Unsubscribed from device"
  | .registrationQueryFailed attempt error =>
    failedRequest error [("attempt", .nat attempt)] "Membership query failed during registration"
  | .warmupQueryFailed error => failedRequest error [] "Membership query failed during warm-up"
  | .delayedQueryFailed error =>
    failedRequest error [] "Membership query failed during delayed takeover"
  | .rebalanceQueryFailed error =>
    failedRequest error [] "Membership query failed, keeping current filters"
  | .notificationsClosed =>
    warning [] "Membership notifications closed, relying on the watch interval"
  | .slotOutOfRange id => warning [("id", .str id)] "Local member id is outside the shard range"
  | .duplicateSlot slot address =>
    warning [("id", .nat slot), ("address", .str address)]
      "Duplicate member id, last registration wins"
  | .invalidSlot id address =>
    warning [("id", .str id), ("address", .str address)] "Ignoring member with invalid id"
  | .deregistrationFailed error =>
    failedRequest error [] "Deregistration failed, membership record will expire"
  | .connectFailed => warning [] "etcd connection failed, retrying"
  | .memberSkipped => warning [] "Skipping member record"
  | .leaseNotRevoked lease =>
    warning [("lease_id", .nat lease)] "Failed to revoke unused lease"
  | .keepAliveUnsent lease => keepAliveOver lease "Keep-alive send failed, node will expire"
  | .keepAliveClosed lease => keepAliveOver lease "Keep-alive stream closed, node will expire"
  | .keepAliveFailed lease => keepAliveOver lease "Keep-alive failed, node will expire"
  | .watchCanceled => warning [] "Membership watch canceled, reconnecting"
  | .watchEnded => warning [] "Membership watch stream ended, reconnecting"
  | .watchFailed => warning [] "Membership watch failed, reconnecting"
  | .watchRefused => warning [] "Failed to open membership watch"

def toJson (e : Event) : Json :=
  let r := e.record
  .object [("level", .str r.level.toText),
    ("fields", .object (r.fields ++ [("message", .str r.message)]))]

end Event

end FleetSharding
