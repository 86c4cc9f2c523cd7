import FleetSharding.Device
import FleetSharding.Member
import FleetSharding.Text.Blank

/-!
# The configuration of a node

What a node is told: the shape of its cluster, its timers, how it discovers members, its admin
interface and the devices.  Values come from the defaults, then a document, then overrides; each
layer is a function on configurations.  `FleetConfig.check` refuses a configuration that no node
could run with.
-/

namespace FleetSharding

/-- How members are discovered. -/
inductive Backend where
  /-- Records with a lease in an etcd store. -/
  | etcd
  /-- A list in the process. -/
  | static
  deriving DecidableEq, Repr, Inhabited

namespace Backend

def toText : Backend → String
  | .etcd => "etcd"
  | .static => "static"

def all : List Backend := [.etcd, .static]

def ofText? (s : String) : Option Backend := all.find? (·.toText == s)

def read {V : Type} [Format V] (v : V) : Decoded Backend := do
  return (ofText? (← Format.variant (all.map toText) v)).getD .etcd

/-- A backend is read back from its name. -/
theorem ofText?_toText (b : Backend) : ofText? b.toText = some b := by
  cases b <;> decide

end Backend

/-- The shape of the cluster and its thresholds. -/
structure ClusterConfig where
  clusterId : String := "default"
  /-- The address under which this node registers. -/
  nodeAddress : String := "127.0.0.1:8080"
  numberOfNodes : Nat := 1
  /-- So many healthy members must be seen before anything is collected. -/
  initializingShards : Nat := 1
  /-- With fewer healthy members collection is suspended. -/
  minimumShards : Nat := 1
  deriving DecidableEq, Repr, Inhabited

structure TimerConfig where
  /-- How often a node looks for itself among the members before it gives up. -/
  registrationAttempts : Nat := 15
  registrationInterval : Duration := .ofSecs 1
  /-- How long to wait between two looks for enough members. -/
  warmupInterval : Duration := .ofSecs 10
  /-- How long to wait before the main shard is installed. -/
  settleWindow : Duration := .ofSecs 35
  /-- How long after the main shard the one look for failed slots comes. -/
  takeoverDelay : Duration := .ofSecs 35
  /-- Changes are acted on once in this time. -/
  watchInterval : Duration := .ofSecs 30
  deriving DecidableEq, Repr, Inhabited

structure DiscoveryConfig where
  backend : Backend := .etcd
  etcdEndpoints : List String := ["http://127.0.0.1:2379"]
  /-- The life of a member's lease, in seconds. -/
  leaseTtl : Int := 15
  keepaliveInterval : Duration := .ofSecs 5
  /-- The longest time a request may take. -/
  requestTimeout : Duration := .ofSecs 3
  /-- How long to wait before a broken watch is opened again. -/
  reconnectDelay : Duration := .ofSecs 5
  backoffInitial : Duration := .ofSecs 1
  backoffMax : Duration := .ofSecs 10
  backoffMaxElapsed : Duration := .ofSecs 60
  backoffMultiplier : Binary64 := .ofNat 2
  /-- Members of the static backend from the start. -/
  staticMembers : List Member := []
  deriving DecidableEq, Inhabited

structure ApiConfig where
  enabled : Bool := true
  bindAddr : String := "0.0.0.0:8080"
  deriving DecidableEq, Repr, Inhabited

structure FleetConfig where
  cluster : ClusterConfig := {}
  timers : TimerConfig := {}
  discovery : DiscoveryConfig := {}
  api : ApiConfig := {}
  devices : List Device := []
  deriving DecidableEq

instance : Inhabited FleetConfig := ⟨{}⟩

section Reading

variable {V : Type} [Format V]

def ClusterConfig.fields : List (Field V ClusterConfig) :=
  [ .optional "cluster_id" Format.text fun c x => { c with clusterId := x },
    .optional "node_address" Format.text fun c x => { c with nodeAddress := x },
    .optional "number_of_nodes" readWord fun c x => { c with numberOfNodes := x },
    .optional "initializing_shards" readWord fun c x => { c with initializingShards := x },
    .optional "minimum_shards" readWord fun c x => { c with minimumShards := x } ]

def ClusterConfig.read (v : V) : Decoded ClusterConfig :=
  readRecord "ClusterConfig" fields {} v

def TimerConfig.fields : List (Field V TimerConfig) :=
  [ .optional "registration_attempts" (Format.unsigned "u32" (Nat.pow 2 32))
      fun c x => { c with registrationAttempts := x },
    .optional "registration_interval" readDuration fun c x => { c with registrationInterval := x },
    .optional "warmup_interval" readDuration fun c x => { c with warmupInterval := x },
    .optional "settle_window" readDuration fun c x => { c with settleWindow := x },
    .optional "takeover_delay" readDuration fun c x => { c with takeoverDelay := x },
    .optional "watch_interval" readDuration fun c x => { c with watchInterval := x } ]

def TimerConfig.read (v : V) : Decoded TimerConfig :=
  readRecord "TimerConfig" fields {} v

def DiscoveryConfig.fields : List (Field V DiscoveryConfig) :=
  [ .optional "backend" Backend.read fun c x => { c with backend := x },
    .optional "etcd_endpoints" (readList Format.text) fun c x => { c with etcdEndpoints := x },
    .optional "lease_ttl" Format.signed fun c x => { c with leaseTtl := x },
    .optional "keepalive_interval" readDuration fun c x => { c with keepaliveInterval := x },
    .optional "request_timeout" readDuration fun c x => { c with requestTimeout := x },
    .optional "reconnect_delay" readDuration fun c x => { c with reconnectDelay := x },
    .optional "etcd_backoff_initial" readDuration fun c x => { c with backoffInitial := x },
    .optional "etcd_backoff_max" readDuration fun c x => { c with backoffMax := x },
    .optional "etcd_backoff_max_elapsed" readDuration
      fun c x => { c with backoffMaxElapsed := x },
    .optional "etcd_backoff_multiplier" Format.float fun c x => { c with backoffMultiplier := x },
    .optional "static_members" (readList Member.read) fun c x => { c with staticMembers := x } ]

def DiscoveryConfig.read (v : V) : Decoded DiscoveryConfig :=
  readRecord "DiscoveryConfig" fields {} v

def ApiConfig.fields : List (Field V ApiConfig) :=
  [ .optional "enabled" Format.boolean fun c x => { c with enabled := x },
    .optional "bind_addr" Format.text fun c x => { c with bindAddr := x } ]

def ApiConfig.read (v : V) : Decoded ApiConfig :=
  readRecord "ApiConfig" fields {} v

def FleetConfig.fields : List (Field V FleetConfig) :=
  [ .optional "cluster" ClusterConfig.read fun c x => { c with cluster := x },
    .optional "timers" TimerConfig.read fun c x => { c with timers := x },
    .optional "discovery" DiscoveryConfig.read fun c x => { c with discovery := x },
    .optional "api" ApiConfig.read fun c x => { c with api := x },
    .optional "devices" (readList Device.read) fun c x => { c with devices := x } ]

def FleetConfig.read (v : V) : Decoded FleetConfig :=
  readRecord "FleetConfig" fields {} v

end Reading

section Writing

def Duration.toJson (d : Duration) : Json := .number d.toSeconds

def ClusterConfig.toJson (c : ClusterConfig) : Json :=
  .object [("cluster_id", .str c.clusterId), ("node_address", .str c.nodeAddress),
    ("number_of_nodes", .nat c.numberOfNodes),
    ("initializing_shards", .nat c.initializingShards),
    ("minimum_shards", .nat c.minimumShards)]

def TimerConfig.toJson (c : TimerConfig) : Json :=
  .object [("registration_attempts", .nat c.registrationAttempts),
    ("registration_interval", c.registrationInterval.toJson),
    ("warmup_interval", c.warmupInterval.toJson), ("settle_window", c.settleWindow.toJson),
    ("takeover_delay", c.takeoverDelay.toJson), ("watch_interval", c.watchInterval.toJson)]

def DiscoveryConfig.toJson (c : DiscoveryConfig) : Json :=
  .object [("backend", .str c.backend.toText), ("etcd_endpoints", .strs c.etcdEndpoints),
    ("lease_ttl", .int c.leaseTtl), ("keepalive_interval", c.keepaliveInterval.toJson),
    ("request_timeout", c.requestTimeout.toJson), ("reconnect_delay", c.reconnectDelay.toJson),
    ("etcd_backoff_initial", c.backoffInitial.toJson), ("etcd_backoff_max", c.backoffMax.toJson),
    ("etcd_backoff_max_elapsed", c.backoffMaxElapsed.toJson),
    ("etcd_backoff_multiplier", .number c.backoffMultiplier),
    ("static_members", .arr (c.staticMembers.map Member.toJson))]

def ApiConfig.toJson (c : ApiConfig) : Json :=
  .object [("enabled", .bool c.enabled), ("bind_addr", .str c.bindAddr)]

def FleetConfig.toJson (c : FleetConfig) : Json :=
  .object [("cluster", c.cluster.toJson), ("timers", c.timers.toJson),
    ("discovery", c.discovery.toJson), ("api", c.api.toJson),
    ("devices", .arr (c.devices.map Device.toJson))]

end Writing

/-- Why a configuration is refused. -/
inductive ConfigError where
  | noNodes
  | exceedsNodes (field : String) (value nodes : Nat)
  | missingAddress
  | noRegistrationAttempts
  | zeroInterval (field : String)
  | noEtcdEndpoints
  | duplicateDevice (host : String)
  deriving DecidableEq, Repr

def ConfigError.message : ConfigError → String
  | .noNodes => "number_of_nodes must be at least 1"
  | .exceedsNodes field value nodes =>
    field ++ " (" ++ toString value ++ ") cannot exceed number_of_nodes (" ++ toString nodes ++ ")"
  | .missingAddress => "node_address must not be empty"
  | .noRegistrationAttempts => "registration_attempts must be at least 1"
  | .zeroInterval field => field ++ " must be greater than zero"
  | .noEtcdEndpoints => "etcd backend requires at least one endpoint"
  | .duplicateDevice host => "device host " ++ host ++ " is configured more than once"

/-- The first text that has come before. -/
def firstRepeated : List String → List String → Option String
  | _, [] => none
  | seen, s :: ss => if s ∈ seen then some s else firstRepeated (s :: seen) ss

namespace FleetConfig

/-- The first thing that is wrong with a configuration. -/
def fault? (c : FleetConfig) : Option ConfigError :=
  let n := c.cluster.numberOfNodes
  let thresholds :=
    [ ("initializing_shards", c.cluster.initializingShards),
      ("minimum_shards", c.cluster.minimumShards) ]
  let intervals :=
    [ ("timers.warmup_interval", c.timers.warmupInterval),
      ("timers.watch_interval", c.timers.watchInterval),
      ("discovery.keepalive_interval", c.discovery.keepaliveInterval),
      ("discovery.request_timeout", c.discovery.requestTimeout) ]
  if n = 0 then some .noNodes
  else if Text.isAllBlank c.cluster.nodeAddress then some .missingAddress
  else
    match thresholds.find? fun t => n < t.2 with
    | some (field, value) => some (.exceedsNodes field value n)
    | none =>
      if c.timers.registrationAttempts = 0 then some .noRegistrationAttempts
      else
        match intervals.find? fun t => t.2.isZero with
        | some (field, _) => some (.zeroInterval field)
        | none =>
          if c.discovery.backend = .etcd ∧ c.discovery.etcdEndpoints = [] then
            some .noEtcdEndpoints
          else (firstRepeated [] (c.devices.map (·.host))).map .duplicateDevice

def check (c : FleetConfig) : Except ConfigError Unit :=
  match c.fault? with
  | some e => .error e
  | none => .ok ()

/-- The pieces of a text between commas, without the blanks at their ends; empty ones are
dropped. -/
def endpointsOf (s : String) : List String :=
  ((s.toList.splitOn ',').map fun cs => String.ofList (Text.trimChars cs)).filter (!·.isEmpty)

/-- The value of a variable in place of the old one, if it is there and can be read. -/
def overridden {α : Type} (env : SortedMap String) (name : String) (read : String → Option α)
    (old : α) : α :=
  ((env.get? name).bind read).getD old

/-- A configuration with what the environment says.  A variable that cannot be read is passed
over. -/
def withEnv (c : FleetConfig) (env : SortedMap String) : FleetConfig :=
  { c with
    cluster :=
      { clusterId := overridden env "CLUSTER_ID" some c.cluster.clusterId
        nodeAddress := overridden env "NODE_ADDRESS" some c.cluster.nodeAddress
        numberOfNodes := overridden env "NUMBER_OF_NODES" Text.word? c.cluster.numberOfNodes
        initializingShards :=
          overridden env "INITIALIZING_SHARDS" Text.word? c.cluster.initializingShards
        minimumShards := overridden env "MINIMUM_SHARDS" Text.word? c.cluster.minimumShards }
    discovery :=
      { c.discovery with
        backend := overridden env "DISCOVERY_BACKEND" Backend.ofText? c.discovery.backend
        etcdEndpoints :=
          overridden env "ETCD_ENDPOINTS" (fun s => some (endpointsOf s))
            c.discovery.etcdEndpoints }
    api := { c.api with bindAddr := overridden env "API_BIND_ADDR" some c.api.bindAddr } }

end FleetConfig

end FleetSharding
