import FleetSharding.ConfigFile
import FleetSharding.SlotMap
import FleetSharding.Text.Quoted

/-!
# The command line

Commands and their options, and what each command prints.  A configuration is put together in
layers: the defaults, a file, the environment, the options; then it is checked.

Arguments are taken from left to right, and the first that asks for help or cannot be understood
decides.
-/

namespace FleetSharding

/-- The options of a command that needs a configuration. -/
structure Flags where
  /-- The configuration file. -/
  config : Option String := none
  nodeAddress : Option String := none
  numberOfNodes : Option Nat := none
  initializingShards : Option Nat := none
  minimumShards : Option Nat := none
  backend : Option Backend := none
  bindAddr : Option String := none

/-- The names of these options. -/
inductive FlagName where
  | config
  | nodeAddress
  | numberOfNodes
  | initializingShards
  | minimumShards
  | backend
  | bindAddr
  deriving DecidableEq, Repr

namespace FlagName

def toText : FlagName → String
  | .config => "config"
  | .nodeAddress => "node-address"
  | .numberOfNodes => "number-of-nodes"
  | .initializingShards => "initializing-shards"
  | .minimumShards => "minimum-shards"
  | .backend => "backend"
  | .bindAddr => "bind-addr"

def all : List FlagName :=
  [.config, .nodeAddress, .numberOfNodes, .initializingShards, .minimumShards, .backend, .bindAddr]

def ofText? (s : String) : Option FlagName := all.find? (·.toText == s)

end FlagName

/-- A path; the empty one is none. -/
def path? (s : String) : Option String := if s.isEmpty then none else some s

namespace Flags

/-- A value for an option that has none so far. -/
def once {α : Type} (old new : Option α) : Option α := if old.isSome then none else new

/-- Gives an option its value.  An option may come once, and its value has to make sense. -/
def set? (f : Flags) (name : FlagName) (value : String) : Option Flags :=
  match name with
  | .config => (once f.config (path? value)).map fun x => { f with config := some x }
  | .nodeAddress => (once f.nodeAddress (some value)).map fun x => { f with nodeAddress := some x }
  | .numberOfNodes =>
    (once f.numberOfNodes (Text.word? value)).map fun x => { f with numberOfNodes := some x }
  | .initializingShards =>
    (once f.initializingShards (Text.word? value)).map fun x =>
      { f with initializingShards := some x }
  | .minimumShards =>
    (once f.minimumShards (Text.word? value)).map fun x => { f with minimumShards := some x }
  | .backend =>
    (once f.backend (Backend.ofText? value)).map fun x => { f with backend := some x }
  | .bindAddr => (once f.bindAddr (some value)).map fun x => { f with bindAddr := some x }

end Flags

/-- A configuration with what the options say. -/
def FleetConfig.withFlags (c : FleetConfig) (f : Flags) : FleetConfig :=
  { c with
    cluster :=
      { c.cluster with
        nodeAddress := f.nodeAddress.getD c.cluster.nodeAddress
        numberOfNodes := f.numberOfNodes.getD c.cluster.numberOfNodes
        initializingShards := f.initializingShards.getD c.cluster.initializingShards
        minimumShards := f.minimumShards.getD c.cluster.minimumShards }
    discovery := { c.discovery with backend := f.backend.getD c.discovery.backend }
    api := { c.api with bindAddr := f.bindAddr.getD c.api.bindAddr } }

/-- One argument. -/
inductive Argument where
  /-- What ends the options. -/
  | stop
  /-- An option by its name, with the value joined to it. -/
  | long (name : String) (value : Option String)
  /-- An option by its letter, with what is joined to it. -/
  | short (letter : Char) (rest : String)
  | plain (text : String)
  deriving DecidableEq, Repr

/-- What is left without one leading equals sign. -/
def dropEquals : List Char → List Char
  | '=' :: cs => cs
  | cs => cs

def Argument.ofText (s : String) : Argument :=
  match s.toList with
  | ['-', '-'] => .stop
  | '-' :: '-' :: cs =>
    match cs.span (· != '=') with
    | (name, '=' :: value) => .long (String.ofList name) (some (String.ofList value))
    | (name, _) => .long (String.ofList name) none
  | '-' :: c :: cs => .short c (String.ofList cs)
  | _ => .plain s

/-- What arguments ask for. -/
inductive Reading (α : Type) where
  | done (a : α)
  | help
  /-- They cannot be understood. -/
  | misuse

def Reading.ofOption {α : Type} : Option α → Reading α
  | some a => .done a
  | none => .misuse

/-- Reads options; `pending` is one whose value comes next. -/
def readFlags : List String → Option FlagName → Flags → Reading Flags
  | [], none, f => .done f
  | [], some _, _ => .misuse
  | s :: rest, pending, f =>
    let assign (name : FlagName) (value : String) : Reading Flags :=
      match f.set? name value with
      | some f => readFlags rest none f
      | none => .misuse
    match Argument.ofText s, pending with
    | .plain value, some name => assign name value
    | _, some _ | .plain _, none => .misuse
    | .stop, none => if rest.isEmpty then .done f else .misuse
    | .long "help" none, none => .help
    | .long name value, none =>
      match FlagName.ofText? name, value with
      | some name, some value => assign name value
      | some name, none => readFlags rest (some name) f
      | none, _ => .misuse
    | .short 'h' _, none => .help
    | .short 'c' joined, none =>
      if joined.isEmpty then readFlags rest (some .config) f
      else assign .config (String.ofList (dropEquals joined.toList))
    | .short _ _, none => .misuse

inductive Command where
  | run (f : Flags)
  | checkConfig (f : Flags)
  /-- Shows how the program was built. -/
  | buildInfo
  /-- Shows the program's version. -/
  | version
  /-- Shows what a command is for. -/
  | help (about : String)

def programAbout : String := "Telemetry fleet node with consensus-free shard coordination"

/-- The commands by name, and what each is for. -/
def commandAbouts : List (String × String) :=
  [ ("run", "Run the node"),
    ("check-config", "Validate the configuration and print the per-node device split"),
    ("version", "Print build information"),
    ("help", "Print this message or the help of the given subcommand(s)") ]

/-- A command whose options were read. -/
def commandOf {α : Type} (name : String) (make : α → Command) : Reading α → Option Command
  | .done a => some (make a)
  | .help => some (.help ((commandAbouts.lookup name).getD ""))
  | .misuse => none

/-- Arguments of a command that takes none. -/
def readNothing : List String → Reading Unit
  | [] => .done ()
  | s :: rest =>
    match Argument.ofText s with
    | .long "help" none | .short 'h' _ => .help
    | .stop => if rest.isEmpty then .done () else .misuse
    | _ => .misuse

/-- The options with the configuration file that the environment names. -/
def Flags.withEnv? (env : SortedMap String) (f : Flags) : Option Flags :=
  match f.config, env.get? "TELEFLEET_CONFIG" with
  | none, some s => (path? s).map fun s => { f with config := some s }
  | _, _ => some f

/-- Reads options, and where the environment counts, it. -/
def readAllFlags (env : SortedMap String) (args : List String) : Reading Flags :=
  match readFlags args none {} with
  | .done f => .ofOption (f.withEnv? env)
  | r => r

/-- The command that the arguments give; `none` if they cannot be understood. -/
def Command.parse? (env : SortedMap String) : List String → Option Command
  | [] => none
  | "run" :: args => commandOf "run" .run (readAllFlags env args)
  | "check-config" :: args => commandOf "check-config" .checkConfig (readAllFlags env args)
  | "version" :: args => commandOf "version" (fun _ => .buildInfo) (readNothing args)
  | ["help"] => some (.help programAbout)
  | ["help", name] => (commandAbouts.lookup name).map .help
  | s :: _ =>
    match Argument.ofText s with
    | .long "help" none | .short 'h' _ => some (.help programAbout)
    | .long "version" none | .short 'V' _ => some .version
    | _ => none

/-- Why no configuration could be loaded. -/
inductive LoadFailure where
  | unreadable (path : String)
  | unparsable (path : String) (fault : ConfigFault)
  | invalid (error : ConfigError)
  deriving DecidableEq, Repr

/-- The configuration of the file that the options name, or the default one. -/
def Flags.readFile (f : Flags) (file : String → Option String) : Except LoadFailure FleetConfig :=
  match f.config with
  | none => .ok {}
  | some path =>
    match file path with
    | none => .error (.unreadable path)
    | some text => (FleetConfig.ofYaml text).mapError (.unparsable path)

/-- The whole configuration, checked. -/
def Flags.load (f : Flags) (file : String → Option String) (env : SortedMap String) :
    Except LoadFailure FleetConfig := do
  let c := ((← f.readFile file).withEnv env).withFlags f
  match c.check with
  | .ok _ => return c
  | .error e => .error (.invalid e)

/-- How a program ends: its code and what it has printed. -/
structure Exit where
  code : Nat
  output : String := ""
  errors : String := ""
  deriving DecidableEq, Repr

namespace Exit

/-- A cause with each of its lines indented. -/
def indented (cause : String) : String :=
  "\n".intercalate (((cause.toList.splitOn '\n').map String.ofList).map ("    " ++ ·))

/-- A failure and its causes, as far as they are told. -/
def failure : List String → Exit
  | [] => { code := 1 }
  | top :: causes =>
    { code := 1
      errors :=
        "Error: " ++ top ++ "\n" ++
          if causes.isEmpty then ""
          else "\nCaused by:\n" ++ "\n".intercalate (causes.map indented) ++ "\n" }

/-- The program was stopped by a value that it cannot hold. -/
def crash : Exit := { code := 101 }

def misuse : Exit := { code := 2 }

end Exit

def LoadFailure.exit : LoadFailure → Exit
  | .unreadable path => .failure ["Failed to read config file " ++ path]
  | .unparsable _ (.data .spanOverflow) => .crash
  | .unparsable path _ => .failure ["Failed to parse config file " ++ path]
  | .invalid e => .failure ["Invalid configuration", e.message]

/-- A share of the plan in a line. -/
def shareLine (id : Nat) (share : List Device) : String :=
  "node " ++ toString id ++ ": " ++ toString share.length ++ " devices " ++
    Text.quotedList (share.map (·.host)) ++ "\n"

/-- What is printed about a configuration: its shape and who would collect what. -/
def FleetConfig.summary (c : FleetConfig) : String :=
  let n := c.cluster.numberOfNodes
  "configuration OK: " ++ toString c.devices.length ++ " devices, " ++ toString n ++
    " nodes, backend " ++ c.discovery.backend.toText ++ "\n" ++
    String.join ((shardPlan c.devices n).zipIdx.map fun s => shareLine s.2 s.1)

def versionLine : String := "telefleet-server 0.3.0\n"

/-- What a command comes to, or the configuration of the node that it runs. -/
def Command.execute (file : String → Option String) (env : SortedMap String) :
    Command → Except Exit FleetConfig
  | .run f => (f.load file env).mapError LoadFailure.exit
  | .checkConfig f =>
    .error <|
      match f.load file env with
      | .ok c => { code := 0, output := c.summary }
      | .error e => e.exit
  | .buildInfo | .version => .error { code := 0, output := versionLine }
  | .help about => .error { code := 0, output := about ++ "\n" }

end FleetSharding
