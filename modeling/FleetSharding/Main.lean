import FleetSharding.Json.Writer
import FleetSharding.Simulation.StartUp

/-!
# The program

Reads the arguments, the environment and the configuration file, and does what the command says.  A
node that comes up is run in real time, its events one to a line.  Its admin interface is not served
here, so there is no address that could not be listened on.
-/

namespace FleetSharding.Program

/-- The variables that matter. -/
def variableNames : List String :=
  [ "TELEFLEET_CONFIG", "CLUSTER_ID", "NODE_ADDRESS", "NUMBER_OF_NODES", "INITIALIZING_SHARDS",
    "MINIMUM_SHARDS", "DISCOVERY_BACKEND", "ETCD_ENDPOINTS", "API_BIND_ADDR" ]

def readEnvironment : IO (SortedMap String) := do
  let found ← variableNames.filterMapM fun name => do
    return (← IO.getEnv name).map fun value => (name, value)
  return .ofList found

/-- Nothing is listened on. -/
def unserved (_ : String) : Listening := .now true

/-- The file that a command needs. -/
def fileOf? : Command → Option String
  | .run f | .checkConfig f => f.config
  | _ => none

/-- The text of a file, if it can be read. -/
def readText? (path : String) : IO (Option String) := do
  try return some (← IO.FS.readFile path)
  catch _ => return none

/-- Runs a node in real time from a moment on. -/
partial def follow (started : Nat) (n : Node ListedNode) : IO Unit := do
  let (events, n) := n.takeJournal
  for e in events do
    IO.println e.toJson.render
  match n.phase, n.nextDue? with
  | .running, some due =>
    let now ← IO.monoNanosNow
    IO.sleep ((started + due - now) / Duration.nanosPerMilli + 1).toUInt32
    follow started (n.advance due)
  | _, _ => return

end FleetSharding.Program

open FleetSharding Program in
def main (args : List String) : IO UInt32 := do
  let env ← readEnvironment
  let path? := (Command.parse? env args).bind fileOf?
  let text ← match path? with
    | some path => readText? path
    | none => pure none
  let file (_ : String) : Option String := text
  match programExit? unserved file env args with
  | some e =>
    IO.print e.output
    IO.eprint e.errors
    return e.code.toUInt32
  | none =>
    if let some (.run f) := Command.parse? env args then
      if let .ok c := f.load file env then
        follow (← IO.monoNanosNow) (c.listedNode unserved)
    return 0
