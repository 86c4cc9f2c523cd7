import FleetSharding.CommandLine
import FleetSharding.Simulation.Node

/-!
# Starting a node from the command line

A node of the static backend is run until it has come up or failed.  A node of the other backend
fails to register: there is no store here to register in.
-/

namespace FleetSharding

section Listening

variable (listen : String → Listening)

/-- A node of the static backend right after its start. -/
def FleetConfig.listedNode (c : FleetConfig) : Node ListedNode :=
  .start listen c
    ⟨.ofMembers c.cluster.numberOfNodes c.discovery.staticMembers, c.cluster.nodeAddress⟩

/-- How a node fails to come up, if it does. -/
def FleetConfig.startFailure? (c : FleetConfig) : Option NodeFailure :=
  match c.discovery.backend with
  | .etcd => some (.registration .request)
  | .static =>
    match ((c.listedNode listen).comeUp (c.timers.registrationAttempts + 2)).phase with
    | .ended failure => failure
    | _ => none

/-- How the program ends for some arguments; `none` if it runs a node that comes up. -/
def programExit? (file : String → Option String) (env : SortedMap String) (args : List String) :
    Option Exit :=
  match Command.parse? env args with
  | none => some .misuse
  | some command =>
    match command.execute file env with
    | .error e => some e
    | .ok c => (c.startFailure? listen).map fun f => .failure f.chain

end Listening

end FleetSharding
