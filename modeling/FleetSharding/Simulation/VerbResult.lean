import FleetSharding.Membership

/-!
# Results of a script's verbs

A script does one thing after the other, and each comes back with a result.
-/

namespace FleetSharding

/-- What comes back from something a script does. -/
inductive VerbResult where
  | nothing
  | flag (b : Bool)
  | member (m : Member)
  | members (ms : List Member)
  | failed (e : DiscoveryError)
  /-- What a receiver found. -/
  | receipt (r : Receipt)
  /-- There is no such node. -/
  | noNode

/-- What a membership answers to an action. -/
def MembershipAction.result (m : Membership) : MembershipAction → VerbResult
  | .register address =>
    match m.registration address with
    | .refused e => .failed e
    | .listed member => .member member
    | .added member => .member member
  | .setStatus id _ => .flag (m.has id)
  | .remove id => .flag (m.has id)
  | _ => .nothing

def Membership.queryResult (m : Membership) : VerbResult :=
  match m.query with
  | .ok ms => .members ms
  | .error e => .failed e

end FleetSharding
