/-!
# Failures of discovery

Why members could not be listed, or a node not be registered, and the words for it.
-/

namespace FleetSharding

/-- Why discovery could not do what was asked. -/
inductive DiscoveryError where
  /-- The request was refused or broke off. -/
  | request
  | timeout
  /-- Every id below the number of nodes is taken. -/
  | noFreeSlot (nodes : Nat)
  | unavailable
  deriving DecidableEq, Repr

def DiscoveryError.message : DiscoveryError → String
  | .request => "etcd request failed"
  | .timeout => "discovery request timed out"
  | .noFreeSlot nodes => "no free member id below " ++ toString nodes
  | .unavailable => "discovery unavailable: static membership marked unavailable"

end FleetSharding
