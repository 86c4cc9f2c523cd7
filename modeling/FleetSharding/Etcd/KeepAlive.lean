import FleetSharding.Duration
import FleetSharding.Event
import FleetSharding.Metrics

/-!
# Keeping a lease alive

A sign of life is sent at each multiple of an interval after registration.  The first that fails is
the last: the lease then runs out, and the other nodes see the slot as failed.
-/

namespace FleetSharding.Etcd

/-- What comes of a sign of life. -/
inductive Ping where
  | kept
  /-- It could not be sent. -/
  | unsent
  /-- The stream is over. -/
  | closed
  /-- The stream broke off. -/
  | failed
  deriving DecidableEq, Repr

namespace Ping

/-- What is reported about a lease. -/
def events (lease : Nat) : Ping → List Event
  | .kept => []
  | .unsent => [.keepAliveUnsent lease]
  | .closed => [.keepAliveClosed lease]
  | .failed => [.keepAliveFailed lease]

def measurements : Ping → List Measurement
  | .kept => []
  | _ => [.discoveryError "keepalive"]

end Ping

structure KeepAlive where
  lease : Nat
  interval : Duration
  /-- When the next sign of life is due. -/
  due : Nat
  deriving DecidableEq, Repr

namespace KeepAlive

/-- Signs of life from a moment on.  Without any time between two of them there are none. -/
def start? (lease : Nat) (interval : Duration) (clock : Nat) : Option KeepAlive :=
  if interval.isZero then none else some ⟨lease, interval, clock + interval.nanos⟩

/-- What is left after a sign of life. -/
def next? (k : KeepAlive) : Ping → Option KeepAlive
  | .kept => some { k with due := k.due + k.interval.nanos }
  | _ => none

end KeepAlive

end FleetSharding.Etcd
