import FleetSharding.Duration
import FleetSharding.Event
import FleetSharding.Metrics

/-!
# Watching the members

A watch signals that members may have changed: once whenever its stream opens, because changes made
while it was down are not told, and once for each report of changes.  A stream that ends is opened
again after a pause, unless nobody is left to hear the signals.

`Watch.step` is the transition function; what it tells others to do are its effects.
-/

namespace FleetSharding.Etcd

/-- How a stream ends. -/
inductive StreamEnd where
  | canceled
  | ended
  | failed
  deriving DecidableEq, Repr

inductive Watch where
  /-- About to look whether anybody hears the signals. -/
  | starting
  /-- The stream was asked for. -/
  | opening
  | streaming
  | pausing (due : Nat)
  | stopped
  deriving DecidableEq, Repr

inductive WatchInput where
  /-- The watch goes on; whether anybody hears its signals. -/
  | resumed (heard : Bool)
  | opened
  | refused
  /-- The stream reports changes. -/
  | changed
  | over (how : StreamEnd)
  deriving DecidableEq, Repr

inductive WatchEffect where
  | openStream
  | cancelStream
  | notify
  | report (e : Event)
  | measure (m : Measurement)
  deriving DecidableEq, Repr

/-- What is reported and measured when a stream ends. -/
def StreamEnd.effects : StreamEnd → List WatchEffect
  | .canceled => [.report .watchCanceled]
  | .ended => [.report .watchEnded]
  | .failed => [.measure (.discoveryError "watch"), .report .watchFailed]

namespace Watch

/-- The watch after an input, and its effects; `delay` is the pause before a stream is opened
again. -/
def step (delay : Duration) (clock : Nat) : Watch → WatchInput → Watch × List WatchEffect
  | .starting, .resumed heard | .pausing _, .resumed heard =>
    if heard then (.opening, [.openStream]) else (.stopped, [])
  | .opening, .opened => (.streaming, [.notify])
  | .opening, .refused =>
    (.pausing (clock + delay.nanos), [.measure (.discoveryError "watch"), .report .watchRefused])
  | .streaming, .changed => (.streaming, [.notify])
  | .streaming, .over how => (.pausing (clock + delay.nanos), how.effects ++ [.cancelStream])
  | w, _ => (w, [])

end Watch

end FleetSharding.Etcd
