import FleetSharding.Number.Shortest
import FleetSharding.SortedMap

/-!
# Metrics

A node keeps gauges, which hold the last value set, and counters, which only grow.  A series is
absent until it is touched.  A series has at most one label, and its text is its name with the
label in braces; a value is written as the decimal of the 64-bit float nearest to it.
-/

namespace FleetSharding

/-- Something a node measures. -/
inductive Measurement where
  | ownedDevices (count : Nat)
  | suspended (on : Bool)
  | membership (healthy failed : Nat)
  | rebalance (outcome : String)
  | takeover (source : String)
  | discoveryError (operation : String)
  | signalDropped (signal : String)
  deriving DecidableEq, Repr

/-- The values of all series touched so far. -/
structure Metrics where
  gauges : SortedMap Nat
  counters : SortedMap Nat
  deriving DecidableEq

namespace Metrics

def empty : Metrics := ⟨.empty, .empty⟩

instance : Inhabited Metrics := ⟨empty⟩

/-- A label's value between its quotes.  A backslash before another one or before a quote is
dropped, every other one is doubled; a quote and a line end are escaped.  A line end goes before
the backslash that it follows. -/
def labelChars : List Char → List Char
  | [] => []
  | '\\' :: '\n' :: cs => '\\' :: 'n' :: labelChars ('\\' :: cs)
  | '\\' :: '\\' :: cs => '\\' :: '\\' :: labelChars cs
  | '\\' :: '"' :: cs => '\\' :: '"' :: labelChars cs
  | '\\' :: cs => '\\' :: '\\' :: labelChars cs
  | '"' :: cs => '\\' :: '"' :: labelChars cs
  | '\n' :: cs => '\\' :: 'n' :: labelChars cs
  | c :: cs => c :: labelChars cs
  termination_by cs => cs.length

/-- The text of a series with one label. -/
def series (name label value : String) : String :=
  name ++ "\x7b" ++ label ++ "=\"" ++ String.ofList (labelChars value.toList) ++ "\"\x7d"

def ownedDevices : String := "telefleet_shard_owned_devices"
def suspended : String := "telefleet_shard_suspended"
def healthyMembers : String := "telefleet_shard_healthy_members"
def failedSlots : String := "telefleet_shard_failed_slots"
def rebalances : String := "telefleet_shard_rebalances_total"
def takeovers : String := "telefleet_shard_takeovers_total"
def discoveryErrors : String := "telefleet_discovery_errors_total"
def refreshDropped : String := "telefleet_refresh_dropped_total"

def set (m : Metrics) (name : String) (n : Nat) : Metrics :=
  { m with gauges := m.gauges.insert name n }

def count (m : Metrics) (series : String) : Metrics :=
  { m with counters := m.counters.insert series ((m.counters.get? series).getD 0 + 1) }

def record (m : Metrics) : Measurement → Metrics
  | .ownedDevices n => m.set Metrics.ownedDevices n
  | .suspended on => m.set Metrics.suspended (if on then 1 else 0)
  | .membership healthy failed => (m.set healthyMembers healthy).set failedSlots failed
  | .rebalance outcome => m.count (series rebalances "outcome" outcome)
  | .takeover source => m.count (series takeovers "source" source)
  | .discoveryError operation => m.count (series discoveryErrors "operation" operation)
  | .signalDropped signal => m.count (series refreshDropped "signal" signal)

def recordAll (m : Metrics) (ms : List Measurement) : Metrics :=
  ms.foldl record m

/-- A gauge's value: a whole number as the float nearest to it, in full. -/
def gaugeText (n : Nat) : String :=
  let d := (Binary64.ofNat n).shortest
  toString (d.digits * Nat.pow 10 d.exponent.toNat)

/-- Every series with its value. -/
def samples (m : Metrics) : SortedMap String :=
  .ofList (m.gauges.entries.map (fun e => (e.1, gaugeText e.2)) ++
    m.counters.entries.map fun e => (e.1, toString e.2))

/-- Each metric with its kind and its description, by name. -/
def descriptions : List (String × String × String) :=
  [ (discoveryErrors, "counter", "Total number of failed discovery calls"),
    (refreshDropped, "counter",
      "Total number of signals dropped because one was already pending"),
    (failedSlots, "gauge", "Number of shard slots with no passing member"),
    (healthyMembers, "gauge", "Number of passing members carrying the shard marker"),
    (ownedDevices, "gauge", "Number of devices this node is collecting"),
    (rebalances, "counter", "Total number of rebalance passes"),
    (suspended, "gauge", "1 while collection is suspended below minimum_shards"),
    (takeovers, "counter", "Total number of takeover filter installs") ]

/-- The lines that introduce each metric. -/
def helpLines : List String :=
  descriptions.map (fun (name, _, text) => "# HELP " ++ name ++ " " ++ text) ++
    descriptions.map fun (name, kind, _) => "# TYPE " ++ name ++ " " ++ kind

end Metrics

end FleetSharding
