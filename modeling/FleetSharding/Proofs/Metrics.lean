import FleetSharding.Coordinator.Step
import Mathlib.Data.List.Induction

/-!
# What the series show

A gauge shows the last value that was set, and a counter how often it was touched; both are absent
before that.

* `Effect.measured?`: what an effect measures.
* `Metrics.get?_suspended_recordAll`: the gauge of the suspension after any measurements.
* `Metrics.get?_refreshDropped_record`: the counter of dropped signals after one more.
-/

namespace FleetSharding

/-- What an effect measures. -/
def Effect.measured? : Effect → Option Measurement
  | .measure m => some m
  | _ => none

/-- What a measurement says of the suspension. -/
def Measurement.suspends? : Measurement → Option Bool
  | .suspended on => some on
  | _ => none

namespace Metrics

/-- A measurement sets the gauge of the suspension, or leaves it alone. -/
theorem get?_suspended_record (m : Metrics) (x : Measurement) :
    (m.record x).gauges.get? Metrics.suspended =
      (x.suspends?.map fun on => if on then 1 else 0).or (m.gauges.get? Metrics.suspended) := by
  have hother : ∀ {name : String}, name ≠ Metrics.suspended → ∀ (m : Metrics) (n : Nat),
      (m.set name n).gauges.get? Metrics.suspended = m.gauges.get? Metrics.suspended := by
    intro name hname m n
    rw [set, SortedMap.get?_insert, if_neg hname]
  cases x with
  | suspended on => rw [record, set, SortedMap.get?_insert, if_pos rfl]; rfl
  | ownedDevices count => exact hother (by decide) m count
  | membership healthy failed =>
      exact (hother (by decide) _ failed).trans (hother (by decide) m healthy)
  | _ => rfl

/-- **The gauge shows what was said last of the suspension.** -/
theorem get?_suspended_recordAll (m : Metrics) (ms : List Measurement) :
    (m.recordAll ms).gauges.get? Metrics.suspended =
      ((ms.filterMap Measurement.suspends?).getLast?.map fun on => if on then 1 else 0).or
        (m.gauges.get? Metrics.suspended) := by
  induction ms using List.reverseRecOn with
  | nil => rfl
  | append_singleton ms x ih =>
      rw [recordAll, List.foldl_append, List.foldl_cons, List.foldl_nil, get?_suspended_record,
        List.filterMap_append]
      cases hx : x.suspends? with
      | none =>
          rw [List.filterMap_cons_none hx, List.filterMap_nil, List.append_nil]
          exact ih
      | some on =>
          rw [List.filterMap_cons_some hx, List.filterMap_nil, List.getLast?_concat]
          rfl

/-- A dropped signal is counted under the name of its channel. -/
theorem get?_refreshDropped_record (m : Metrics) (name : String) :
    (m.record (.signalDropped name)).counters.get? (series refreshDropped "signal" name) =
      some ((m.counters.get? (series refreshDropped "signal" name)).getD 0 + 1) := by
  rw [record, count, SortedMap.get?_insert, if_pos rfl]

end Metrics

end FleetSharding
