import FleetSharding.Event
import FleetSharding.Metrics
import FleetSharding.Registry
import FleetSharding.Signal

/-!
# Subscriptions

The devices that are collected now, and how they follow the registry: each refresh takes over the
selected devices and reports by host who left and who entered.
-/

namespace FleetSharding

/-- Hosts in ascending order, each once. -/
def hostSet (devices : List Device) : List String :=
  (SortedMap.ofList (devices.map fun d => (d.host, ()))).keys

/-- Who entered and who left with one refresh, by host and ascending. -/
structure SubscriptionDiff where
  added : List String
  removed : List String
  deriving DecidableEq, Repr

namespace SubscriptionDiff

def isEmpty (d : SubscriptionDiff) : Bool := d.added.isEmpty && d.removed.isEmpty

/-- The difference between two lists of devices. -/
def between (before after : List Device) : SubscriptionDiff :=
  let old := hostSet before
  let new := hostSet after
  ⟨new.filter (!old.contains ·), old.filter (!new.contains ·)⟩

/-- Those who left are reported first. -/
def events (d : SubscriptionDiff) : List Event :=
  d.removed.map .deviceUnsubscribed ++ d.added.map .deviceSubscribed

end SubscriptionDiff

/-- What one refresh did. -/
structure Refresh where
  /-- The devices collected from now on. -/
  active : List Device
  diff : SubscriptionDiff

/-- Brings the active devices in line with the registry. -/
def Refresh.of (active : List Device) (r : Registry) : Refresh :=
  ⟨r.selected, .between active r.selected⟩

/-- What a refresh measures. -/
def Refresh.measurement (r : Refresh) : Measurement := .ownedDevices r.active.length

/-- Where a tracker is in its loop. -/
inductive TrackerPoint where
  | waiting
  /-- A signal was taken, and the others that are pending are about to be discarded. -/
  | draining
  | reading
  /-- The selection was read and is about to become the active one. -/
  | storing (selected : List Device)
  | stopped

/-- The task that keeps the active devices in line with the registry. -/
structure Tracker where
  point : TrackerPoint
  active : List Device

namespace Tracker

def start : Tracker := ⟨.waiting, []⟩

/-- A step of the tracker on the channel of refresh requests and the registry: the tracker and the
channel after it, and the refresh if it ended one. -/
def step? (t : Tracker) (updates : Signal) (r : Registry) :
    Option (Tracker × Signal × Option Refresh) :=
  match t.point with
  | .waiting =>
    match updates.receipt with
    | .signal => some ({ t with point := .draining }, updates.receive, none)
    | .ended => some ({ t with point := .stopped }, updates, none)
    | .waiting => none
  | .draining => some ({ t with point := .reading }, updates.drain, none)
  | .reading => some ({ t with point := .storing r.selected }, updates, none)
  | .storing selected =>
    some (⟨.waiting, selected⟩, updates, some ⟨selected, .between t.active selected⟩)
  | .stopped => none

end Tracker

end FleetSharding
