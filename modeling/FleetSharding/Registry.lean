import FleetSharding.SlotMap

/-!
# The filter registry

The configured devices and a named set of claims on them.  A device is selected when at least one
claim takes it, so a registry without claims selects nothing.
-/

namespace FleetSharding

structure Registry where
  devices : List Device
  filters : SortedMap Claim

namespace Registry

def ofDevices (devices : List Device) : Registry := ⟨devices, .empty⟩

/-- Installs a claim in place of any with the same name. -/
def add (r : Registry) (name : String) (claim : Claim) : Registry :=
  { r with filters := r.filters.insert name claim }

def remove (r : Registry) (name : String) : Registry :=
  { r with filters := r.filters.erase name }

def has (r : Registry) (name : String) : Bool := r.filters.contains name

/-- The names of the installed claims, ascending. -/
def names (r : Registry) : List String := r.filters.keys

/-- Whether some claim takes a device. -/
def claims (r : Registry) (d : Device) : Bool := r.filters.values.any (· d)

/-- The devices that some claim takes, in the order of the configuration. -/
def selected (r : Registry) : List Device := r.devices.filter r.claims

/-- Without claims nothing is selected. -/
theorem selected_ofDevices (devices : List Device) : (ofDevices devices).selected = [] := by
  simp [selected, ofDevices, claims, SortedMap.values, SortedMap.empty]

end Registry

end FleetSharding
