import FleetSharding.Device
import FleetSharding.Member

/-!
# Slots and who collects what

The devices are divided over a fixed number of slots by their keys.  A `SlotMap` says which slots of
the cluster have failed, seen from one list of members, and numbers the slots that survive without
gaps.  While a device's home slot survives, that slot keeps it; the devices of failed slots are
divided anew over the survivors.

* `mainShard id n` claims the devices at home in slot `id`.
* `SlotMap.takeover id` claims the orphaned devices that fall to slot `id`.
* `SlotMap.ownerOf` names the slot that ends up with a key.

The last two are written apart: each survivor decides for itself what it takes over, and `ownerOf`
looks for the survivor.
-/

namespace FleetSharding

/-- A decision on which devices are one's own. -/
abbrev Claim := Device → Bool

/-- A device's key as a number. -/
def Device.key (d : Device) : Nat := d.groupKey.toNat

/-- The claim to the devices at home in a slot. -/
def mainShard (id size : Nat) : Claim := fun d =>
  size != 0 && d.key % size == id

/-- The slots of a cluster, as one list of members shows them. -/
structure SlotMap where
  size : Nat
  /-- The slots that have failed, ascending. -/
  failed : List Nat
  /-- Each slot's number among the survivors. -/
  indices : List (Option Nat)
  deriving DecidableEq, Repr

namespace SlotMap

/-- Seats the members: each at the slot of its id, the last of several with one id.  Members without
the marker and ids past the last slot take no seat. -/
def seats (size : Nat) (members : List Member) : List (Option Member) :=
  members.foldl
    (fun seats m =>
      match m.slot with
      | some slot => if m.isShardEnabled && slot < size then seats.set slot (some m) else seats
      | none => seats)
    (List.replicate size none)

/-- The failed slots and the numbers of the others, from slot `slot` on with `next` as the number of
the next survivor.  A slot survives while a passing member sits at it. -/
def classify : Nat → Nat → List (Option Member) → List Nat × List (Option Nat)
  | _, _, [] => ([], [])
  | slot, next, seat :: seats =>
    if seat.any Member.isPassing then
      let (failed, indices) := classify (slot + 1) (next + 1) seats
      (failed, some next :: indices)
    else
      let (failed, indices) := classify (slot + 1) next seats
      (slot :: failed, none :: indices)

def ofMembers (size : Nat) (members : List Member) : SlotMap :=
  let (failed, indices) := classify 0 0 (seats size members)
  ⟨size, failed, indices⟩

/-- How many slots survive. -/
def survivors (s : SlotMap) : Nat := s.size - s.failed.length

def allPassing (s : SlotMap) : Bool := s.failed.isEmpty

/-- The number of a slot among the survivors. -/
def mapIndex (s : SlotMap) (slot : Nat) : Option Nat :=
  (s.indices[slot]?).join

/-- A slot that there is not counts as failed. -/
def isFailed (s : SlotMap) (slot : Nat) : Bool := (s.mapIndex slot).isNone

/-- The slot that ends up with a key; none only if all have failed. -/
def ownerOf (s : SlotMap) (key : Nat) : Option Nat :=
  if s.size = 0 then none
  else if !s.isFailed (key % s.size) then some (key % s.size)
  else if s.survivors = 0 then none
  else s.indices.findIdx? (· == some (key % s.survivors))

/-- The claim of slot `id` to devices of failed slots: those whose key falls to it when divided
over the survivors.  A slot that has failed itself claims nothing. -/
def takeover (s : SlotMap) (id : Nat) : Claim := fun d =>
  match s.mapIndex id with
  | none => false
  | some target => s.failed.contains (d.key % s.size) && d.key % s.survivors == target

end SlotMap

/-- The claim of slot `id` to devices of failed slots, from a list of members. -/
def extraShard (id size : Nat) (members : List Member) : Claim :=
  (SlotMap.ofMembers size members).takeover id

/-- Which devices each slot of a whole cluster collects. -/
def shardPlan (devices : List Device) (nodes : Nat) : List (List Device) :=
  (List.range nodes).map fun id => devices.filter (mainShard id nodes)

end FleetSharding
