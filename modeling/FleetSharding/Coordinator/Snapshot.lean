import FleetSharding.Config
import FleetSharding.Event
import FleetSharding.SlotMap
import FleetSharding.Status

/-!
# What a coordinator reads off a list of members

Three questions are put to each list: which slot is one's own, what in it is inconsistent, and, when
there is enough of it, what is to be collected.
-/

namespace FleetSharding

/-- What a query of the membership answered. -/
abbrev Answer := Except DiscoveryError (List Member)

/-- The first passing member with the node's own address. -/
def ownMember? (c : ClusterConfig) (members : List Member) : Option Member :=
  members.find? fun m => m.address == c.nodeAddress && m.isPassing

/-- The slot of the node's own member, if it is one of the cluster's. -/
def ownSlot? (c : ClusterConfig) (members : List Member) : Option Nat :=
  (ownMember? c members).bind fun m => m.slot.filter (· < c.numberOfNodes)

/-- A warning if the node's own member has no slot of the cluster. -/
def ownSlotWarning (c : ClusterConfig) (members : List Member) : List Event :=
  match ownMember? c members with
  | some m => if (ownSlot? c members).isSome then [] else [.slotOutOfRange m.id]
  | none => []

/-- Warnings about members that the slot layout passes over, or of which it keeps only the last.
`seen` are the slots that have come before. -/
def inconsistencies (nodes : Nat) (seen : List Nat) : List Member → List Event
  | [] => []
  | m :: ms =>
    match m.slot with
    | some slot =>
      if nodes ≤ slot then .invalidSlot m.id m.address :: inconsistencies nodes seen ms
      else if slot ∈ seen then .duplicateSlot slot m.address :: inconsistencies nodes seen ms
      else inconsistencies nodes (slot :: seen) ms
    | none => .invalidSlot m.id m.address :: inconsistencies nodes seen ms

/-- All warnings about a list of members; those without the marker are left alone. -/
def snapshotWarnings (nodes : Nat) (members : List Member) : List Event :=
  inconsistencies nodes [] (members.filter Member.isShardEnabled)

end FleetSharding
