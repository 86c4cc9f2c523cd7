import FleetSharding.Etcd.Record
import FleetSharding.Etcd.Server
import FleetSharding.Event
import FleetSharding.Membership

/-!
# Registering in the store

A node registers with one request after the other: it takes a lease, lists the members, and then
either adopts the slot of a record that bears its address, or claims the lowest free slot, the next
one if a rival was faster.  Last it opens the stream that keeps the lease alive.

`Registration` says where a node stands between two requests, `request?` what it asks for next and
`receive` what it makes of the answer.  Many nodes that register at once are many registrations over
one store.
-/

namespace FleetSharding.Etcd

/-- What a registered node holds. -/
structure Session where
  member : Member
  slot : Nat
  lease : Nat
  deriving DecidableEq

/-- Who registers. -/
structure Registrant where
  clusterId : String
  address : String
  /-- Slots are below this number. -/
  nodes : Nat
  /-- The life of the lease in seconds. -/
  ttl : Int

inductive Registration where
  /-- About to take a lease. -/
  | start
  /-- About to list the members. -/
  | listing (lease : Nat)
  /-- About to write to a slot whose record bears the node's address. -/
  | adopting (lease slot : Nat)
  /-- About to claim a slot that none of these members holds. -/
  | claiming (lease slot : Nat) (listed : List Member)
  /-- Every slot is taken, and the lease is about to be given back. -/
  | yielding (lease : Nat)
  /-- About to keep the lease alive. -/
  | opening (lease slot : Nat)
  | ended (result : Except DiscoveryError Session)

/-- The members that records hold, and how many of the records hold none. -/
def readRecords (front : String) (found : List (String × String)) : List Member × Nat :=
  found.foldr
    (fun r acc =>
      match decodeMember front (Text.encode r.1) (Text.encode r.2) with
      | .ok m => (m :: acc.1, acc.2)
      | .error _ => (acc.1, acc.2 + 1))
    ([], 0)

/-- What is reported about records that hold no member. -/
def skippedRecords (n : Nat) : List Event := List.replicate n .memberSkipped

namespace Registrant

def front (r : Registrant) : String := membersPrefix r.clusterId

def key (r : Registrant) (slot : Nat) : String := memberKey r.clusterId slot

def value (r : Registrant) : String := (MemberRecord.passing r.address).write

/-- The slot of the first record that bears the node's address. -/
def formerSlot? (r : Registrant) (members : List Member) : Option Nat :=
  ((members.find? (·.address == r.address)).bind Member.slot).filter (· < r.nodes)

def session (r : Registrant) (lease slot : Nat) : Session :=
  ⟨(MemberRecord.passing r.address).toMember (toString slot), slot, lease⟩

/-- Claims the lowest slot from some slot on that none of the members holds. -/
def claimFrom (r : Registrant) (lease start : Nat) (members : List Member) : Registration :=
  match freeSlotFrom members start r.nodes with
  | some slot => .claiming lease slot members
  | none => .yielding lease

end Registrant

namespace Registration

/-- The next request. -/
def request? (r : Registrant) : Registration → Option Request
  | .start => some (.grant r.ttl)
  | .listing _ => some (.range r.front)
  | .adopting lease slot => some (.put (r.key slot) r.value lease)
  | .claiming lease slot _ => some (.claim (r.key slot) r.value lease)
  | .yielding lease => some (.revoke lease)
  | .opening lease _ => some (.keepAlive lease)
  | .ended _ => none

/-- Whether the node waits for an answer without end. -/
def isPatient : Registration → Bool
  | .yielding _ => true
  | _ => false

/-- What a failed request makes of a registration: only giving back the lease may fail. -/
def fail (r : Registrant) (e : DiscoveryError) : Registration → Registration × List Event
  | .yielding lease => (.ended (.error (.noFreeSlot r.nodes)), [.leaseNotRevoked lease])
  | .ended result => (.ended result, [])
  | _ => (.ended (.error e), [])

/-- What the answer to the last request makes of a registration. -/
def answer (r : Registrant) : Registration → Response → Registration × List Event
  | .start, .lease lease => (.listing lease, [])
  | .listing lease, .records found =>
    let (members, skipped) := readRecords r.front found
    let next := match r.formerSlot? members with
      | some slot => .adopting lease slot
      | none => r.claimFrom lease 0 members
    (next, skippedRecords skipped)
  | .adopting lease slot, _ => (.opening lease slot, [])
  | .claiming lease slot _, .claimed true => (.opening lease slot, [])
  | .claiming lease slot members, .claimed false =>
    (r.claimFrom lease (slot + 1) members, [])
  | .yielding _, _ => (.ended (.error (.noFreeSlot r.nodes)), [])
  | .opening lease slot, _ => (.ended (.ok (r.session lease slot)), [])
  | g, _ => (g, [])

/-- What comes of the last request; one that was never answered counts as timed out. -/
def receive (r : Registrant) (g : Registration) : Outcome → Registration × List Event
  | .answered a => answer r g a
  | .refused => fail r .request g
  | .silent => fail r .timeout g

end Registration

end FleetSharding.Etcd
