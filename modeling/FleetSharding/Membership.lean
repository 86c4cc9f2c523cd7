import FleetSharding.DiscoveryError
import FleetSharding.Member
import FleetSharding.Signal

/-!
# Membership in one process

A list of members that several nodes share, and the watchers that are signalled when it changes.  A
node registers by its address and is given the lowest free slot.  While the membership is marked
unavailable, registering and queries fail; everything else goes on.
-/

namespace FleetSharding

/-- Whether a member holds a slot. -/
def holdsSlot (members : List Member) (slot : Nat) : Bool := members.any (·.slot == some slot)

/-- The lowest slot from `start` on and below a limit that no member holds.  Of one slot more than
there are members, one is free. -/
def freeSlotFrom (members : List Member) (start limit : Nat) : Option Nat :=
  (List.range' start (min (limit - start) (members.length + 1))).find? (!holdsSlot members ·)

/-- The lowest slot below a limit that no member holds. -/
def lowestFreeSlot (members : List Member) (limit : Nat) : Option Nat :=
  freeSlotFrom members 0 limit

structure Membership where
  /-- Slots are handed out below this number. -/
  limit : Nat
  members : List Member
  available : Bool
  deriving DecidableEq

namespace Membership

def ofMembers (limit : Nat) (members : List Member) : Membership := ⟨limit, members, true⟩

/-- The first member with an address. -/
def at? (m : Membership) (address : String) : Option Member :=
  m.members.find? (·.address == address)

/-- What a query answers. -/
def query (m : Membership) : Except DiscoveryError (List Member) :=
  if m.available then .ok m.members else .error .unavailable

/-- Changes the first element that passes a test. -/
def updateFirst {α : Type} (p : α → Bool) (f : α → α) : List α → List α
  | [] => []
  | a :: as => if p a then f a :: as else a :: updateFirst p f as

def has (m : Membership) (id : String) : Bool := m.members.any (·.id == id)

/-- Puts a member in place of the first with its id, or at the end. -/
def upsert (m : Membership) (member : Member) : Membership :=
  if m.has member.id then
    { m with members := updateFirst (·.id == member.id) (fun _ => member) m.members }
  else { m with members := m.members ++ [member] }

/-- Changes the health of the first member with an id. -/
def setStatus (m : Membership) (id : String) (status : MemberStatus) : Membership :=
  { m with members := updateFirst (·.id == id) ({ · with status }) m.members }

def remove (m : Membership) (id : String) : Membership :=
  { m with members := m.members.filter (·.id != id) }

def deregister (m : Membership) (address : String) : Membership :=
  { m with members := m.members.filter (·.address != address) }

/-- What registering an address comes to. -/
inductive Registration where
  | refused (error : DiscoveryError)
  /-- The address was listed already. -/
  | listed (member : Member)
  | added (member : Member)

def registration (m : Membership) (address : String) : Registration :=
  if !m.available then .refused .unavailable
  else
    match m.at? address with
    | some member => .listed member
    | none =>
      match lowestFreeSlot m.members m.limit with
      | none => .refused (.noFreeSlot m.limit)
      | some id => .added (Member.sharded id address)

/-- The membership after an address was registered. -/
def register (m : Membership) (address : String) : Membership :=
  match m.registration address with
  | .added member => { m with members := m.members ++ [member] }
  | _ => m

end Membership

/-- Something done to a membership from outside. -/
inductive MembershipAction where
  | register (address : String)
  | deregister (address : String)
  | upsert (member : Member)
  | setStatus (id : String) (status : MemberStatus)
  | remove (id : String)
  | setUnavailable (on : Bool)
  deriving DecidableEq

namespace Membership

/-- The membership after an action. -/
def apply (m : Membership) : MembershipAction → Membership
  | .register address => m.register address
  | .deregister address => m.deregister address
  | .upsert member => m.upsert member
  | .setStatus id status => m.setStatus id status
  | .remove id => m.remove id
  | .setUnavailable on => { m with available := !on }

/-- Whether an action makes the watchers hear of it: those do that change the list, a change that
puts the same again included. -/
def signals (m : Membership) : MembershipAction → Bool
  | .register address =>
    match m.registration address with
    | .added _ => true
    | _ => false
  | .deregister address => m.members.any (·.address == address)
  | .upsert _ => true
  | .setStatus id _ => m.has id
  | .remove id => m.has id
  | .setUnavailable _ => false

end Membership

/-- A membership with those who watch it. -/
structure WatchedMembership where
  membership : Membership
  watchers : List Signal
  deriving DecidableEq

namespace WatchedMembership

def watch (w : WatchedMembership) (capacity : Nat) : WatchedMembership :=
  { w with watchers := w.watchers ++ [.ofCapacity capacity] }

/-- The membership after an action, and what its watchers heard of it. -/
def act (w : WatchedMembership) (action : MembershipAction) : WatchedMembership :=
  ⟨w.membership.apply action,
    if w.membership.signals action then w.watchers.map Signal.notify else w.watchers⟩

end WatchedMembership

end FleetSharding
