import FleetSharding.SortedMap

/-!
# The shared store

A store maps keys to values.  A key may hang on a lease, and goes when the lease ends; it remembers
the revision at which it came into being, which a later value of it keeps.  Each request is answered
in one step, so requests of many nodes are a sequence of steps.
-/

namespace FleetSharding.Etcd

structure Stored where
  value : String
  /-- The revision at which the key came into being. -/
  created : Nat
  /-- The lease that the key hangs on. -/
  lease : Option Nat
  deriving DecidableEq, Repr

structure Store where
  records : SortedMap Stored
  /-- How many changes were made. -/
  revision : Nat
  /-- How many leases were granted; they are numbered from one. -/
  granted : Nat
  /-- The leases that have not ended. -/
  leases : List Nat

/-- What a node may ask of the store. -/
inductive Request where
  /-- A new lease of so many seconds. -/
  | grant (ttl : Int)
  /-- The end of a lease. -/
  | revoke (lease : Nat)
  /-- All keys that start like this. -/
  | range (front : String)
  | put (key value : String) (lease : Nat)
  /-- A new key, if it is not there. -/
  | claim (key value : String) (lease : Nat)
  /-- A stream on which a lease is kept alive. -/
  | keepAlive (lease : Nat)
  deriving DecidableEq, Repr

inductive Response where
  | lease (id : Nat)
  | records (found : List (String × String))
  | claimed (won : Bool)
  | done
  deriving DecidableEq, Repr

/-- Whether a key starts like this. -/
def startsLike (front key : String) : Bool := front.toList.isPrefixOf key.toList

namespace Store

def empty : Store := ⟨.empty, 0, 0, []⟩

/-- Writes a key; its lease is the one given, if any. -/
def put (s : Store) (key value : String) (lease : Option Nat) : Store :=
  let created := ((s.records.get? key).map (·.created)).getD (s.revision + 1)
  { s with
    records := s.records.insert key ⟨value, created, lease⟩
    revision := s.revision + 1 }

def delete (s : Store) (key : String) : Store :=
  if s.records.contains key then
    { s with records := s.records.erase key, revision := s.revision + 1 }
  else s

/-- The keys that hang on one of some leases. -/
def keysOn (s : Store) (ended : Nat → Bool) : List String :=
  (s.records.entries.filter fun e => e.2.lease.any ended).map (·.1)

/-- Leases end, and the keys that hang on them go. -/
def endLeases (s : Store) (ended : Nat → Bool) : Store :=
  let gone := s.keysOn ended
  { s with
    records := gone.foldl (·.erase ·) s.records
    revision := s.revision + if gone.isEmpty then 0 else 1
    leases := s.leases.filter (!ended ·) }

/-- The keys that start like this, in order, with their values. -/
def range (s : Store) (front : String) : List (String × String) :=
  (s.records.entries.filter fun e => startsLike front e.1).map fun e => (e.1, e.2.value)

/-- Answers a request. -/
def serve (s : Store) : Request → Store × Response
  | .grant _ =>
    let id := s.granted + 1
    ({ s with granted := id, leases := id :: s.leases }, .lease id)
  | .revoke lease => (s.endLeases (· == lease), .done)
  | .range front => (s, .records (s.range front))
  | .put key value lease => (s.put key value (some lease), .done)
  | .claim key value lease =>
    if s.records.contains key then (s, .claimed false)
    else (s.put key value (some lease), .claimed true)
  | .keepAlive _ => (s, .done)

/-- The keys that a request writes or removes. -/
def touched (s : Store) : Request → List String
  | .revoke lease => s.keysOn (· == lease)
  | .put key _ _ => [key]
  | .claim key _ _ => if s.records.contains key then [] else [key]
  | _ => []

end Store

end FleetSharding.Etcd
