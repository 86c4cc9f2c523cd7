import FleetSharding.Etcd.Store

/-!
# A server that may fail

The store behind a network, as a script sees it: calls are recorded, the next call of a method may
be made to fail or to stay without an answer, and a rival may write right before a claim is judged.
-/

namespace FleetSharding.Etcd

/-- What goes wrong with a call. -/
inductive Fault where
  /-- It is refused. -/
  | fail
  /-- It is never answered. -/
  | hang
  /-- Its stream is over. -/
  | ends
  /-- It cannot be sent. -/
  | unsent
  deriving DecidableEq, Repr

/-- The kinds of calls. -/
inductive Method where
  | grant
  | revoke
  | range
  | put
  | claim
  | keepAlive
  /-- A sign of life on a stream that keeps a lease alive. -/
  | ping
  | watch
  deriving DecidableEq, Repr

/-- A call that the server has received. -/
inductive Call where
  | connect (endpoints : List String)
  | request (r : Request)
  | claim (key value : String) (lease : Nat) (won : Bool)
  | ping (lease : Nat)
  | watch (front : String)
  | watchCancel
  | faulty (method : Method) (fault : Fault)
  deriving DecidableEq, Repr

/-- What comes of a request. -/
inductive Outcome where
  | answered (r : Response)
  | refused
  | silent
  deriving DecidableEq, Repr

def Request.method : Request → Method
  | .grant _ => .grant
  | .revoke _ => .revoke
  | .range _ => .range
  | .put .. => .put
  | .claim .. => .claim
  | .keepAlive _ => .keepAlive

structure Server where
  store : Store
  /-- What goes wrong with the next call of a method. -/
  faults : List (Method × Fault) := []
  /-- What a rival writes before the next claim is judged. -/
  rivals : List (String × String) := []
  /-- The calls received, the latest first. -/
  calls : List Call := []
  /-- The keys written or removed, the latest first. -/
  changes : List String := []

namespace Server

def receive (s : Server) (c : Call) : Server := { s with calls := c :: s.calls }

def setFault (s : Server) (m : Method) (f : Fault) : Server :=
  { s with faults := (m, f) :: s.faults.filter (·.1 != m) }

/-- The fault of this call of a method, which is then used up. -/
def takeFault (s : Server) (m : Method) : Option Fault × Server :=
  (s.faults.lookup m, { s with faults := s.faults.filter (·.1 != m) })

/-- A write that no node made. -/
def write (s : Server) (key value : String) : Server :=
  { s with store := s.store.put key value none, changes := key :: s.changes }

def delete (s : Server) (key : String) : Server :=
  if s.store.records.contains key then
    { s with store := s.store.delete key, changes := key :: s.changes }
  else s

/-- Every lease ends. -/
def expire (s : Server) : Server :=
  { s with
    store := s.store.endLeases fun _ => true
    changes := s.store.keysOn (fun _ => true) ++ s.changes }

/-- The rivals write. -/
def race (s : Server) : Server :=
  { s.rivals.foldl (fun s r => s.write r.1 r.2) s with rivals := [] }

/-- A request that nothing goes wrong with. -/
def serve (s : Server) (r : Request) : Server × Outcome :=
  let s := match r with
    | .claim .. => s.race
    | _ => s
  let (store, response) := s.store.serve r
  let call := match r, response with
    | .claim key value lease, .claimed won => .claim key value lease won
    | _, _ => .request r
  ({ s with store, changes := s.store.touched r ++ s.changes }.receive call, .answered response)

/-- A request, and what comes of it. -/
def request (s : Server) (r : Request) : Server × Outcome :=
  match s.takeFault r.method with
  | (some .fail, s) => (s.receive (.faulty r.method .fail), .refused)
  | (some .hang, s) => (s.receive (.faulty r.method .hang), .silent)
  | (some .ends, s) =>
    if r.method = .keepAlive then (s.receive (.request r), .refused) else s.serve r
  | (_, s) => s.serve r

end Server

end FleetSharding.Etcd
