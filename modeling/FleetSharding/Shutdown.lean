/-!
# Shutdown

One value shared by every task of a node says whether it shall stop.  It counts as a request to
stop, too, when nobody is left who could make one.  A pause lasts its full time unless such a
request comes first.
-/

namespace FleetSharding

structure Shutdown where
  requested : Bool
  /-- Whether whoever may request it is gone. -/
  abandoned : Bool
  deriving DecidableEq, Repr

/-- Something done to the shared value. -/
inductive ShutdownAction where
  | send (requested : Bool)
  | abandon
  deriving DecidableEq, Repr

namespace Shutdown

def ofValue (requested : Bool) : Shutdown := ⟨requested, false⟩

/-- Whether tasks shall stop. -/
def isDue (s : Shutdown) : Bool := s.requested || s.abandoned

/-- Nothing is sent any more once the value is abandoned. -/
def apply (s : Shutdown) : ShutdownAction → Shutdown
  | .send v => if s.abandoned then s else { s with requested := v }
  | .abandon => { s with abandoned := true }

/-- What will be done to the value, and when. -/
abbrev Plan := List (Nat × ShutdownAction)

/-- When a pause ended, and whether it lasted its full time. -/
structure PauseEnd where
  full : Bool
  time : Nat
  deriving DecidableEq, Repr

/-- A pause from `now` until `due`, while the value changes as planned; also what became of the
value and of the plan.  Everything planned for one moment happens before anyone looks. -/
def pause (due : Nat) : Nat → Shutdown → Plan → PauseEnd × Shutdown × Plan
  | now, s, [] => (if s.isDue then ⟨false, now⟩ else ⟨true, due⟩, s, [])
  | now, s, (time, action) :: plan =>
    if time ≤ now then pause due now (s.apply action) plan
    else if s.isDue then (⟨false, now⟩, s, (time, action) :: plan)
    else if time < due then pause due time (s.apply action) plan
    else (⟨true, due⟩, s, (time, action) :: plan)

/-- Several pauses, one after the other. -/
def pauses (now : Nat) (s : Shutdown) (plan : Plan) : List Nat → List PauseEnd
  | [] => []
  | d :: ds =>
    let (e, s, plan) := pause (now + d) now s plan
    e :: pauses e.time s plan ds

end Shutdown

end FleetSharding
