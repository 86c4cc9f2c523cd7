import FleetSharding.Number.Binary64

/-!
# Durations

A duration is a whole number of nanoseconds whose seconds fit in 64 bits.  `ofSeconds` reads one
from a number of seconds: the nearest nanosecond, a half to the even neighbour.  A negative or
infinite number and one that is no number are refused; a number of seconds from 2^64 on has no
duration at all, and reading it does not end in an answer but stops the program.
-/

namespace FleetSharding

/-- Why a number of seconds gives no duration. -/
inductive DurationFault where
  /-- Negative, infinite or not a number. -/
  | notASpan
  /-- Too many seconds for 64 bits. -/
  | overflow
  deriving DecidableEq, Repr

structure Duration where
  nanos : Nat
  deriving DecidableEq, Repr

namespace Duration

def nanosPerSecond : Nat := 1000000000

def nanosPerMilli : Nat := 1000000

def zero : Duration := ⟨0⟩

def isZero (d : Duration) : Bool := d.nanos == 0

def ofSecs (n : Nat) : Duration := ⟨n * nanosPerSecond⟩

/-- The nearest duration to a number of seconds; minus zero is zero. -/
def ofSeconds (x : Binary64) : Except DurationFault Duration :=
  if !x.isFinite || (x.isNegative && !x.isZero) then .error .notASpan
  else
    let (num, den) := x.ratio
    let n := roundHalfEven (num * nanosPerSecond) den
    if Nat.pow 2 64 ≤ n / nanosPerSecond then .error .overflow else .ok ⟨n⟩

/-- A duration as a number of seconds: the whole seconds and the fraction are each rounded, then
their sum is. -/
def toSeconds (d : Duration) : Binary64 :=
  (Binary64.ofNat (d.nanos / nanosPerSecond)).addPositive
    (Binary64.ofRatio false (d.nanos % nanosPerSecond) nanosPerSecond)

/-- The first whole millisecond at or after a moment: clocks fire on whole milliseconds. -/
def ceilMilli (nanos : Nat) : Nat :=
  (nanos + nanosPerMilli - 1) / nanosPerMilli * nanosPerMilli

example : (ofSeconds (Binary64.ofDecimal false 5 (-1))).toOption = some ⟨500000000⟩ := by
  decide +kernel
example : (ofSeconds (Binary64.ofDecimal false 4 (-10))).toOption = some ⟨0⟩ := by decide +kernel
example : (ofSeconds (Binary64.ofDecimal false 2 19)).toOption = none := by decide +kernel
example : (ofSeconds (Binary64.zero true)).toOption = some ⟨0⟩ := by decide +kernel
example : (toSeconds ⟨500000000⟩).bits = 0x3FE0000000000000 := by decide +kernel

end Duration

end FleetSharding
