import FleetSharding.Number.Binary64

/-!
# The shortest decimal of a number

A finite binary number is written with the fewest decimal digits that read back as the same number,
and among those with the digits nearest to it.  On the grid of `k` digits only the two neighbours
of the exact value can qualify, because the numbers that read back form an interval around it.
-/

namespace FleetSharding

/-- A decimal `digits · 10 ^ exponent`. -/
structure Decimal where
  digits : Nat
  exponent : Int
  deriving DecidableEq, Repr

namespace Decimal

def toBinary64 (d : Decimal) : Binary64 :=
  Binary64.ofDecimal false d.digits d.exponent

/-- How many decimal digits a natural has. -/
def width (n : Nat) : Nat := (Nat.toDigits 10 n).length

/-- The exponent of the grid on which `num / den` has `k` digits before the point. -/
def gridExponent (num den k : Nat) : Int :=
  -- The estimate from the widths is exact or one too small.
  let e : Int := (width num : Int) - (width den : Int) - k
  let scaled : Nat :=
    if 0 ≤ e then num / (den * Nat.pow 10 e.toNat) else num * Nat.pow 10 (-e).toNat / den
  if Nat.pow 10 k ≤ scaled then e + 1 else e

/-- Whichever of the two neighbours of `num / den` on a grid reads back as `x`, the nearer first. -/
def onGrid? (x : Binary64) (num den : Nat) (e : Int) : Option Decimal :=
  let p : Nat := if 0 ≤ e then num else num * Nat.pow 10 (-e).toNat
  let q : Nat := if 0 ≤ e then den * Nat.pow 10 e.toNat else den
  let low := p / q
  let near := roundHalfEven p q
  let far := if near = low then low + 1 else low
  [near, far].findSome? fun m =>
    let d : Decimal := ⟨m, e⟩
    if d.toBinary64 = x then some d else none

end Decimal

namespace Binary64

/-- The shortest decimal of a finite number, its sign aside. -/
def shortest (x : Binary64) : Decimal :=
  let a : Binary64 := ofNatBits false x.absBits
  let (num, den) := a.ratio
  if num = 0 then ⟨0, 0⟩
  else
    match (List.range 17).findSome? fun k =>
      Decimal.onGrid? a num den (Decimal.gridExponent num den (k + 1)) with
    | some d => d
    | none => ⟨num, 0⟩

example : (ofDecimal false 1 (-1)).shortest = ⟨1, -1⟩ := by decide +kernel
example : (ofNat (2 ^ 64 - 1)).shortest = ⟨18446744073709552, 3⟩ := by decide +kernel
example : (ofDecimal false 5 (-324)).shortest = ⟨5, -324⟩ := by decide +kernel

end Binary64

end FleetSharding
