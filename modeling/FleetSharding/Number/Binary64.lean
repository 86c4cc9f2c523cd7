/-!
# Binary floating point, 64 bits

A number is its word; every operation goes through exact natural-number arithmetic, so that it can
be reasoned about and never depends on the machine.

* `roundHalfEven` divides and rounds to nearest, a half to the even neighbour; `roundHalfEven_near`
  says that it is within half a unit.
* `ofRatio` is the number nearest to a quotient of naturals, infinity past the range.
* `ofDecimal` is the number nearest to `digits · 10 ^ exponent`.
* `magnitude` gives back the exact value of a finite number as a significand and a power of two.
-/

namespace FleetSharding

/-- The quotient rounded to the nearest natural, a half to the even neighbour. -/
def roundHalfEven (num den : Nat) : Nat :=
  let q := num / den
  let r := num % den
  if 2 * r < den then q
  else if den < 2 * r then q + 1
  else if q % 2 = 0 then q else q + 1

/-- Rounding moves the quotient by at most half a unit. -/
theorem roundHalfEven_near {num den : Nat} (h : 0 < den) :
    2 * (roundHalfEven num den * den) ≤ 2 * num + den ∧
      2 * num ≤ 2 * (roundHalfEven num den * den) + den := by
  have hdiv := Nat.div_add_mod num den
  have hlt := Nat.mod_lt num h
  have hmul : (num / den + 1) * den = den * (num / den) + den := by
    rw [Nat.add_mul, Nat.one_mul, Nat.mul_comm]
  have hmul' : num / den * den = den * (num / den) := Nat.mul_comm _ _
  unfold roundHalfEven
  simp only
  split
  · omega
  · split
    · omega
    · split <;> omega

/-- A 64-bit floating-point number, as its word. -/
structure Binary64 where
  bits : UInt64
  deriving DecidableEq, Repr

namespace Binary64

/-- The word of positive infinity. -/
def infinityBits : Nat := 0x7FF0000000000000

def ofNatBits (neg : Bool) (n : Nat) : Binary64 :=
  ⟨UInt64.ofNat (if neg then n + Nat.pow 2 63 else n)⟩

def infinity (neg : Bool) : Binary64 :=
  ofNatBits neg infinityBits

/-- The quiet not-a-number with a clear sign. -/
def nan : Binary64 :=
  ofNatBits false 0x7FF8000000000000

def zero (neg : Bool) : Binary64 :=
  ofNatBits neg 0

def isNegative (x : Binary64) : Bool :=
  Nat.pow 2 63 ≤ x.bits.toNat

/-- The word without its sign. -/
def absBits (x : Binary64) : Nat :=
  x.bits.toNat % Nat.pow 2 63

def isFinite (x : Binary64) : Bool :=
  x.absBits < infinityBits

def isZero (x : Binary64) : Bool :=
  x.absBits == 0

/-- Significand and power of two of a finite number, its sign aside. -/
def magnitude (x : Binary64) : Nat × Int :=
  let e : Nat := x.absBits / Nat.pow 2 52
  let f : Nat := x.absBits % Nat.pow 2 52
  if e = 0 then (f, -1074) else (f + Nat.pow 2 52, (e : Int) - 1075)

/-- The number `n · 2 ^ e` as a quotient. -/
def scaled (n : Nat) (e : Int) : Nat × Nat :=
  if 0 ≤ e then (n * Nat.pow 2 e.toNat, 1) else (n, Nat.pow 2 (-e).toNat)

/-- The value of a finite number as a quotient, its sign aside. -/
def ratio (x : Binary64) : Nat × Nat :=
  scaled x.magnitude.1 x.magnitude.2

/-- The greatest `k` with `2 ^ k ≤ num / den`, for positive `num` and `den`. -/
def floorLog2 (num den : Nat) : Int :=
  let k : Int := (num.log2 : Int) - (den.log2 : Int)
  let (p, q) := scaled den k
  if p ≤ num * q then k else k - 1

/-- The number nearest to `num / den`, with the given sign. -/
def ofRatio (neg : Bool) (num den : Nat) : Binary64 :=
  if num = 0 ∨ den = 0 then zero neg
  else
    let e := max (floorLog2 num den - 52) (-1074)
    let (p, q) := scaled den e
    let m := roundHalfEven (num * q) p
    let word := (e + 1074).toNat * Nat.pow 2 52 + m
    if infinityBits ≤ word then infinity neg else ofNatBits neg word

def ofNat (n : Nat) : Binary64 :=
  ofRatio false n 1

/-- The number nearest to `digits · 10 ^ exponent`.  Exponents far past either end of the range
are settled without computing the power. -/
def ofDecimal (neg : Bool) (digits : Nat) (exponent : Int) : Binary64 :=
  if digits = 0 then zero neg
  else
    let width : Int := (Nat.toDigits 10 digits).length
    if exponent + width > 320 then infinity neg
    else if exponent + width < -340 then zero neg
    else if 0 ≤ exponent then ofRatio neg (digits * Nat.pow 10 exponent.toNat) 1
    else ofRatio neg digits (Nat.pow 10 (-exponent).toNat)

/-- The sum of two finite numbers of positive sign. -/
def addPositive (x y : Binary64) : Binary64 :=
  let (a, b) := x.ratio
  let (c, d) := y.ratio
  ofRatio false (a * d + c * b) (b * d)

example : (ofDecimal false 1 (-1)).bits = 0x3FB999999999999A := by decide +kernel
example : (ofDecimal true 0 0).bits = 0x8000000000000000 := by decide +kernel
example : (ofDecimal false 17976931348623159 292) = infinity false := by decide +kernel
example : (ofDecimal false 5 (-324)).bits = 1 := by decide +kernel
example : (ofNat 9007199254740993).bits = 0x4340000000000000 := by decide +kernel

end Binary64

end FleetSharding
