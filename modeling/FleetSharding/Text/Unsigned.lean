/-!
# Unsigned numbers as text

A number below a bound is written in decimal digits, an optional plus sign before them; zeros in
front are allowed and nothing else is.  `unsigned?_toDigits` says that what is printed is read back.
-/

namespace FleetSharding.Text

/-- The number that decimal digits write, `none` if there is no digit or another character. -/
def digits? (cs : List Char) : Option Nat :=
  if cs ≠ [] ∧ cs.all Char.isDigit then some (Nat.ofDigitChars 10 cs 0) else none

/-- A text without one leading plus sign. -/
def dropPlus : List Char → List Char
  | '+' :: cs => cs
  | cs => cs

/-- The number below `bound` that the characters write. -/
def unsigned? (bound : Nat) (cs : List Char) : Option Nat :=
  (digits? (dropPlus cs)).filter (· < bound)

/-- The bound of the numbers a node counts with: 64 bits. -/
def wordBound : Nat := 0x10000000000000000

/-- The 64-bit number that a text writes. -/
def word? (s : String) : Option Nat :=
  unsigned? wordBound s.toList

/-- The digits of a number write that number. -/
theorem digits?_toDigits (n : Nat) : digits? (Nat.toDigits 10 n) = some n := by
  have hall : (Nat.toDigits 10 n).all Char.isDigit = true := by
    simpa using fun c hc => Nat.isDigit_of_mem_toDigits (by decide) (by decide) hc
  simp [digits?, hall, Nat.ofDigitChars_toDigits]

/-- A canonical numeral carries no sign. -/
theorem dropPlus_toDigits (n : Nat) : dropPlus (Nat.toDigits 10 n) = Nat.toDigits 10 n := by
  unfold dropPlus
  split
  · next cs h =>
    have : ('+' : Char).isDigit = true :=
      Nat.isDigit_of_mem_toDigits (b := 10) (n := n) (by decide) (by decide) (by simp [h])
    exact absurd this (by decide)
  · rfl

/-- What is printed is read back, below the bound. -/
theorem unsigned?_toDigits {bound n : Nat} (h : n < bound) :
    unsigned? bound (Nat.toDigits 10 n) = some n := by
  simp [unsigned?, dropPlus_toDigits, digits?_toDigits, h]

/-- A 64-bit number is read back from its text. -/
theorem word?_toString {n : Nat} (h : n < wordBound) : word? (toString n) = some n := by
  simp [word?, unsigned?_toDigits h]

example : word? "+007" = some 7 ∧ word? "-0" = none ∧ word? "+" = none ∧ word? "" = none := by cbv

end FleetSharding.Text
