import FleetSharding.Number.Binary64
import FleetSharding.Text.Unsigned

/-!
# The values that YAML scalars write

Which texts are nulls, booleans, integers and floats.  Integers may be written in four bases;
digits with a zero in front are none.  Floats are decimal, with or without a point and an exponent;
one that is too large to be finite is none.
-/

namespace FleetSharding.Yaml

def isNull (s : String) : Bool :=
  ["null", "Null", "NULL", "~"].contains s

def bool? (s : String) : Option Bool :=
  if ["true", "True", "TRUE"].contains s then some true
  else if ["false", "False", "FALSE"].contains s then some false
  else none

/-- The value of a digit, in a base of at most sixteen. -/
def digit? (base : Nat) (c : Char) : Option Nat :=
  let value :=
    if c.isDigit then c.toNat - '0'.toNat
    else if c.toLower.isLower then c.toLower.toNat - 'a'.toNat + 10
    else base
  if value < base then some value else none

/-- The number that digits write, `none` if there is none or something else. -/
def natural? (base : Nat) (cs : List Char) : Option Nat :=
  if cs.isEmpty then none
  else cs.foldl (fun n? c => do return (← n?) * base + (← digit? base c)) (some 0)

/-- The base that two characters name. -/
def base? : Char → Char → Option Nat
  | '0', 'x' => some 16
  | '0', 'o' => some 8
  | '0', 'b' => some 2
  | _, _ => none

/-- A natural number without a sign. -/
def magnitude? (cs : List Char) : Option Nat :=
  match cs with
  | a :: b :: rest =>
    match base? a b with
    | some base => natural? base rest
    | none => if a = '0' ∧ cs.all Char.isDigit then none else natural? 10 cs
  | _ => natural? 10 cs

/-- An integer of any size; one sign may stand in front. -/
def integer? (s : String) : Option Int :=
  match s.toList with
  | '-' :: cs => (magnitude? cs).map fun n => -(n : Int)
  | '+' :: cs => (magnitude? cs).map Int.ofNat
  | cs => (magnitude? cs).map Int.ofNat

/-- A natural number below 2^64; a minus sign is refused even before a zero. -/
def unsigned? (s : String) : Option Nat :=
  if s.startsWith "-" then none
  else (integer? s).bind fun n => if n < Int.pow 2 64 then some n.toNat else none

/-- An integer of 64 bits. -/
def signed? (s : String) : Option Int :=
  (integer? s).filter fun n => -Int.pow 2 63 ≤ n ∧ n < Int.pow 2 63

/-- A sign, and the characters behind it. -/
def splitSign : List Char → Bool × List Char
  | '-' :: cs => (true, cs)
  | '+' :: cs => (false, cs)
  | cs => (false, cs)

/-- The exponent at the end of a decimal number. -/
def exponent? : List Char → Option Int
  | [] => some 0
  | e :: cs =>
    if e = 'e' ∨ e = 'E' then
      let (negative, digits) := splitSign cs
      (Text.digits? digits).map fun n => if negative then -(n : Int) else n
    else none

/-- The number that a decimal numeral writes, rounded; it needs a digit before or behind its
point. -/
def decimal? (cs : List Char) : Option Binary64 :=
  let (negative, cs) := splitSign cs
  let whole := cs.takeWhile Char.isDigit
  let (fraction, rest) :=
    match cs.dropWhile Char.isDigit with
    | '.' :: r => (r.takeWhile Char.isDigit, r.dropWhile Char.isDigit)
    | r => ([], r)
  if whole.isEmpty && fraction.isEmpty then none
  else
    (exponent? rest).map fun e =>
      .ofDecimal negative (Nat.ofDigitChars 10 (whole ++ fraction) 0) (e - fraction.length)

def float? (s : String) : Option Binary64 :=
  if [".inf", ".Inf", ".INF", "+.inf", "+.Inf", "+.INF"].contains s then some (.infinity false)
  else if ["-.inf", "-.Inf", "-.INF"].contains s then some (.infinity true)
  else if [".nan", ".NaN", ".NAN"].contains s then some .nan
  else (decimal? s.toList).filter (·.isFinite)

example : integer? "0x1F" = some 31 ∧ integer? "-0b11" = some (-3) ∧ integer? "03" = none := by
  decide +kernel
example : integer? "+-1" = none ∧ integer? "0" = some 0 ∧ integer? "-0" = some 0 := by
  decide +kernel
example : (float? "1.").isSome ∧ (float? ".").isSome = false ∧ (float? "007").isSome := by
  decide +kernel

end FleetSharding.Yaml
