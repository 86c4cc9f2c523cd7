import FleetSharding.Text.Blank

/-!
# Points in time as text

A moment is a date and a time of day in UTC.  It is written in the form of RFC 3339 with the
letter `Z` and 0, 3, 6 or 9 digits of the second, the fewest that lose nothing.  Reading is
more forgiving: blanks around the parts, a year with a sign, a blank or a small letter between date
and time, and an offset with or without its colon.

A leap second is the second 60; it is kept as a fraction from one second on.
-/

namespace FleetSharding

/-- A day of the proleptic Gregorian calendar. -/
structure Date where
  year : Int
  month : Nat
  day : Nat
  deriving DecidableEq, Repr

namespace Date

def isLeapYear (y : Int) : Bool :=
  y % 4 == 0 && (y % 100 != 0 || y % 400 == 0)

def daysInMonth (y : Int) (m : Nat) : Nat :=
  if m = 2 then if isLeapYear y then 29 else 28
  else if m = 4 ∨ m = 6 ∨ m = 9 ∨ m = 11 then 30
  else 31

/-- The years that dates reach. -/
def inRange (y : Int) : Bool :=
  -262143 ≤ y && y ≤ 262142

def isValid (d : Date) : Bool :=
  inRange d.year && 1 ≤ d.month && d.month ≤ 12 && 1 ≤ d.day && d.day ≤ daysInMonth d.year d.month

def next (d : Date) : Date :=
  if d.day < daysInMonth d.year d.month then { d with day := d.day + 1 }
  else if d.month < 12 then ⟨d.year, d.month + 1, 1⟩
  else ⟨d.year + 1, 1, 1⟩

def prev (d : Date) : Date :=
  if 1 < d.day then { d with day := d.day - 1 }
  else if 1 < d.month then ⟨d.year, d.month - 1, daysInMonth d.year (d.month - 1)⟩
  else ⟨d.year - 1, 12, 31⟩

end Date

/-- A moment in UTC. -/
structure Timestamp where
  date : Date
  secondOfDay : Nat
  /-- From 10^9 on in a leap second. -/
  nanos : Nat
  deriving DecidableEq, Repr

namespace Timestamp

/-- Why a text is no moment. -/
inductive Fault where
  | tooShort
  | tooLong
  | malformed
  | outOfRange
  /-- The offset moves the moment out of the calendar. -/
  | impossible
  deriving DecidableEq, Repr

def Fault.message : Fault → String
  | .tooShort => "premature end of input"
  | .tooLong => "trailing input"
  | .malformed => "input contains invalid characters"
  | .outOfRange => "input is out of range"
  | .impossible => "no possible date and time matching input"

/-- A step of reading: it takes what it reads off the front of the text. -/
abbrev Step := StateT (List Char) (Except Fault)

def skipBlanks : Step Unit :=
  modify (·.dropWhile Text.isBlank)

/-- The digits at the front, at most `width` of them if a width is given. -/
def number (width : Option Nat) : Step Nat := do
  let s ← get
  let window : List Char := match width with
    | some w => s.take w
    | none => s
  let ds := window.takeWhile Char.isDigit
  if s.isEmpty then throw .tooShort
  if ds.isEmpty then throw .malformed
  let n := Nat.ofDigitChars 10 ds 0
  if Nat.pow 2 63 ≤ n then throw .outOfRange
  set (s.drop ds.length)
  return n

/-- A number of two digits at most within bounds, blanks before it allowed. -/
def field (low high : Nat) : Step Nat := do
  skipBlanks
  let n ← number (some 2)
  if n < low || high < n then throw .outOfRange
  return n

/-- The character at the front, which must be one of those wanted. -/
def oneOf (wanted : List Char) : Step Char := do
  match ← get with
  | [] => throw .tooShort
  | c :: s =>
    if c ∈ wanted then
      set s
      return c
    else throw .malformed

/-- A mark with blanks before it. -/
def mark (c : Char) : Step Unit := do
  skipBlanks
  discard (oneOf [c])

/-- Four digits at most, or any number of them behind a sign. -/
def year : Step Int := do
  skipBlanks
  let s ← get
  let y : Int ←
    if s.head? = some '-' then do
      set s.tail
      pure (-(← number none : Int))
    else if s.head? = some '+' then do
      set s.tail
      pure (← number none : Int)
    else pure (← number (some 4) : Int)
  if y < -Int.pow 2 31 || Int.pow 2 31 ≤ y then throw .outOfRange
  return y

/-- The fraction of a second in nanoseconds, digits past the ninth dropped. -/
def fraction : Step Nat := do
  match ← get with
  | '.' :: s =>
    set s
    let n ← number (some 9)
    let r ← get
    set (r.dropWhile Char.isDigit)
    return n * Nat.pow 10 (9 - (s.length - r.length))
  | _ => return 0

/-- Two digits.  A lone character of ASCII is too short for them. -/
def pair : Step Nat := do
  match ← get with
  | a :: b :: s =>
    if a.isDigit && b.isDigit then
      set s
      return Nat.ofDigitChars 10 [a, b] 0
    else throw .malformed
  | [c] => throw (if c.toNat < 0x80 then .tooShort else .malformed)
  | [] => throw .tooShort

/-- The seconds by which local time is ahead. -/
def offset : Step Int := do
  let sign ← oneOf ['Z', 'z', '+', '-', '\u2212']
  if sign = 'Z' || sign = 'z' then return 0
  let hours ← pair
  modify (·.dropWhile fun c => c == ':' || Text.isBlank c)
  let minutes ← pair
  if 60 ≤ minutes then throw .outOfRange
  let seconds : Int := hours * 3600 + minutes * 60
  return if sign = '+' then seconds else -seconds

/-- The name of the zone, or an offset. -/
def zone : Step Int := do
  let s ← get
  if (s.take 3).map Char.toUpper = ['U', 'T', 'C'] then
    set (s.drop 3)
    return 0
  offset

/-- A date and a time of day as written, the second and its fraction apart, and the offset. -/
def written : Step (Date × Nat × Nat × Nat × Int) := do
  let y ← year
  mark '-'
  let m ← field 1 12
  mark '-'
  let d ← field 1 31
  discard (oneOf ['T', 't', ' '])
  let hour ← field 0 23
  mark ':'
  let minute ← field 0 59
  mark ':'
  let second ← field 0 60
  let nanos ← fraction
  skipBlanks
  let east ← zone
  skipBlanks
  if !(← get).isEmpty then throw .tooLong
  return (⟨y, m, d⟩, hour * 60 + minute, second, nanos, east)

/-- The moment that a text writes. -/
def parse (text : String) : Except Fault Timestamp := do
  let ((date, minutes, second, nanos, east), _) ← written.run text.toList
  if !date.isValid || 86400 ≤ east.natAbs then throw .outOfRange
  let leap := if second = 60 then 1 else 0
  let utc : Int := ((minutes * 60 + (second - leap) : Nat) : Int) - east
  let moved := if utc < 0 then date.prev else if utc < 86400 then date else date.next
  if !Date.inRange moved.year then throw .impossible
  return ⟨moved, (utc % 86400).toNat, leap * 1000000000 + nanos⟩

/-- A number in at least `width` digits. -/
def padded (width n : Nat) : String :=
  let ds := Nat.toDigits 10 n
  String.ofList (List.replicate (width - ds.length) '0' ++ ds)

/-- A year past four digits carries its sign. -/
def yearText (y : Int) : String :=
  if 0 ≤ y ∧ y ≤ 9999 then padded 4 y.toNat
  else (if y < 0 then "-" else "+") ++ padded 4 y.natAbs

def fractionText (nanos : Nat) : String :=
  if nanos = 0 then ""
  else if nanos % 1000000 = 0 then "." ++ padded 3 (nanos / 1000000)
  else if nanos % 1000 = 0 then "." ++ padded 6 (nanos / 1000)
  else "." ++ padded 9 nanos

def toText (t : Timestamp) : String :=
  let leap := t.nanos / 1000000000
  yearText t.date.year ++ "-" ++ padded 2 t.date.month ++ "-" ++ padded 2 t.date.day ++ "T" ++
    padded 2 (t.secondOfDay / 3600) ++ ":" ++ padded 2 (t.secondOfDay / 60 % 60) ++ ":" ++
    padded 2 (t.secondOfDay % 60 + leap) ++ fractionText (t.nanos % 1000000000) ++ "Z"

example : (parse "2024-01-02T05:04:05.5+02:00").toOption.map toText =
    some "2024-01-02T03:04:05.500Z" := by decide +kernel
example : (parse "2024-12-31 23:59:60-00:30").toOption.map toText =
    some "2025-01-01T00:29:60Z" := by decide +kernel

end Timestamp

end FleetSharding
