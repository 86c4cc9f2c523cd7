import FleetSharding.Number.Binary64
import FleetSharding.Text.Utf8

/-!
# The lexemes of JSON

Scanners for what a JSON text is made of, over bytes: blanks, words, strings and numbers.  Each
returns what it read with the rest of the text, and the rest is shorter, so that whoever reads a
sequence of lexemes ends.

A text is faulty in one of two ways.  It is *incomplete* when it stops where more is needed, and
*malformed* when something stands where it may not.  Strings and numbers come in two strengths: what
is wanted is decoded and checked, and what is skipped is only delimited.
-/

namespace FleetSharding.Json

open Text (Bytes)

/-- Why a text is not JSON. -/
inductive Fault where
  /-- The text ends too early. -/
  | incomplete
  /-- Something stands where it may not. -/
  | malformed
  deriving DecidableEq, Repr

/-- What a scanner found, and the rest of the text behind it. -/
abbrev Scan (α : Type) (s : Bytes) :=
  Except Fault (α × { r : Bytes // r.length < s.length })

/-! How much is left after one read or two, for readers that answer the rest of a text. -/

/-- As much is left where nothing is read. -/
theorem length_le_self (r : Bytes) : r.length ≤ r.length :=
  Nat.le_refl _

/-- Less is left where something is read. -/
theorem length_le_of_lt {q r : Bytes} (h : q.length < r.length) : q.length ≤ r.length :=
  Nat.le_of_lt h

/-- Less is left where something is read behind a byte. -/
theorem length_le_of_lt_cons {b : UInt8} {q r : Bytes} (h : q.length < (b :: r).length) :
    q.length ≤ r.length :=
  Nat.le_of_lt_succ h

/-- Less is left after two parts. -/
theorem length_lt_trans {q r s : Bytes} (hq : q.length < r.length) (hr : r.length < s.length) :
    q.length < s.length :=
  Nat.lt_trans hq hr

/-- So it is after two parts of which the first may be nothing. -/
theorem length_lt_of_le {q r s : Bytes} (hq : q.length ≤ r.length) (hr : r.length < s.length) :
    q.length < s.length :=
  Nat.lt_of_le_of_lt hq hr

/-- After two parts there is not more left than before. -/
theorem length_le_trans {q r s : Bytes} (hq : q.length < r.length) (hr : r.length < s.length) :
    q.length ≤ s.length :=
  Nat.le_of_lt (Nat.lt_trans hq hr)

def byte (c : Char) : UInt8 := c.toNat.toUInt8

def isBlankByte (b : UInt8) : Bool :=
  b == 0x20 || b == 0x09 || b == 0x0A || b == 0x0D

def isDigitByte (b : UInt8) : Bool :=
  0x30 ≤ b && b ≤ 0x39

/-- The text behind its leading blanks. -/
def skipBlanks (s : Bytes) : Bytes :=
  s.dropWhile isBlankByte

/-- Skipping blanks does not go back. -/
theorem length_skipBlanks_le (s : Bytes) : (skipBlanks s).length ≤ s.length :=
  (List.dropWhile_suffix _).length_le

/-- The first byte behind the leading blanks. -/
def next (s : Bytes) : Scan UInt8 s :=
  match h : skipBlanks s with
  | [] => .error .incomplete
  | b :: r =>
    .ok (b, ⟨r, by
      have := length_skipBlanks_le s
      rw [h, List.length_cons] at this
      omega⟩)

/-- The rest of a fixed word of which the first byte was seen. -/
def word (tail : Bytes) (s : Bytes) : Except Fault { r : Bytes // r.length ≤ s.length } :=
  match tail, s with
  | [], s => .ok ⟨s, Nat.le_refl _⟩
  | _ :: _, [] => .error .incomplete
  | t :: ts, b :: r =>
    if b = t then
      match word ts r with
      | .ok ⟨q, h⟩ => .ok ⟨q, by simp only [List.length_cons]; omega⟩
      | .error e => .error e
    else .error .malformed

def hexDigit? (b : UInt8) : Option Nat :=
  if isDigitByte b then some (b.toNat - 0x30)
  else if 0x61 ≤ b && b ≤ 0x66 then some (b.toNat - 0x61 + 10)
  else if 0x41 ≤ b && b ≤ 0x46 then some (b.toNat - 0x41 + 10)
  else none

/-- Four hexadecimal digits.  A text with less than four bytes left is incomplete, whatever they
are. -/
def hexUnit : (s : Bytes) → Scan Nat s
  | a :: b :: c :: d :: r =>
    match hexDigit? a, hexDigit? b, hexDigit? c, hexDigit? d with
    | some a, some b, some c, some d =>
      .ok (((a * 16 + b) * 16 + c) * 16 + d, ⟨r, by simp only [List.length_cons]; omega⟩)
    | _, _, _, _ => .error .malformed
  | _ => .error .incomplete

/-- The character behind `\u`: one unit, or a high surrogate and the low one of a second escape. -/
def unicodeEscape (s : Bytes) : Scan Char s := do
  let (high, ⟨r, hr⟩) ← hexUnit s
  if high < 0xD800 || 0xDFFF < high then
    return (Char.ofNat high, ⟨r, hr⟩)
  else if 0xDC00 ≤ high then .error .malformed
  else
    match r, hr with
    | [], _ => .error .incomplete
    | b :: r, hr =>
      if b ≠ byte '\\' then .error .malformed
      else
        match r, hr with
        | [], _ => .error .incomplete
        | c :: r, hr =>
          if c ≠ byte 'u' then .error .malformed
          else
            let (low, ⟨q, hq⟩) ← hexUnit r
            if low < 0xDC00 || 0xDFFF < low then .error .malformed
            else
              return (Char.ofNat ((high - 0xD800) * 0x400 + (low - 0xDC00) + 0x10000),
                ⟨q, by simp only [List.length_cons] at hr; omega⟩)

/-- The character that a one-letter escape stands for. -/
def letterEscape? (b : UInt8) : Option Char :=
  if b = byte '"' then some '"'
  else if b = byte '\\' then some '\\'
  else if b = byte '/' then some '/'
  else if b = byte 'b' then some '\x08'
  else if b = byte 'f' then some '\x0c'
  else if b = byte 'n' then some '\n'
  else if b = byte 'r' then some '\r'
  else if b = byte 't' then some '\t'
  else none

/-- The character of an escape behind its backslash. -/
def escape : (s : Bytes) → Scan Char s
  | [] => .error .incomplete
  | b :: r =>
    match letterEscape? b with
    | some c => .ok (c, ⟨r, by simp⟩)
    | none =>
      if b = byte 'u' then do
        let (c, ⟨q, hq⟩) ← unicodeEscape r
        return (c, ⟨q, by simp only [List.length_cons]; omega⟩)
      else .error .malformed

/-- The bytes of a string behind its opening quote, escapes resolved. -/
def stringBytes (s : Bytes) (acc : List UInt8) : Scan Bytes s :=
  match s with
  | [] => .error .incomplete
  | b :: r =>
    if b = byte '"' then .ok (acc.reverse, ⟨r, by simp⟩)
    else if b = byte '\\' then
      match escape r with
      | .error e => .error e
      | .ok (c, ⟨q, hq⟩) =>
        match stringBytes q ((Text.encode c.toString).reverse ++ acc) with
        | .error e => .error e
        | .ok (bs, ⟨t, ht⟩) => .ok (bs, ⟨t, by simp only [List.length_cons]; omega⟩)
    else if b < 0x20 then .error .malformed
    else
      match stringBytes r (b :: acc) with
      | .error e => .error e
      | .ok (bs, ⟨t, ht⟩) => .ok (bs, ⟨t, by simp only [List.length_cons]; omega⟩)
  termination_by s.length

/-- A string behind its opening quote; its bytes must be valid UTF-8. -/
def string (s : Bytes) : Scan String s := do
  let (bs, r) ← stringBytes s []
  match Text.decode? bs with
  | some t => return (t, r)
  | none => .error .malformed

/-- An escape behind its backslash, only delimited: any unit is accepted. -/
def skipEscape : (s : Bytes) → Scan Unit s
  | [] => .error .incomplete
  | b :: r =>
    if (letterEscape? b).isSome then .ok ((), ⟨r, by simp⟩)
    else if b = byte 'u' then do
      let (_, ⟨q, hq⟩) ← hexUnit r
      return ((), ⟨q, by simp only [List.length_cons]; omega⟩)
    else .error .malformed

/-- A string behind its opening quote, only delimited: its bytes may be anything. -/
def skipString (s : Bytes) : Scan Unit s :=
  match s with
  | [] => .error .incomplete
  | b :: r =>
    if b = byte '"' then .ok ((), ⟨r, by simp⟩)
    else if b = byte '\\' then
      match skipEscape r with
      | .error e => .error e
      | .ok (_, ⟨q, hq⟩) =>
        match skipString q with
        | .error e => .error e
        | .ok (_, ⟨t, ht⟩) => .ok ((), ⟨t, by simp only [List.length_cons]; omega⟩)
    else if b < 0x20 then .error .malformed
    else
      match skipString r with
      | .error e => .error e
      | .ok (_, ⟨t, ht⟩) => .ok ((), ⟨t, by simp only [List.length_cons]; omega⟩)
  termination_by s.length

/-- A numeral as it is written. -/
structure Numeral where
  negative : Bool
  /-- The digits before the point and behind it, as one number. -/
  digits : Nat
  /-- How many of the digits stand behind the point. -/
  places : Nat
  exponent : Int
  /-- Neither point nor exponent is written. -/
  isWhole : Bool
  deriving DecidableEq, Repr

/-- The number that digits write. -/
def ofDigits (ds : Bytes) : Nat :=
  ds.foldl (fun n b => n * 10 + (b.toNat - 0x30)) 0

/-- The digits at the front of a text, at least one: their number and their count. -/
def digitRun (s : Bytes) : Scan (Nat × Nat) s :=
  match h : s.takeWhile isDigitByte with
  | [] => .error (if s.isEmpty then .incomplete else .malformed)
  | d :: ds =>
    .ok ((ofDigits (d :: ds), ds.length + 1), ⟨s.dropWhile isDigitByte, by
      have := congrArg List.length (List.takeWhile_append_dropWhile (p := isDigitByte) (l := s))
      rw [h] at this
      simp only [List.length_append, List.length_cons] at this
      omega⟩)

/-- The digits before the point: a zero stands alone. -/
def wholePart (s : Bytes) : Scan Nat s := do
  let ((n, count), r) ← digitRun s
  if s.head? = some (byte '0') && 1 < count then .error .malformed else return (n, r)

/-- The exponent behind its letter, a sign allowed. -/
def exponentPart : (s : Bytes) → Scan Int s
  | [] => .error .incomplete
  | b :: r =>
    if b = byte '+' || b = byte '-' then do
      let ((n, _), ⟨q, hq⟩) ← digitRun r
      return (if b = byte '-' then -(n : Int) else n, ⟨q, by simp only [List.length_cons]; omega⟩)
    else do
      let ((n, _), q) ← digitRun (b :: r)
      return (n, q)

/-- The rest of a numeral behind the digits before its point, if it goes on with a point. -/
def fractionPart (negative : Bool) (whole : Nat) (s : Bytes)
    (r : { r : Bytes // r.length < s.length }) : Scan Numeral s :=
  match r with
  | ⟨[], hr⟩ => .ok (⟨negative, whole, 0, 0, true⟩, ⟨[], hr⟩)
  | ⟨b :: r, hr⟩ =>
    if b = byte '.' then do
      let ((n, count), ⟨q, hq⟩) ← digitRun r
      return (⟨negative, whole * Nat.pow 10 count + n, count, 0, false⟩,
        ⟨q, by simp only [List.length_cons] at hr; omega⟩)
    else .ok (⟨negative, whole, 0, 0, true⟩, ⟨b :: r, hr⟩)

/-- A numeral behind its sign. -/
def unsignedNumeral (negative : Bool) (s : Bytes) : Scan Numeral s := do
  let (whole, r) ← wholePart s
  match ← fractionPart negative whole s r with
  | (n, ⟨[], hr⟩) => return (n, ⟨[], hr⟩)
  | (n, ⟨b :: r, hr⟩) =>
    if b = byte 'e' || b = byte 'E' then do
      let (e, ⟨q, hq⟩) ← exponentPart r
      return ({ n with exponent := e, isWhole := false },
        ⟨q, by simp only [List.length_cons] at hr; omega⟩)
    else return (n, ⟨b :: r, hr⟩)

/-- A numeral, its sign included. -/
def numeral : (s : Bytes) → Scan Numeral s
  | [] => .error .incomplete
  | b :: r =>
    if b = byte '-' then do
      let (n, ⟨q, hq⟩) ← unsignedNumeral true r
      return (n, ⟨q, by simp only [List.length_cons]; omega⟩)
    else unsignedNumeral false (b :: r)

/-- A numeral, only delimited.  One that breaks off is malformed like any other that is none. -/
def skipNumeral (s : Bytes) : Scan Unit s :=
  match numeral s with
  | .ok (_, r) => .ok ((), r)
  | .error _ => .error .malformed

end FleetSharding.Json
