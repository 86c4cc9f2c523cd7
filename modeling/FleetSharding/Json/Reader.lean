import FleetSharding.Json.Lexeme
import FleetSharding.Json.Value

/-!
# Reading JSON

`Json.parse` reads one value from a whole text.  Lists and objects nest to a fixed depth, which is
what the recursion is on; inside one list or object the text gets shorter.
-/

namespace FleetSharding.Json

open Text (Bytes)

/-- Lists and objects may nest below this depth. -/
def maxDepth : Nat := 127

/-- The value of a numeral; one past the range of floats is malformed.  Minus zero and the whole
numbers that fit in no 64-bit integer are floats. -/
def ofNumeral (n : Numeral) : Except Fault Json :=
  let x := Binary64.ofDecimal n.negative n.digits (n.exponent - n.places)
  if n.isWhole &&
      (if n.negative then 0 < n.digits && n.digits ≤ Nat.pow 2 63 else n.digits < Nat.pow 2 64) then
    .ok (.int (if n.negative then -(n.digits : Int) else n.digits))
  else if x.isFinite then .ok (.float x)
  else .error .malformed

/-- The items of a sequence up to its closing byte, at least one, with commas between them. -/
def sequence {α : Type} (close : UInt8) (item : (s : Bytes) → Scan α s) (s : Bytes) :
    Scan (List α) s := do
  let (a, ⟨r, hr⟩) ← item s
  let (b, ⟨q, hq⟩) ← next r
  if b = close then return ([a], ⟨q, by omega⟩)
  else if b = byte ',' then
    let (as, ⟨t, ht⟩) ← sequence close item q
    return (a :: as, ⟨t, by omega⟩)
  else .error .malformed
  termination_by s.length

/-- The items of a sequence behind its opening byte. -/
def items {α : Type} (close : UInt8) (item : (s : Bytes) → Scan α s) (s : Bytes) :
    Scan (List α) s := do
  let (b, r) ← next s
  if b = close then return ([], r) else sequence close item s

/-- A key, its colon and what stands behind it. -/
def entry {α : Type} (item : (s : Bytes) → Scan α s) (s : Bytes) : Scan (String × α) s := do
  let (b, ⟨r, hr⟩) ← next s
  if b ≠ byte '"' then .error .malformed
  else
    let (key, ⟨q, hq⟩) ← string r
    let (c, ⟨t, ht⟩) ← next q
    if c ≠ byte ':' then .error .malformed
    else
      let (a, ⟨u, hu⟩) ← item t
      return ((key, a), ⟨u, by omega⟩)

/-- A value that is neither list nor object and starts with the byte `b`. -/
def plain (b : UInt8) (r : Bytes) : Except Fault (Json × { q : Bytes // q.length ≤ r.length }) :=
  if b = byte 'n' then do return (.null, ← word [byte 'u', byte 'l', byte 'l'] r)
  else if b = byte 't' then do return (.bool true, ← word [byte 'r', byte 'u', byte 'e'] r)
  else if b = byte 'f' then do
    return (.bool false, ← word [byte 'a', byte 'l', byte 's', byte 'e'] r)
  else if b = byte '"' then do
    let (t, ⟨q, hq⟩) ← string r
    return (.str t, ⟨q, by omega⟩)
  else if b = byte '-' || isDigitByte b then do
    let (n, ⟨q, hq⟩) ← numeral (b :: r)
    return (← ofNumeral n, ⟨q, by simp only [List.length_cons] at hq; omega⟩)
  else .error .malformed

/-- A value, blanks before it allowed. -/
def value : Nat → (s : Bytes) → Scan Json s
  | depth, s => do
    let (b, ⟨r, hr⟩) ← next s
    match depth with
    | 0 =>
      let (v, ⟨q, hq⟩) ← plain b r
      return (v, ⟨q, by omega⟩)
    | depth + 1 =>
      if b = byte '[' then
        let (vs, ⟨q, hq⟩) ← items (byte ']') (value depth) r
        return (.arr vs, ⟨q, by omega⟩)
      else if b = byte '\x7b' then
        let (fields, ⟨q, hq⟩) ← items (byte '\x7d') (entry (value depth)) r
        return (.object fields, ⟨q, by omega⟩)
      else
        let (v, ⟨q, hq⟩) ← plain b r
        return (v, ⟨q, by omega⟩)

/-- The value that a whole text writes. -/
def parse (s : Bytes) : Except Fault Json :=
  match value maxDepth s with
  | .error e => .error e
  | .ok (v, r) => if (skipBlanks r.1).isEmpty then .ok v else .error .malformed

def parseText (s : String) : Except Fault Json :=
  parse (Text.encode s)

end FleetSharding.Json
