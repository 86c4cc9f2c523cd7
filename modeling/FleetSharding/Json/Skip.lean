import FleetSharding.Json.Lexeme

/-!
# Passing over JSON

A value that nobody wants is passed over by its grammar alone: to any depth, numbers of any size,
and strings of any bytes.
-/

namespace FleetSharding.Json

open Text (Bytes)

/-- An open bracket. -/
inductive Bracket where
  | list
  | object
  deriving DecidableEq

def Bracket.close : Bracket → UInt8
  | .list => byte ']'
  | .object => byte '\x7d'

/-- What is wanted next. -/
inductive Wanted where
  | item
  | key
  /-- A comma or the end of the innermost bracket. -/
  | more
  deriving DecidableEq

/-- What follows a comma inside a bracket. -/
def Bracket.wanted : Bracket → Wanted
  | .list => .item
  | .object => .key

/-- The text behind one lexeme that is a value by itself. -/
def skipPlain (b : UInt8) (r : Bytes) : Except Fault { q : Bytes // q.length ≤ r.length } :=
  if b = byte 'n' then word [byte 'u', byte 'l', byte 'l'] r
  else if b = byte 't' then word [byte 'r', byte 'u', byte 'e'] r
  else if b = byte 'f' then word [byte 'a', byte 'l', byte 's', byte 'e'] r
  else if b = byte '"' then do
    let (_, ⟨q, hq⟩) ← skipString r
    return ⟨q, length_le_of_lt hq⟩
  else if b = byte '-' || isDigitByte b then do
    let (_, ⟨q, hq⟩) ← skipNumeral (b :: r)
    return ⟨q, length_le_of_lt_cons hq⟩
  else .error .malformed

/-- A key, delimited, with its colon. -/
def skipKey (r : Bytes) : Except Fault { q : Bytes // q.length ≤ r.length } := do
  let (_, ⟨q, hq⟩) ← skipString r
  let (c, ⟨t, ht⟩) ← next q
  if c = byte ':' then return ⟨t, length_le_trans ht hq⟩ else .error .malformed

/-- The text behind all open brackets. -/
def skip (wanted : Wanted) (opened : List Bracket) (s : Bytes) :
    Except Fault { r : Bytes // r.length ≤ s.length } :=
  match wanted, opened with
  | .more, [] => .ok ⟨s, Nat.le_refl _⟩
  | wanted, opened => do
    let (b, ⟨r, hr⟩) ← next s
    let (wanted, opened, ⟨q, hq⟩) ← ahead wanted opened b r
    let ⟨t, ht⟩ ← skip wanted opened q
    return ⟨t, by omega⟩
  termination_by s.length
where
  /-- What is wanted, and where, behind a lexeme that starts with the byte `b`. -/
  ahead (wanted : Wanted) (opened : List Bracket) (b : UInt8) (r : Bytes) :
      Except Fault (Wanted × List Bracket × { q : Bytes // q.length ≤ r.length }) :=
    let here : { q : Bytes // q.length ≤ r.length } := ⟨r, length_le_self r⟩
    match wanted, opened with
    | .more, bracket :: outer =>
      if b = bracket.close then .ok (.more, outer, here)
      else if b = byte ',' then .ok (bracket.wanted, opened, here)
      else .error .malformed
    | .key, _ =>
      if b = byte '"' then do return (.item, opened, ← skipKey r) else .error .malformed
    | _, _ =>
      if b = byte '[' || b = byte '\x7b' then do
        let bracket : Bracket := if b = byte '[' then .list else .object
        let (c, ⟨q, hq⟩) ← next r
        if c = bracket.close then return (.more, opened, ⟨q, length_le_of_lt hq⟩)
        else return (bracket.wanted, bracket :: opened, here)
      else do return (.more, opened, ← skipPlain b r)

/-- The text behind one value of any kind. -/
def skipValue (s : Bytes) : Except Fault { r : Bytes // r.length ≤ s.length } :=
  skip .item [] s

end FleetSharding.Json
