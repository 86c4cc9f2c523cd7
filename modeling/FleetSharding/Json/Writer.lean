import FleetSharding.Json.Value
import FleetSharding.Number.Shortest

/-!
# Writing JSON

`Json.render` writes a value without any blanks.  In strings only the quote, the backslash and the
control characters are escaped, those with a letter of their own by that letter.
-/

namespace FleetSharding.Json

/-- A lower-case hexadecimal digit. -/
def hexDigit (n : Nat) : Char :=
  Nat.digitChar (n % 16)

/-- One character inside a string. -/
def escapeChar (c : Char) : List Char :=
  if c = '"' then ['\\', '"']
  else if c = '\\' then ['\\', '\\']
  else if c = '\x08' then ['\\', 'b']
  else if c = '\x0c' then ['\\', 'f']
  else if c = '\n' then ['\\', 'n']
  else if c = '\r' then ['\\', 'r']
  else if c = '\t' then ['\\', 't']
  else if c.toNat < 0x20 then ['\\', 'u', '0', '0', hexDigit (c.toNat / 16), hexDigit c.toNat]
  else [c]

/-- A string with its quotes. -/
def quote (s : String) : String :=
  String.ofList ('"' :: s.toList.flatMap escapeChar ++ ['"'])

/-- A finite number in digits and a power of ten. -/
def renderFloat (x : Binary64) : String :=
  let d := x.shortest
  (if x.isNegative then "-" else "") ++ toString d.digits ++ "e" ++ toString d.exponent

def punctuate (opening closing : String) (parts : List String) : String :=
  opening ++ ",".intercalate parts ++ closing

mutual

def render : Json → String
  | .null => "null"
  | .bool b => if b then "true" else "false"
  | .int n => toString n
  | .float x => renderFloat x
  | .str s => quote s
  | .arr items => punctuate "[" "]" (renderItems items)
  | .obj fields => punctuate "\x7b" "\x7d" (renderFields fields)

def renderItems : List Json → List String
  | [] => []
  | v :: vs => render v :: renderItems vs

def renderFields : List (String × Json) → List String
  | [] => []
  | e :: es => (quote e.1 ++ ":" ++ render e.2) :: renderFields es

end

end FleetSharding.Json
