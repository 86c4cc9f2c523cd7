import FleetSharding.Json.Value
import FleetSharding.Record

/-!
# JSON as a document format

An object stands for a record or a mapping, and a list may stand for a record with its fields in
order.  Numbers are told apart by how they are written: `1.0` is no integer, but an integer does for
a float.  The name of a case is a text, or the only key of an object whose value is null.
-/

namespace FleetSharding.Json

/-- The entries of an object. -/
def entriesOf (fields : List (String × Json)) : Entries Json :=
  fields.map fun e => (.ok e.1, e.2)

def readText : Json → Decoded String
  | .str s => .ok s
  | _ => .error (.expected "a string")

def readUnsigned (what : String) (bound : Nat) : Json → Decoded Nat
  | .int n =>
    if 0 ≤ n ∧ n < bound then .ok n.toNat else .error (.expected what)
  | _ => .error (.expected what)

def readSigned : Json → Decoded Int
  | .int n => if -Int.pow 2 63 ≤ n ∧ n < Int.pow 2 63 then .ok n else .error (.expected "i64")
  | _ => .error (.expected "i64")

def readFloat : Json → Decoded Binary64
  | .int n => .ok (.ofRatio (n < 0) n.natAbs 1)
  | .float x => .ok x
  | _ => .error (.expected "f64")

def readBool : Json → Decoded Bool
  | .bool b => .ok b
  | _ => .error (.expected "a boolean")

def readItems : Json → Decoded (List Json)
  | .arr vs => .ok vs
  | _ => .error (.expected "a sequence")

def readMapping : Json → Decoded (Entries Json)
  | .obj fields => .ok (entriesOf fields)
  | _ => .error (.expected "a map")

def readSource (name : String) : Json → Decoded (RecordSource Json)
  | .obj fields => .ok (.entries (entriesOf fields))
  | .arr vs => .ok (.positional vs)
  | _ => .error (.expected ("struct " ++ name))

def oneOf (known : List String) (given : String) : Decoded String :=
  if given ∈ known then .ok given else .error (.unknownVariant given known)

def readVariant (known : List String) : Json → Decoded String
  | .str s => oneOf known s
  | .obj [(key, content)] => do
    let name ← oneOf known key
    match content with
    | .null => return name
    | _ => .error (.expected "unit")
  | .obj _ => .error (.expected "map with a single key")
  | _ => .error (.expected "string or map")

instance : Format Json where
  text := readText
  unsigned := readUnsigned
  signed := readSigned
  float := readFloat
  boolean := readBool
  items := readItems
  mapping := readMapping
  record := readSource
  isAbsent v := match v with
    | .null => .ok true
    | _ => .ok false
  variant := readVariant

end FleetSharding.Json
