import FleetSharding.Number.Binary64
import FleetSharding.SortedMap

/-!
# JSON values

A number without fraction and exponent that fits in 64 bits is an integer, every other number is a
64-bit float; the two kinds are told apart by whoever decodes them.  The fields of an object that
was read are in key order, the last of equal keys wins.
-/

namespace FleetSharding

inductive Json where
  | null
  | bool (b : Bool)
  | int (n : Int)
  | float (x : Binary64)
  | str (s : String)
  | arr (items : List Json)
  | obj (fields : List (String × Json))
  deriving Inhabited

namespace Json

def nat (n : Nat) : Json := .int n

/-- Not a number and the infinities have no numeral; they are written as null. -/
def number (x : Binary64) : Json :=
  if x.isFinite then .float x else .null

def strs (ss : List String) : Json := .arr (ss.map .str)

/-- The value, or null. -/
def option {α : Type} (f : α → Json) : Option α → Json
  | none => .null
  | some a => f a

/-- The fields of an object given in any order. -/
def object (fields : List (String × Json)) : Json :=
  .obj (SortedMap.ofList fields).entries

/-- A map with text values. -/
def ofTexts (m : SortedMap String) : Json :=
  .obj (m.entries.map fun e => (e.1, .str e.2))

/-- The field of an object. -/
def field? (name : String) : Json → Option Json
  | .obj fields => findEntry name fields
  | _ => none

end Json

end FleetSharding
