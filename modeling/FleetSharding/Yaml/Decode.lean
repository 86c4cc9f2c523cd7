import FleetSharding.Record
import FleetSharding.Yaml.CoreSchema
import FleetSharding.Yaml.Node

/-!
# YAML as a document format

A mapping stands for a record or a mapping, and so does a plain scalar without text, which also
stands for an empty list.  Numbers and booleans are told by their text, and only a plain scalar, or
a literal block that carries the tag of what is wanted, can be one; a text is any scalar as it was
written.  The name of a case is a text, or a tag on a value that says nothing more.
-/

namespace FleetSharding.Yaml

open Text (Bytes)

/-- A node of a document, with the anchors that its aliases may name. -/
structure Part where
  anchored : List Anchored
  node : Node

instance : Inhabited Part := ⟨⟨[], default⟩⟩

namespace Part

/-- The node itself, or the one that its alias names; an anchor is never on an alias. -/
def target (p : Part) : Node :=
  match p.node with
  | .alias anchor => (Document.anchored? p.anchored anchor).getD .empty
  | n => n

/-- Another node of the same document. -/
def child (p : Part) (n : Node) : Part := { p with node := n }

end Part

/-- The tag of a value of the core schema. -/
def coreTag (name : String) : Bytes :=
  Text.encode ("tag:yaml.org,2002:" ++ name)

/-- What a scalar with a tag of the core schema should have been, if its text is no such value. -/
def misfit? (tag : Option Bytes) (text : String) : Option String :=
  if tag = some (coreTag "bool") ∧ (bool? text).isNone then some "a boolean"
  else if tag = some (coreTag "int") ∧ (integer? text).isNone then some "an integer"
  else if tag = some (coreTag "float") ∧ (float? text).isNone then some "a float"
  else if tag = some (coreTag "null") ∧ !isNull text then some "null"
  else none

/-- Something else was wanted, unless the text goes wrong here. -/
def mismatch {α : Type} (what : String) : Node → Decoded α
  | .broken => .error .illFormed
  | .scalar _ tag text => .error (.expected ((misfit? tag text).getD what))
  | _ => .error (.expected what)

/-- The value that a scalar writes, if it was written as one that may be no text. -/
def readCore {α : Type} (what type : String) (read : String → Option α) (p : Part) : Decoded α :=
  match p.target with
  | .scalar style tag text =>
    let fits := style = .plain ∨ (style = .literal ∧ tag = some (coreTag type))
    match if fits then read text else none with
    | some a => .ok a
    | none => mismatch what p.target
  | n => mismatch what n

def readText (p : Part) : Decoded String :=
  match p.target with
  | .scalar _ _ text => .ok text
  | n => mismatch "a string" n

def readUnsigned (what : String) (bound : Nat) (p : Part) : Decoded Nat := do
  let n ← readCore what "int" unsigned? p
  if n < bound then return n else .error (.expected what)

/-- Whether nothing was written. -/
def isVoid : Node → Bool
  | .scalar .plain _ text => text.isEmpty
  | _ => false

def readItems (p : Part) : Decoded (List Part) :=
  match p.target with
  | .sequence _ items => .ok (items.map p.child)
  | n => if isVoid n then .ok [] else mismatch "a sequence" n

/-- A key; `what` is wanted. -/
def readKey (what : String) (p : Part) : Decoded String :=
  match p.target with
  | .scalar _ _ text => .ok text
  | n => mismatch what n

/-- The entries of a mapping; `what` is wanted, with `key` as its keys. -/
def readEntriesAs (what key : String) (p : Part) : Decoded (Entries Part) :=
  match p.target with
  | .mapping _ entries =>
    .ok <| entries.map fun e => (readKey key (p.child e.1), p.child e.2)
  | n => if isVoid n then .ok [] else mismatch what n

def isAbsent (p : Part) : Decoded Bool :=
  match p.target with
  | .scalar .plain none text => .ok (text.isEmpty || isNull text)
  | .scalar .plain (some tag) text =>
    if tag ≠ coreTag "null" then .ok false
    else if isNull text then .ok true
    else .error (.expected "null")
  | _ => .ok false

/-- The tag of a node. -/
def tagOf? : Node → Option Bytes
  | .scalar _ tag _ | .sequence tag _ | .mapping tag _ => tag
  | .alias _ | .broken => none

/-- The case that a tag names: what stands behind its exclamation mark. -/
def caseOfTag? (tag : Bytes) : Option String :=
  match tag with
  | 0x21 :: rest => Text.decode? (if rest.isEmpty then tag else rest)
  | _ => none

def oneOf (known : List String) (given : String) : Decoded String :=
  if given ∈ known then .ok given else .error (.unknownVariant given known)

/-- That a node says nothing more than its tag. -/
def saysNothing : Node → Decoded Unit
  | .scalar style _ text =>
    if style = .plain ∧ (text.isEmpty ∨ isNull text) then .ok () else .error (.expected "null")
  | _ => .error (.expected "unit")

def readVariant (known : List String) (p : Part) : Decoded String :=
  match (tagOf? p.target).bind caseOfTag?, p.target with
  | some name, n => do
    let name ← oneOf known name
    saysNothing n
    return name
  | none, .scalar _ _ text => oneOf known text
  | none, n => mismatch "a YAML tag starting with '!'" n

instance : Format Part where
  text := readText
  unsigned := readUnsigned
  signed := readCore "i64" "int" signed?
  float := readCore "f64" "float" float?
  boolean := readCore "a boolean" "bool" bool?
  items := readItems
  mapping := readEntriesAs "a map" "a string"
  record name p :=
    (readEntriesAs ("struct " ++ name) "field identifier" p).map .entries
  isAbsent := isAbsent
  variant := readVariant

/-- The document as a part of itself. -/
def Document.whole (d : Document) : Part :=
  ⟨d.anchored, d.root⟩

end FleetSharding.Yaml
