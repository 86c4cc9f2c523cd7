import FleetSharding.Duration
import FleetSharding.SortedMap
import FleetSharding.Text.Unsigned
import FleetSharding.Timestamp

/-!
# Records read from documents

A record is read from a document of either format, JSON or YAML, by the same description of its
fields.  A format says how one value of it is read as a text, a number, a list or a mapping; a
`Field` says what a field is called and where its value goes; `readRecord` puts both together:

* the entries of a mapping are taken in the order in which the format gives them, and the first
  problem is the error;
* unknown names are passed over, and a name that comes twice is refused;
* fields that are missing are looked for last, in the order of the description.
-/

namespace FleetSharding

/-- Why a document does not hold what was wanted. -/
inductive DecodeError where
  /-- The text of the document goes wrong where the next value should stand. -/
  | illFormed
  /-- Something else stands where this was wanted. -/
  | expected (what : String)
  | missingField (name : String)
  | duplicateField (name : String)
  | unknownVariant (given : String) (known : List String)
  /-- A duration that is negative, infinite or no number. -/
  | notASpan
  /-- A duration too long to be one; reading it stops the program. -/
  | spanOverflow
  | timestamp (fault : Timestamp.Fault)
  deriving DecidableEq, Repr

namespace DecodeError

/-- A name between backquotes. -/
def named (name : String) : String :=
  "\x60" ++ name ++ "\x60"

/-- The names that were possible, in a sentence. -/
def choices : List String → String
  | [a, b] => named a ++ " or " ++ named b
  | [a] => named a
  | names => "one of " ++ ", ".intercalate (names.map named)

def message : DecodeError → String
  | .illFormed => "ill-formed document"
  | .expected what => "invalid, expected " ++ what
  | .missingField name => "missing field " ++ named name
  | .duplicateField name => "duplicate field " ++ named name
  | .unknownVariant given known =>
    "unknown variant " ++ named given ++ ", expected " ++ choices known
  | .notASpan => "duration must be a non-negative number of seconds"
  | .spanOverflow => "duration too long"
  | .timestamp fault => fault.message

end DecodeError

abbrev Decoded (α : Type) := Except DecodeError α

/-- Entries in order.  A key that is no text spoils only the reading from there on. -/
abbrev Entries (V : Type) := List (Decoded String × V)

/-- A mapping or list that stands for a record. -/
inductive RecordSource (V : Type) where
  /-- Named values, in order. -/
  | entries (es : Entries V)
  /-- Values in the order of the fields. -/
  | positional (vs : List V)

/-- How a format's values are read.  Each reader gets the words for what is wanted. -/
class Format (V : Type) where
  text : V → Decoded String
  /-- A natural number below a bound. -/
  unsigned (what : String) (bound : Nat) : V → Decoded Nat
  /-- An integer of 64 bits. -/
  signed : V → Decoded Int
  float : V → Decoded Binary64
  boolean : V → Decoded Bool
  items : V → Decoded (List V)
  /-- A mapping from texts. -/
  mapping : V → Decoded (Entries V)
  /-- What stands for a record of the given name. -/
  record (name : String) : V → Decoded (RecordSource V)
  /-- Whether the value says that there is none. -/
  isAbsent : V → Decoded Bool
  /-- The name of one of several cases that carry no data. -/
  variant (known : List String) : V → Decoded String

/-- A field of a record `S`: its name, a second name it may have, whether it must be there, and how
its value is read into a record. -/
structure Field (V S : Type) where
  name : String
  alias? : Option String
  required : Bool
  read : V → S → Decoded S

variable {V S α : Type}

namespace Field

/-- A field that may be missing. -/
def optional (name : String) (read : V → Decoded α) (put : S → α → S) : Field V S :=
  ⟨name, none, false, fun v s => (read v).map (put s)⟩

/-- A field that must be there. -/
def mandatory (name : String) (read : V → Decoded α) (put : S → α → S) : Field V S :=
  ⟨name, none, true, fun v s => (read v).map (put s)⟩

def answersTo (f : Field V S) (key : String) : Bool :=
  f.name == key || f.alias? == some key

end Field

/-- Takes the entries in order.  `seen` are the names of the fields read so far. -/
def readEntries (fields : List (Field V S)) :
    Entries V → List String → S → Decoded (List String × S)
  | [], seen, s => .ok (seen, s)
  | (.error e, _) :: _, _, _ => .error e
  | (.ok key, v) :: es, seen, s =>
    match fields.find? (·.answersTo key) with
    | none => readEntries fields es seen s
    | some f =>
      if f.name ∈ seen then .error (.duplicateField f.name)
      else
        match f.read v s with
        | .error e => .error e
        | .ok s => readEntries fields es (f.name :: seen) s

/-- Takes values in the order of the fields; only optional fields may be left over. -/
def readPositional (tooShort : DecodeError) :
    List (Field V S) → List V → S → Decoded S
  | [], [], s => .ok s
  | [], _ :: _, _ => .error (.expected "fewer elements in array")
  | f :: fs, [], s => if f.required then .error tooShort else readPositional tooShort fs [] s
  | f :: fs, v :: vs, s =>
    match f.read v s with
    | .error e => .error e
    | .ok s => readPositional tooShort fs vs s

/-- A record of the given fields, those that are missing as in `start`. -/
def readRecord [Format V] (name : String) (fields : List (Field V S)) (start : S) (v : V) :
    Decoded S := do
  match ← Format.record name v with
  | .entries es =>
    let (seen, s) ← readEntries fields es [] start
    match fields.find? fun f => f.required && !seen.contains f.name with
    | some f => .error (.missingField f.name)
    | none => return s
  | .positional vs =>
    readPositional
      (.expected ("struct " ++ name ++ " with " ++ toString fields.length ++ " elements"))
      fields vs start

/-- A value that may be absent. -/
def readOption [Format V] (read : V → Decoded α) (v : V) : Decoded (Option α) := do
  if ← Format.isAbsent v then return none
  return some (← read v)

/-- A list, its items read in order. -/
def readList [Format V] (read : V → Decoded α) (v : V) : Decoded (List α) := do
  (← Format.items v).mapM read

/-- A map from texts to texts; of equal keys the last wins. -/
def readTexts [Format V] (v : V) : Decoded (SortedMap String) := do
  let es ← (← Format.mapping v).mapM fun e => do return (← e.1, ← Format.text e.2)
  return .ofList es

/-- A number of 64 bits. -/
def readWord [Format V] (v : V) : Decoded Nat :=
  Format.unsigned "usize" Text.wordBound v

/-- A duration, written as a number of seconds. -/
def readDuration [Format V] (v : V) : Decoded Duration := do
  match Duration.ofSeconds (← Format.float v) with
  | .ok d => return d
  | .error .notASpan => .error .notASpan
  | .error .overflow => .error .spanOverflow

end FleetSharding
