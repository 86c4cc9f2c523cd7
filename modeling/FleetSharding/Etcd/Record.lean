import FleetSharding.Json.Reader
import FleetSharding.Json.Skip
import FleetSharding.Json.Writer
import FleetSharding.Member

/-!
# Member records

A member lives in the store under a key that ends in its id; the value is a JSON record of the rest.
Reading goes through the value once, in its order, and the first problem is the fault: the text ends
too early, it is no JSON, or it is JSON of the wrong shape.  What stands behind unknown keys is
passed over by its grammar alone.
-/

namespace FleetSharding.Etcd

open Text (Bytes)
open Json (Scan byte)

/-- What a member's key holds. -/
structure MemberRecord where
  address : String
  status : MemberStatus
  labels : SortedMap String
  deriving DecidableEq

/-- What is wrong with a value. -/
inductive RecordFault where
  | json (fault : Json.Fault)
  /-- It is JSON, but a wrong type, a field that is missing or one that comes twice. -/
  | shape
  deriving DecidableEq, Repr

namespace MemberRecord

/-- The record of a live node that takes part in sharding. -/
def passing (address : String) : MemberRecord :=
  ⟨address, .passing, Member.markerLabels⟩

def toMember (r : MemberRecord) (id : String) : Member :=
  ⟨id, r.address, r.status, r.labels⟩

/-- The fields in the order in which they are written. -/
def toJson (r : MemberRecord) : Json :=
  .obj [("address", .str r.address), ("status", .str r.status.toText), ("meta", .ofTexts r.labels)]

def write (r : MemberRecord) : String := r.toJson.render

/-- What a reader found, and the rest behind it. -/
abbrev Reading (α : Type) (s : Bytes) :=
  Except RecordFault (α × { r : Bytes // r.length < s.length })

def ofScan {α : Type} {s : Bytes} : Scan α s → Reading α s
  | .ok a => .ok a
  | .error e => .error (.json e)

def malformed {α : Type} : Except RecordFault α := .error (.json .malformed)

/-- The fault of a value that starts with the byte `b` and is of another type than wanted. -/
def mismatch {α : Type} (b : UInt8) (r : Bytes) : Except RecordFault α :=
  if b = byte '[' || b = byte '\x7b' then .error .shape
  else
    match Json.plain b r with
    | .ok _ => .error .shape
    | .error e => .error (.json e)

def readText (s : Bytes) : Reading String s := do
  let (b, ⟨r, hr⟩) ← ofScan (Json.next s)
  if b = byte '"' then
    let (t, ⟨q, hq⟩) ← ofScan (Json.string r)
    return (t, ⟨q, Json.length_lt_trans hq hr⟩)
  else mismatch b r

/-- The text behind a colon. -/
def colon (s : Bytes) : Reading Unit s := do
  let (b, r) ← ofScan (Json.next s)
  if b = byte ':' then return ((), r) else malformed

/-- The first byte of an entry: where the object begins, or behind a comma. -/
def entryStart (isFirst : Bool) (b : UInt8) (r : Bytes) :
    Except RecordFault (UInt8 × { q : Bytes // q.length ≤ r.length }) :=
  if isFirst then .ok (b, ⟨r, Json.length_le_self r⟩)
  else if b = byte ',' then do
    let (c, ⟨q, hq⟩) ← ofScan (Json.next r)
    return (c, ⟨q, Json.length_le_of_lt hq⟩)
  else malformed

/-- The entries of an object behind its brace, each handed to `step` with what was found so far. -/
def readEntries {σ : Type} (step : String → σ → (s : Bytes) → Reading σ s)
    (isFirst : Bool) (found : σ) (s : Bytes) : Reading σ s := do
  let (b, ⟨r, hr⟩) ← ofScan (Json.next s)
  if b = byte '\x7d' then return (found, ⟨r, hr⟩)
  else
    let (c, ⟨e, he⟩) ← entryStart isFirst b r
    if c ≠ byte '"' then malformed
    else
      let (key, ⟨q, hq⟩) ← ofScan (Json.string e)
      let (found, ⟨t, ht⟩) ← step key found q
      let (found, ⟨u, hu⟩) ← readEntries step false found t
      return (found, ⟨u, by omega⟩)
  termination_by s.length

/-- A map of texts; of equal keys the last wins. -/
def readLabels (s : Bytes) : Reading (SortedMap String) s := do
  let (b, ⟨r, hr⟩) ← ofScan (Json.next s)
  if b = byte '\x7b' then
    let (labels, ⟨q, hq⟩) ← readEntries
      (fun key labels s => do
        let (_, ⟨r, hr⟩) ← colon s
        let (text, ⟨q, hq⟩) ← readText r
        return (labels.insert key text, ⟨q, Json.length_lt_trans hq hr⟩))
      true .empty r
    return (labels, ⟨q, Json.length_lt_trans hq hr⟩)
  else mismatch b r

/-- The fields found so far. -/
structure Found where
  address : Option String := none
  status : Option String := none
  labels : Option (SortedMap String) := none

/-- The record, if nothing is missing that must be there. -/
def Found.complete (f : Found) : Except RecordFault MemberRecord :=
  match f.address, f.status with
  | some address, some status => .ok ⟨address, .ofText status, f.labels.getD .empty⟩
  | _, _ => .error .shape

/-- The value of one field behind its key.  A field that comes twice is refused at its key. -/
def readField (key : String) (f : Found) (s : Bytes) : Reading Found s :=
  if key = "address" then
    if f.address.isSome then .error .shape
    else do
      let (_, ⟨r, hr⟩) ← colon s
      let (t, ⟨q, hq⟩) ← readText r
      return ({ f with address := some t }, ⟨q, Json.length_lt_trans hq hr⟩)
  else if key = "status" then
    if f.status.isSome then .error .shape
    else do
      let (_, ⟨r, hr⟩) ← colon s
      let (t, ⟨q, hq⟩) ← readText r
      return ({ f with status := some t }, ⟨q, Json.length_lt_trans hq hr⟩)
  else if key = "meta" then
    if f.labels.isSome then .error .shape
    else do
      let (_, ⟨r, hr⟩) ← colon s
      let (m, ⟨q, hq⟩) ← readLabels r
      return ({ f with labels := some m }, ⟨q, Json.length_lt_trans hq hr⟩)
  else do
    let (_, ⟨r, hr⟩) ← colon s
    match Json.skipValue r with
    | .ok ⟨q, hq⟩ => return (f, ⟨q, Json.length_lt_of_le hq hr⟩)
    | .error e => .error (.json e)

/-- The text at the next item of a list, `none` at its end. -/
def nextItem (isFirst : Bool) (s : Bytes) :
    Except RecordFault (Option { r : Bytes // r.length ≤ s.length }) := do
  let (b, ⟨r, hr⟩) ← ofScan (Json.next s)
  if b = byte ']' then return none
  else if isFirst then return some ⟨s, Json.length_le_self s⟩
  else if b = byte ',' then
    let (c, _) ← ofScan (Json.next r)
    if c = byte ']' then malformed else return some ⟨r, Json.length_le_of_lt hr⟩
  else malformed

/-- A record written as a list of its fields. -/
def readList (s : Bytes) : Reading MemberRecord s := do
  match ← nextItem true s with
  | none => .error .shape
  | some ⟨r, hr⟩ =>
    let (address, ⟨r, hr'⟩) ← readText r
    match ← nextItem false r with
    | none => .error .shape
    | some ⟨q, hq⟩ =>
      let (status, ⟨q, hq'⟩) ← readText q
      let (labels, ⟨t, ht⟩) ←
        (match ← nextItem false q with
        | none => pure (SortedMap.empty, ⟨q, Json.length_le_self q⟩)
        | some ⟨t, ht⟩ => do
          let (m, ⟨u, hu⟩) ← readLabels t
          pure (m, ⟨u, by omega⟩) :
        Except RecordFault (SortedMap String × { t : Bytes // t.length ≤ q.length }))
      let (b, ⟨u, hu⟩) ← ofScan (Json.next t)
      if b = byte ']' then return (⟨address, .ofText status, labels⟩, ⟨u, by omega⟩) else malformed

/-- The record that a value writes. -/
def read (s : Bytes) : Except RecordFault MemberRecord := do
  let (b, ⟨r, _⟩) ← ofScan (Json.next s)
  let (record, ⟨q, _⟩) ←
    if b = byte '\x7b' then do
      let (f, q) ← readEntries readField true {} r
      pure (← f.complete, q)
    else if b = byte '[' then readList r
    else mismatch b r
  if (Json.skipBlanks q).isEmpty then return record else malformed

end MemberRecord

/-- Under this prefix lie the members of a cluster. -/
def membersPrefix (clusterId : String) : String :=
  "/telefleet/v1/clusters/" ++ clusterId ++ "/members/"

def memberKey (clusterId : String) (id : Nat) : String :=
  membersPrefix clusterId ++ toString id

/-- A text without a piece at its front; unchanged if it does not start with it. -/
def dropFront (front text : String) : String :=
  if front.toList.isPrefixOf text.toList then
    String.ofList (text.toList.drop front.toList.length)
  else text

/-- The member at a key. -/
def decodeMember (members : String) (key value : Bytes) : Except RecordFault Member := do
  return (← MemberRecord.read value).toMember (dropFront members (Text.decodeLossy key))

end FleetSharding.Etcd
