import FleetSharding.Json.Decode

/-!
# Members of the cluster

A member is one process as discovery reports it.  Its id is the slot that it holds, written in
digits; a member whose id is no number holds none.  Only members that carry the sharding marker
take part.
-/

namespace FleetSharding

/-- Health as discovery reports it.  A status that is not known is kept as it was and is never
healthy. -/
inductive MemberStatus where
  | passing
  | warning
  | critical
  | other (text : String)
  deriving DecidableEq, Repr, Inhabited

namespace MemberStatus

def toText : MemberStatus → String
  | .passing => "passing"
  | .warning => "warning"
  | .critical => "critical"
  | .other s => s

def ofText (s : String) : MemberStatus :=
  if s = "passing" then .passing
  else if s = "warning" then .warning
  else if s = "critical" then .critical
  else .other s

def isPassing : MemberStatus → Bool
  | .passing => true
  | _ => false

/-- The text of a status is kept as it was given. -/
theorem toText_ofText (s : String) : (ofText s).toText = s := by
  unfold ofText
  split
  · next h => simp [toText, h]
  · split
    · next h => simp [toText, h]
    · split
      · next h => simp [toText, h]
      · rfl

end MemberStatus

structure Member where
  /-- The slot, in digits. -/
  id : String
  /-- By which a node finds itself among the members. -/
  address : String
  status : MemberStatus
  labels : SortedMap String := .empty
  deriving DecidableEq, Inhabited

namespace Member

/-- The label of members that take part in sharding. -/
def marker : String := "shards_enabled"

def markerLabels : SortedMap String :=
  SortedMap.empty.insert marker "true"

/-- A passing member that takes part in sharding. -/
def sharded (slot : Nat) (address : String) : Member :=
  ⟨toString slot, address, .passing, markerLabels⟩

/-- The slot of a member, if its id is the number of one. -/
def slot (m : Member) : Option Nat := Text.word? m.id

def isPassing (m : Member) : Bool := m.status.isPassing

def isShardEnabled (m : Member) : Bool := m.labels.contains marker

/-- Passing and part of the sharding pool. -/
def isHealthyShard (m : Member) : Bool := m.isPassing && m.isShardEnabled

def toJson (m : Member) : Json :=
  .object [("id", .str m.id), ("address", .str m.address), ("status", .str m.status.toText),
    ("meta", .ofTexts m.labels)]

variable {V : Type} [Format V]

def fields : List (Field V Member) :=
  [ .mandatory "id" Format.text fun m x => { m with id := x },
    .mandatory "address" Format.text fun m x => { m with address := x },
    .mandatory "status" Format.text fun m x => { m with status := .ofText x },
    .optional "meta" readTexts fun m x => { m with labels := x } ]

def read (v : V) : Decoded Member :=
  readRecord "Member" fields default v

/-- A member that stands for a slot is read as standing for it. -/
theorem slot_sharded {slot : Nat} (h : slot < Text.wordBound) (address : String) :
    (sharded slot address).slot = some slot :=
  Text.word?_toString h

/-- It is healthy as long as nothing else is said of it. -/
theorem isHealthyShard_sharded (slot : Nat) (address : String) :
    (sharded slot address).isHealthyShard = true := by
  simp [isHealthyShard, isPassing, sharded, isShardEnabled, MemberStatus.isPassing, markerLabels,
    SortedMap.contains, SortedMap.get?_insert]

end Member

/-- How many members are healthy and part of the pool. -/
def healthyCount (members : List Member) : Nat :=
  (members.filter Member.isHealthyShard).length

end FleetSharding
