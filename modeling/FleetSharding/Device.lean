import FleetSharding.Hash
import FleetSharding.Json.Decode
import FleetSharding.Text.Utf8

/-!
# Devices

A device is a telemetry source named in the configuration.  Sharding looks only at its key: the
group it is pinned to, or the hash of its host when it is pinned to none.  Everything else travels
with the device to whoever collects from it.
-/

namespace FleetSharding

structure Device where
  host : String
  /-- Zero means that the device is pinned to no group. -/
  groupId : UInt32 := 0
  port : Option UInt16 := none
  service : Option String := none
  labels : SortedMap String := .empty
  deriving DecidableEq, Inhabited

namespace Device

/-- A device with nothing but a host. -/
def ofHost (host : String) : Device := { host }

/-- The key by which a device is placed. -/
def groupKey (d : Device) : UInt32 :=
  if d.groupId ≠ 0 then d.groupId else fnv1a (Text.encode d.host)

/-- The device as JSON; what is unset is left out. -/
def toJson (d : Device) : Json :=
  let part {α : Type} (name : String) (f : α → Json) (a : Option α) : List (String × Json) :=
    a.toList.map fun a => (name, f a)
  .object <|
    [("host", .str d.host), ("group_id", .nat d.groupId.toNat)] ++
      part "port" (fun p => .nat p.toNat) d.port ++
      part "service" .str d.service ++
      (if d.labels.isEmpty then [] else [("labels", .ofTexts d.labels)])

variable {V : Type} [Format V]

def fields : List (Field V Device) :=
  [ .mandatory "host" Format.text fun d x => { d with host := x },
    { Field.optional "group_id" (Format.unsigned "u32" (Nat.pow 2 32))
        (fun d n => { d with groupId := .ofNat n }) with alias? := some "groupID" },
    .optional "port" (readOption (Format.unsigned "u16" (Nat.pow 2 16)))
      fun d n => { d with port := n.map .ofNat },
    .optional "service" (readOption Format.text) fun d x => { d with service := x },
    .optional "labels" readTexts fun d x => { d with labels := x } ]

def read (v : V) : Decoded Device :=
  readRecord "Device" fields default v

end Device

end FleetSharding
