import FleetSharding.Device
import FleetSharding.Proofs.Json.Reading
import FleetSharding.Proofs.Record
import FleetSharding.Proofs.SortedMap

/-!
# Devices are read back

What is unset in a device is left out of its form, and what is missing in a form is unset in the
device that is read.  Each entry of the form brings its own part of the device, under either name of
the group, and a key that names no part brings nothing.  So the parts are those of the device in
whatever order they stand and whatever stands between them, and the form says which device it is of.

* `written`: the entries of a device, the group under the key given.
* `part`: what is known of a device once some of its fields are read.
* `read_of_perm`: entries in any order among unknown ones are read as the device.
* `canonical_toJson`: the form of a device is a value that a text holds.
* `is_read_back`: the form, its text, the legacy key, unknown keys, and two devices.
-/

namespace FleetSharding

/-- A map of texts is read from its form. -/
theorem readTexts_ofTexts (m : SortedMap String) : readTexts (Json.ofTexts m) = .ok m := by
  have hentries : ∀ es : List (String × String),
      (Json.entriesOf (es.map fun e => (e.1, .str e.2))).mapM
        (fun e => do return (← e.1, ← Format.text e.2)) = (.ok es : Decoded _) := by
    intro es
    induction es with
    | nil => rfl
    | cons e es ih =>
        rw [Json.entriesOf] at ih ⊢
        rw [List.map_cons, List.map_cons, List.mapM_cons, ih]
        rfl
  have hmapping : Format.mapping (Json.ofTexts m) =
      .ok (Json.entriesOf (m.entries.map fun e => (e.1, .str e.2))) := rfl
  rw [readTexts, hmapping]
  simp only [bind, Except.bind, pure, Except.pure] at hentries ⊢
  rw [hentries]
  exact congrArg Except.ok m.ofList_entries

namespace Device

/-- The entries of a device, its group under the key given. -/
def written (groupName : String) (d : Device) : List (String × Json) :=
  [("host", .str d.host), (groupName, .nat d.groupId.toNat)] ++
    d.port.toList.map (fun p => ("port", .nat p.toNat)) ++
    d.service.toList.map (fun s => ("service", .str s)) ++
    (if d.labels.isEmpty then [] else [("labels", .ofTexts d.labels)])

/-- The two names of the group. -/
def groupNames : List String := ["group_id", "groupID"]

/-- A key names a field of devices. -/
def isField (key : String) : Bool := (fields (V := Json)).any (·.answersTo key)

/-- What is known of a device once the fields of these names are read. -/
def part (d : Device) (names : List String) : Device where
  host := if "host" ∈ names then d.host else ""
  groupId := if "group_id" ∈ names then d.groupId else 0
  port := if "port" ∈ names then d.port else none
  service := if "service" ∈ names then d.service else none
  labels := if "labels" ∈ names then d.labels else .empty

/-- The keys of a device, its group under the key given. -/
def keys (groupName : String) (d : Device) : List String :=
  ["host", groupName] ++ (if d.port.isSome then ["port"] else []) ++
    (if d.service.isSome then ["service"] else []) ++ (if d.labels.isEmpty then [] else ["labels"])

variable {d : Device} {groupName : String}

/-- No key comes twice. -/
theorem nodup_keys (h : groupName ∈ groupNames) (d : Device) : (d.keys groupName).Nodup := by
  have hall : ∀ name ∈ groupNames, ∀ port service labels : Bool,
      (["host", name] ++ (if port then ["port"] else []) ++
        (if service then ["service"] else []) ++ (if labels then [] else ["labels"])).Nodup := by
    decide
  exact hall groupName h d.port.isSome d.service.isSome d.labels.isEmpty

/-- The keys of a device's form are those that it has values for. -/
theorem map_fst_written (groupName : String) (d : Device) :
    (d.written groupName).map (·.1) = d.keys groupName := by
  obtain ⟨host, groupId, port, service, labels⟩ := d
  cases port <;> cases service <;> cases hlabels : labels.isEmpty <;>
    simp only [written, keys, hlabels] <;> rfl

/-- The fields of a device have the names of its keys, whichever its group has. -/
theorem namesOf_written (h : groupName ∈ groupNames) (d : Device) :
    namesOf fields (d.written groupName) = d.keys "group_id" := by
  obtain ⟨host, groupId, port, service, labels⟩ := d
  rcases List.mem_pair.1 h with rfl | rfl <;> cases port <;> cases service <;>
    cases hlabels : labels.isEmpty <;> simp only [written, keys, hlabels] <;> rfl

/-- With all its fields read a device is known. -/
theorem part_eq_self {names : List String} (h : ∀ name, name ∈ names ↔ name ∈ d.keys "group_id") :
    d.part names = d := by
  have hlabels : d.labels.isEmpty = true → SortedMap.empty = d.labels :=
    fun hempty => (SortedMap.ext (List.isEmpty_iff.1 hempty)).symm
  obtain ⟨host, groupId, port, service, labels⟩ := d
  simp only [part, h, Device.mk.injEq]
  refine ⟨by simp [keys], by simp [keys], ?_, ?_, ?_⟩
  · cases port <;> simp [keys]
  · cases service <;> simp [keys]
  · cases hempty : labels.isEmpty
    · simp [keys, hempty]
    · simp [keys, hempty, hlabels hempty]

/-- What is written of a device is one of its fields, each under its key. -/
theorem mem_written {e : String × Json} (he : e ∈ d.written groupName) :
    e = ("host", .str d.host) ∨ e = (groupName, .nat d.groupId.toNat) ∨
      (∃ p, d.port = some p ∧ e = ("port", .nat p.toNat)) ∨
      (∃ s, d.service = some s ∧ e = ("service", .str s)) ∨ e = ("labels", .ofTexts d.labels) := by
  rw [written, List.mem_append, List.mem_append, List.mem_append, List.mem_pair, List.mem_map,
    List.mem_map] at he
  rcases he with (((rfl | rfl) | ⟨p, hp, rfl⟩) | ⟨s, hs, rfl⟩) | hlabels
  · exact Or.inl rfl
  · exact Or.inr (Or.inl rfl)
  · exact Or.inr (Or.inr (Or.inl ⟨p, Option.mem_toList.1 hp, rfl⟩))
  · exact Or.inr (Or.inr (Or.inr (Or.inl ⟨s, Option.mem_toList.1 hs, rfl⟩)))
  · split at hlabels
    · cases hlabels
    · exact Or.inr (Or.inr (Or.inr (Or.inr (List.mem_singleton.1 hlabels))))

/-- A number in its range is read. -/
theorem unsigned_nat (what : String) {n bound : Nat} (h : n < bound) :
    Format.unsigned what bound (Json.nat n) = .ok n := by
  have hrange : (0 : Int) ≤ n ∧ (n : Int) < bound := by omega
  show (if (0 : Int) ≤ n ∧ (n : Int) < bound then Except.ok n else _) = _
  rw [if_pos hrange]

/-- **Each entry of a device brings its own part.** -/
theorem read_part (h : groupName ∈ groupNames) {e : String × Json} (he : e ∈ d.written groupName)
    {f : Field Json Device} (hf : fields.find? (·.answersTo e.1) = some f) (names : List String) :
    f.read e.2 (d.part names) = .ok (d.part (f.name :: names)) := by
  rcases mem_written he with rfl | rfl | ⟨p, hp, rfl⟩ | ⟨s, hs, rfl⟩ | rfl
  · obtain rfl := Option.some.inj hf
    show Except.ok { d.part names with host := d.host } = _
    simp [part, Field.mandatory]
  · have hread : Format.unsigned "u32" (Nat.pow 2 32) (Json.nat d.groupId.toNat) =
        .ok d.groupId.toNat := unsigned_nat _ d.groupId.toNat_lt
    rcases List.mem_pair.1 h with rfl | rfl <;> obtain rfl := Option.some.inj hf
    all_goals
      simp only [Field.optional]
      rw [hread]
      simp [part, Except.map]
  · obtain rfl := Option.some.inj hf
    have hread : Format.unsigned "u16" (Nat.pow 2 16) (Json.nat p.toNat) = .ok p.toNat :=
      unsigned_nat _ p.toNat_lt
    have hsome : readOption (Format.unsigned "u16" (Nat.pow 2 16)) (Json.nat p.toNat) =
        .ok (some p.toNat) := by
      simp only [readOption, hread]
      rfl
    simp only [Field.optional]
    rw [hsome]
    simp [part, Except.map, hp]
  · obtain rfl := Option.some.inj hf
    show Except.ok { d.part names with service := some s } = _
    simp [part, Field.optional, hs]
  · obtain rfl := Option.some.inj hf
    show (readTexts (Json.ofTexts d.labels)).map _ = _
    rw [readTexts_ofTexts]
    simp [part, Field.optional, Except.map]

/-- An entry is for a field exactly if its key names one. -/
theorem isField_of_find? {key : String} {f : Field Json Device}
    (h : fields.find? (·.answersTo key) = some f) : isField key = true := by
  have hanswers := List.find?_some h
  exact List.any_eq_true.2 ⟨f, List.mem_of_find?_eq_some h, hanswers⟩

/-- Entries whose keys name no field have no names. -/
theorem namesOf_filter (es : List (String × Json)) :
    namesOf fields (es.filter fun e => isField e.1) = namesOf fields es := by
  rw [namesOf, List.filterMap_filter]
  refine List.filterMap_congr fun e _ => ?_
  cases hfind : (fields (V := Json)).find? (·.answersTo e.1) with
  | none => rw [Option.map_none, ite_self]
  | some f => rw [if_pos (isField_of_find? hfind)]

/-- No other field than the host must be there. -/
theorem find?_required {names : List String} (h : "host" ∈ names) :
    (fields (V := Json)).find? (fun f => f.required && !names.contains f.name) = none := by
  simp [fields, Field.mandatory, Field.optional, h]

/-- **Entries in any order among unknown ones are read as the device.** -/
theorem read_of_perm (h : groupName ∈ groupNames) {es : List (String × Json)}
    (hes : (es.filter fun e => isField e.1).Perm (d.written groupName)) :
    read (Json.obj es) = .ok d := by
  have hgroup : "group_id" ∈ groupNames := List.mem_cons_self
  have hnames : (namesOf fields es).Perm (d.keys "group_id") := by
    rw [← namesOf_filter, ← namesOf_written h]
    exact hes.filterMap _
  have hparts : ∀ e ∈ es, ∀ f : Field Json Device, fields.find? (·.answersTo e.1) = some f →
      ∀ names, f.read e.2 (d.part names) = .ok (d.part (f.name :: names)) := by
    intro e he f hf names
    exact read_part h (hes.subset (List.mem_filter.2 ⟨he, isField_of_find? hf⟩)) hf names
  have honce : ((namesOf fields es).reverse ++ []).Nodup := by
    rw [List.append_nil, List.nodup_reverse]
    exact hnames.nodup_iff.2 (nodup_keys hgroup d)
  have hmem : ∀ name, name ∈ (namesOf fields es).reverse ++ [] ↔ name ∈ d.keys "group_id" := by
    intro name
    rw [List.append_nil, List.mem_reverse, hnames.mem_iff]
  have hentries := readEntries_of_parts hparts honce
  rw [part_eq_self hmem] at hentries
  have hcomplete := find?_required ((hmem "host").2 List.mem_cons_self)
  have hsource : Format.record "Device" (Json.obj es) =
      .ok (.entries (es.map fun e => (.ok e.1, e.2))) := rfl
  have hstart : (default : Device) = d.part [] := rfl
  rw [read, readRecord, hsource, hstart]
  simp only [bind, Except.bind, hentries, hcomplete]
  rfl

/-- All entries of a device are fields. -/
theorem filter_written (h : groupName ∈ groupNames) (d : Device) :
    (d.written groupName).filter (fun e => isField e.1) = d.written groupName := by
  refine List.filter_eq_self.2 fun e he => ?_
  rcases mem_written he with rfl | rfl | ⟨p, -, rfl⟩ | ⟨s, -, rfl⟩ | rfl
  · rfl
  · rcases List.mem_pair.1 h with rfl | rfl <;> rfl
  · rfl
  · rfl
  · rfl

/-- So are the entries that a text leaves, sorted and the last of each key. -/
theorem read_object_of_perm (h : groupName ∈ groupNames) {es : List (String × Json)}
    (hes : (es.filter fun e => isField e.1).Perm (d.written groupName)) :
    read (Json.object es) = .ok d := by
  have hkeys : ((es.filter fun e => isField e.1).map (·.1)).Nodup :=
    (hes.map _).nodup_iff.2 (by
      rw [map_fst_written]
      exact nodup_keys h d)
  exact read_of_perm h ((SortedMap.filter_entries_perm isField hkeys).trans hes)

/-- A device is written under the first of the two names of its group. -/
theorem toJson_eq (d : Device) : d.toJson = .object (d.written "group_id") := rfl

/-- A text holds each value of a device. -/
theorem canonical_of_mem_written (depth : Nat) {e : String × Json}
    (he : e ∈ d.written groupName) : Json.Canonical (depth + 1) e.2 := by
  have hnat : ∀ n : Nat, n < 2 ^ 32 → Json.Canonical (depth + 1) (.nat n) := by
    intro n hn
    have h63 : Int.pow 2 63 = 9223372036854775808 := rfl
    have h64 : Int.pow 2 64 = 18446744073709551616 := rfl
    exact .int (by omega) (by omega)
  rcases mem_written he with rfl | rfl | ⟨p, -, rfl⟩ | ⟨s, -, rfl⟩ | rfl
  · exact .str _
  · exact hnat _ d.groupId.toNat_lt
  · exact hnat _ (Nat.lt_trans p.toNat_lt (by decide))
  · exact .str _
  · refine .obj (List.pairwise_map.2 d.labels.sorted) fun e he => ?_
    obtain ⟨label, -, rfl⟩ := List.mem_map.1 he
    exact .str _

/-- The form of a device is a value that a text holds. -/
theorem canonical_toJson (d : Device) : Json.Canonical Json.maxDepth d.toJson :=
  .obj (SortedMap.sorted _) fun _ he =>
    canonical_of_mem_written (Json.maxDepth - 2) (SortedMap.mem_of_mem_ofList he)

/-- The text of a device's form is read as that form. -/
theorem parseText_toJson (d : Device) : Json.parseText d.toJson.render = .ok d.toJson :=
  Json.parse_render (canonical_toJson d)

/-- A device is read back from its form. -/
theorem read_toJson (d : Device) : read d.toJson = .ok d := by
  have hgroup : "group_id" ∈ groupNames := List.mem_cons_self
  rw [toJson_eq]
  exact read_object_of_perm hgroup (by rw [filter_written hgroup])

/-- **A device comes back from its form, and the form says which device it is of.**  The text of the
form is parsed as the form, and the form is read as the device.  So are the entries of the device in
any order, with its group under either name and with whatever unknown keys between them: as they
stand, and as any text leaves them, sorted and of each key the last.  If the values under the
unknown keys can be written, there is such a text.  Two devices with one text are one device. -/
theorem device_is_read_back (d : Device) :
    d.toJson = .object (d.written "group_id") ∧
    Json.parseText d.toJson.render = .ok d.toJson ∧ read d.toJson = .ok d ∧
    (∀ groupName ∈ groupNames, ∀ es : List (String × Json),
      (es.filter fun e => isField e.1).Perm (d.written groupName) →
        read (Json.obj es) = .ok d ∧ read (Json.object es) = .ok d ∧
        ((∀ e ∈ es, Json.Canonical (Json.maxDepth - 1) e.2) →
          Json.parseText (Json.obj es).render = .ok (.object es))) ∧
    ∀ d' : Device, d'.toJson.render = d.toJson.render → d' = d := by
  refine ⟨toJson_eq d, parseText_toJson d, read_toJson d, ?_, ?_⟩
  · intro groupName hgroup es hes
    exact ⟨read_of_perm hgroup hes, read_object_of_perm hgroup hes, Json.parse_render_obj⟩
  · intro d' hsame
    have hform := parseText_toJson d'
    rw [hsame, parseText_toJson d] at hform
    have hread := read_toJson d'
    rw [← Except.ok.inj hform, read_toJson d] at hread
    exact (Except.ok.inj hread).symm

/-- A device with an empty service and no port, in the legacy form and with an unknown list. -/
theorem device_is_read_back_of_legacy :
    let labels : SortedMap String := .ofList [("r\u00e9gion", "\"1\"\n")]
    let es : List (String × Json) :=
      [("model", .arr [.null, .int (-1), .float ⟨0x3FF8000000000000⟩]), ("groupID", .nat 7),
        ("service", .str ""), ("labels", .ofTexts labels), ("host", .str "core1.lax")]
    Json.parseText (Json.obj es).render = .ok (.object es) ∧
      read (Json.object es) = .ok ⟨"core1.lax", 7, none, some "", labels⟩ := by
  intro labels es
  have hperm : (es.filter fun e => isField e.1).Perm
      (written "groupID" ⟨"core1.lax", 7, none, some "", labels⟩) := by
    let host : List (String × Json) := [("host", .str "core1.lax")]
    let others : List (String × Json) :=
      [("groupID", .nat 7), ("service", .str ""), ("labels", .ofTexts labels)]
    show (others ++ host).Perm (host ++ others)
    exact List.perm_append_comm
  obtain ⟨-, -, -, hforms, -⟩ := device_is_read_back ⟨"core1.lax", 7, none, some "", labels⟩
  obtain ⟨-, hread, hparse⟩ := hforms "groupID" (by decide) es hperm
  refine ⟨hparse fun e he => ?_, hread⟩
  rcases List.mem_cons.1 he with rfl | he
  · refine .arr fun v hv => ?_
    simp only [List.mem_cons, List.not_mem_nil, or_false] at hv
    rcases hv with rfl | rfl | rfl
    · exact .null
    · exact .int (by decide) (by decide)
    · exact .float (by decide +kernel)
  · have hwritten : e ∈ written "groupID" ⟨"core1.lax", 7, none, some "", labels⟩ :=
      hperm.subset he
    exact canonical_of_mem_written _ hwritten

end Device

end FleetSharding
