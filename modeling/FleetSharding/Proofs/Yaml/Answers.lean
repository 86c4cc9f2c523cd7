import FleetSharding.Config
import FleetSharding.Yaml.Decode

/-!
# Readers that always answer

Reading a value of a document ends in the value or in an error, except that a duration of too many
seconds stops the program.  So whatever has no duration in it always answers: the scalars, the lists
and options of what answers, and the records all of whose fields answer.

* `Answers`: reading does not stop the program; it is kept by whatever puts readings together.
* `answers_readList`, `answers_readOption`, `answers_readTexts`: lists, options and maps of texts.
* `answers_readRecord`: records.
* `answers_device`, `answers_member`, `answers_cluster`, `answers_api`, `answers_backend`: the parts
  of a configuration without durations.
-/

namespace FleetSharding

open Yaml (Part Node)

/-- Reading does not stop the program. -/
def Answers {α : Type} (r : Decoded α) : Prop := r ≠ .error .spanOverflow

namespace Answers

variable {α β : Type}

/-- A value is an answer. -/
theorem ok (a : α) : Answers (.ok a : Decoded α) := nofun

/-- So is the error that something else was expected. -/
theorem expected (what : String) : Answers (.error (.expected what) : Decoded α) := nofun

/-- So is the error that the text goes wrong. -/
theorem illFormed : Answers (.error .illFormed : Decoded α) := nofun

/-- Whether an error answers does not depend on what was wanted. -/
theorem error {e : DecodeError} (h : Answers (.error e : Decoded α)) :
    Answers (.error e : Decoded β) :=
  fun heq => h (congrArg Except.error (Except.error.inj heq))

/-- Whatever goes on from an answer, and answers itself, answers. -/
theorem bind {x : Decoded α} {f : α → Decoded β} (hx : Answers x)
    (hf : ∀ a, x = .ok a → Answers (f a)) : Answers (x >>= f) := by
  cases x with
  | ok a => exact hf a rfl
  | error e => exact hx.error

/-- What is made of an answer is one. -/
theorem map {x : Decoded α} (hx : Answers x) (f : α → β) : Answers (x.map f) := by
  cases x with
  | ok a => exact ok (f a)
  | error e => exact hx.error

/-- A list is read to its end if each of its items answers. -/
theorem mapM {f : α → Decoded β} {as : List α} (hf : ∀ a ∈ as, Answers (f a)) :
    Answers (as.mapM f) := by
  induction as with
  | nil => exact ok []
  | cons a as ih =>
      obtain ⟨ha, has⟩ := List.forall_mem_cons.1 hf
      rw [List.mapM_cons]
      exact bind ha fun b _ => bind (ih has) fun bs _ => ok (b :: bs)

end Answers

section Readers

/-- A value of the wrong kind is told of, and so is the place where the text goes wrong. -/
theorem answers_mismatch {α : Type} (what : String) (n : Node) :
    Answers (Yaml.mismatch what n : Decoded α) := by
  unfold Yaml.mismatch
  split
  · exact .illFormed
  · exact .expected _
  · exact .expected _

/-- Any scalar is a text, and nothing else is. -/
theorem answers_text (p : Part) : Answers (Format.text p) := by
  show Answers (Yaml.readText p)
  unfold Yaml.readText
  split
  · exact .ok _
  · exact answers_mismatch _ _

/-- A scalar of the core schema is read, or is of the wrong kind. -/
theorem answers_readCore {α : Type} (what type : String) (read : String → Option α) (p : Part) :
    Answers (Yaml.readCore what type read p) := by
  unfold Yaml.readCore
  split
  · simp only
    split
    · exact .ok _
    · exact answers_mismatch _ _
  · exact answers_mismatch _ _

/-- A number may be too great, which is an error like others. -/
theorem answers_unsigned (what : String) (bound : Nat) (p : Part) :
    Answers (Format.unsigned what bound p) := by
  refine .bind (answers_readCore _ _ _ p) fun n _ => ?_
  split
  · exact .ok n
  · exact .expected _

/-- A name is known, or it is not. -/
theorem answers_oneOf (known : List String) (given : String) :
    Answers (Yaml.oneOf known given) := by
  unfold Yaml.oneOf
  split
  · exact .ok _
  · exact nofun

/-- A variant is a name, also where it stands in a mapping with nothing under it. -/
theorem answers_variant (known : List String) (p : Part) : Answers (Format.variant known p) := by
  show Answers (Yaml.readVariant known p)
  unfold Yaml.readVariant
  split
  · refine .bind (answers_oneOf _ _) fun name _ => .bind ?_ fun _ _ => .ok name
    unfold Yaml.saysNothing
    split
    · split
      · exact .ok _
      · exact .expected _
    · exact .expected _
  · exact answers_oneOf _ _
  · exact answers_mismatch _ _

/-- Whether a value is there can always be told. -/
theorem answers_isAbsent (p : Part) : Answers (Format.isAbsent p) := by
  show Answers (Yaml.isAbsent p)
  unfold Yaml.isAbsent
  split
  · exact .ok _
  · split
    · exact .ok _
    · split
      · exact .ok _
      · exact .expected _
  · exact .ok _

/-- The items of a sequence are listed before any of them is read. -/
theorem answers_items (p : Part) : Answers (Format.items p) := by
  show Answers (Yaml.readItems p)
  unfold Yaml.readItems
  split
  · exact .ok _
  · split
    · exact .ok _
    · exact answers_mismatch _ _

/-- A key is a scalar. -/
theorem answers_key (what : String) (p : Part) : Answers (Yaml.readKey what p) := by
  unfold Yaml.readKey
  split
  · exact .ok _
  · exact answers_mismatch _ _

/-- The entries of a mapping can be listed, and no key stops the program. -/
theorem answers_entries (what key : String) (p : Part) :
    Answers (Yaml.readEntriesAs what key p) ∧
      ∀ es, Yaml.readEntriesAs what key p = .ok es → ∀ e ∈ es, Answers e.1 := by
  unfold Yaml.readEntriesAs
  split
  · refine ⟨.ok _, ?_⟩
    rintro _ ⟨⟩ e he
    obtain ⟨entry, -, rfl⟩ := List.mem_map.1 he
    exact answers_key _ _
  · split
    · refine ⟨.ok _, ?_⟩
      rintro _ ⟨⟩ e he
      cases he
    · exact ⟨answers_mismatch _ _, fun es h => absurd h (by
        unfold Yaml.mismatch
        split <;> nofun)⟩

/-- A list answers if each of its items does. -/
theorem answers_readList {α : Type} {read : Part → Decoded α} (h : ∀ p, Answers (read p))
    (p : Part) : Answers (readList read p) :=
  .bind (answers_items p) fun _ _ => .mapM fun q _ => h q

/-- A value that may be absent answers if one that is there does. -/
theorem answers_readOption {α : Type} {read : Part → Decoded α} (h : ∀ p, Answers (read p))
    (p : Part) : Answers (readOption read p) := by
  refine .bind (answers_isAbsent p) fun absent _ => ?_
  cases absent with
  | true => exact .ok _
  | false => exact .bind (h p) fun a _ => .ok (some a)

/-- A map of texts answers: its keys and its values are scalars. -/
theorem answers_readTexts (p : Part) : Answers (readTexts p) := by
  obtain ⟨hlisted, hkeys⟩ := answers_entries "a map" "a string" p
  refine .bind hlisted fun es hes => .bind (.mapM fun e he => ?_) fun _ _ => .ok _
  exact .bind (hkeys es hes e he) fun _ _ => .bind (answers_text e.2) fun _ _ => .ok _

/-- A number answers, however great it is; only a duration made of it may not. -/
theorem answers_float (p : Part) : Answers (Format.float p) := answers_readCore _ _ _ p

end Readers

section Records

variable {S : Type} {fields : List (Field Part S)}

/-- The entries of a record answer if each key does, and each field for its value. -/
theorem answers_readEntries {es : Entries Part} (hkeys : ∀ e ∈ es, Answers e.1)
    (hfields : ∀ f ∈ fields, ∀ v s, Answers (f.read v s)) (seen : List String) (s : S) :
    Answers (readEntries fields es seen s) := by
  induction es generalizing seen s with
  | nil => exact .ok _
  | cons e es ih =>
      obtain ⟨hkey, hes⟩ := List.forall_mem_cons.1 hkeys
      obtain ⟨key, v⟩ := e
      cases key with
      | error e => exact hkey.error
      | ok key =>
          rw [readEntries]
          split
          · exact ih hes seen s
          · next f hfind =>
            split
            · exact nofun
            · split
              · next e hread =>
                have hf := hfields f (List.mem_of_find?_eq_some hfind) v s
                rw [hread] at hf
                exact hf.error
              · next s' _ => exact ih hes _ s'

/-- What has no entries is no record. -/
theorem readRecord_of_unlisted {name : String} {start : S} {p : Part} {e : DecodeError}
    (h : Yaml.readEntriesAs ("struct " ++ name) "field identifier" p = .error e) :
    readRecord name fields start p = .error e := by
  have hrecord : Format.record name p =
      (Yaml.readEntriesAs ("struct " ++ name) "field identifier" p).map RecordSource.entries := rfl
  rw [readRecord, hrecord, h]
  rfl

/-- The entries of a record are read first, and then no field may be missing. -/
theorem readRecord_of_listed {name : String} {start : S} {p : Part} {es : Entries Part}
    (h : Yaml.readEntriesAs ("struct " ++ name) "field identifier" p = .ok es) :
    readRecord name fields start p = do
      let (seen, s) ← readEntries fields es [] start
      match fields.find? fun f => f.required && !seen.contains f.name with
      | some f => .error (.missingField f.name)
      | none => return s := by
  have hrecord : Format.record name p =
      (Yaml.readEntriesAs ("struct " ++ name) "field identifier" p).map RecordSource.entries := rfl
  rw [readRecord, hrecord, h]
  simp only [Except.map, bind, Except.bind]
  cases readEntries fields es [] start with
  | error e => rfl
  | ok found =>
      dsimp only
      cases fields.find? fun f => f.required && !found.1.contains f.name <;> rfl

/-- A record all of whose fields answer answers. -/
theorem answers_readRecord (hfields : ∀ f ∈ fields, ∀ v s, Answers (f.read v s)) (name : String)
    (start : S) (p : Part) : Answers (readRecord name fields start p) := by
  obtain ⟨hlisted, hkeys⟩ := answers_entries ("struct " ++ name) "field identifier" p
  cases hes : Yaml.readEntriesAs ("struct " ++ name) "field identifier" p with
  | error e =>
      rw [readRecord_of_unlisted hes]
      rw [hes] at hlisted
      exact hlisted.error
  | ok es =>
      rw [readRecord_of_listed hes]
      refine .bind (answers_readEntries (hkeys es hes) hfields [] start) fun (seen, s) _ => ?_
      dsimp only
      split
      · exact nofun
      · exact .ok _

end Records

namespace Field

variable {S α : Type} {read : Part → Decoded α} {put : S → α → S}

/-- An optional field answers if its value does. -/
theorem answers_optional (h : ∀ p, Answers (read p)) (name : String) (p : Part) (s : S) :
    Answers ((optional name read put).read p s) :=
  (h p).map (put s)

/-- So does a mandatory one; that it is missing is found only behind the entries. -/
theorem answers_mandatory (h : ∀ p, Answers (read p)) (name : String) (p : Part) (s : S) :
    Answers ((mandatory name read put).read p s) :=
  (h p).map (put s)

end Field

/-- A device has no duration in it. -/
theorem answers_device (p : Part) : Answers (Device.read p) := by
  refine answers_readRecord (fun f hf => ?_) _ _ p
  simp only [Device.fields, List.mem_cons, List.not_mem_nil, or_false] at hf
  rcases hf with rfl | rfl | rfl | rfl | rfl
  · exact Field.answers_mandatory answers_text _
  · exact Field.answers_optional (answers_unsigned _ _) "group_id"
  · exact Field.answers_optional (answers_readOption (answers_unsigned _ _)) _
  · exact Field.answers_optional (answers_readOption answers_text) _
  · exact Field.answers_optional answers_readTexts _

/-- Nor has a member. -/
theorem answers_member (p : Part) : Answers (Member.read p) := by
  refine answers_readRecord (fun f hf => ?_) _ _ p
  simp only [Member.fields, List.mem_cons, List.not_mem_nil, or_false] at hf
  rcases hf with rfl | rfl | rfl | rfl
  · exact Field.answers_mandatory answers_text _
  · exact Field.answers_mandatory answers_text _
  · exact Field.answers_mandatory answers_text _
  · exact Field.answers_optional answers_readTexts _

/-- Nor have the settings of the cluster. -/
theorem answers_cluster (p : Part) : Answers (ClusterConfig.read p) := by
  refine answers_readRecord (fun f hf => ?_) _ _ p
  simp only [ClusterConfig.fields, List.mem_cons, List.not_mem_nil, or_false] at hf
  rcases hf with rfl | rfl | rfl | rfl | rfl
  · exact Field.answers_optional answers_text _
  · exact Field.answers_optional answers_text _
  all_goals exact Field.answers_optional (answers_unsigned _ _) _

/-- Nor have those of the admin interface. -/
theorem answers_api (p : Part) : Answers (ApiConfig.read p) := by
  refine answers_readRecord (fun f hf => ?_) _ _ p
  simp only [ApiConfig.fields, List.mem_cons, List.not_mem_nil, or_false] at hf
  rcases hf with rfl | rfl
  · exact Field.answers_optional (answers_readCore _ _ _) _
  · exact Field.answers_optional answers_text _

/-- A backend is a name, with its aliases. -/
theorem answers_backend (p : Part) : Answers (Backend.read p) :=
  .bind (answers_variant _ p) fun _ _ => .ok _

end FleetSharding
