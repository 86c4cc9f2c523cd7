import FleetSharding.Record

/-!
# What a field of a record is

A record is read entry by entry, in whatever order they come.  The value of a field depends on
nothing but the field's own entry: if there is one, the field is what is read of it, and otherwise
it is as it was at the start.

* `valueOf?`: the value under a name, in the entries of a mapping.
* `Governs`: the fields of a name are the only ones that write a value, and read it in one way.
* `Governs.of_readEntries`: what the value is once all entries are read.
* `readEntries_eq_error_iff`: an error of a field is that of the reading exactly if everything
  before its entry is read.
* `readEntries_of_parts`: entries that each bring their part of a record are read, in any order.
-/

namespace FleetSharding

variable {V S α : Type}

/-- The first value under a name. -/
def valueOf? (key : String) : Entries V → Option V
  | [] => none
  | (.error _, _) :: es => valueOf? key es
  | (.ok name, v) :: es => if name = key then some v else valueOf? key es

/-- A value is what is read of an entry, if there is one, and otherwise what it is by default. -/
def Given (found? : Option V) (read : V → Decoded α) (default value : α) : Prop :=
  match found? with
  | some v => read v = .ok value
  | none => value = default

namespace Field

/-- What a field puts into a record is what is read of its entry. -/
def Writes (f : Field V S) (read : V → Decoded α) (get : S → α) : Prop :=
  ∀ v s s', f.read v s = .ok s' → read v = .ok (get s')

/-- A field leaves a value of the record alone. -/
def Keeps (f : Field V S) (get : S → α) : Prop := ∀ v s s', f.read v s = .ok s' → get s' = get s

/-- An optional field has the name that it is given. -/
@[simp] theorem name_optional (name : String) (read : V → Decoded α) (put : S → α → S) :
    (optional name read put).name = name := rfl

/-- It has no other name. -/
@[simp] theorem alias?_optional (name : String) (read : V → Decoded α) (put : S → α → S) :
    (optional name read put).alias? = none := rfl

/-- Whoever has read an optional field has put the value where it belongs. -/
theorem read_optional_eq_ok {name : String} {read : V → Decoded α} {put : S → α → S} {v : V}
    {s s' : S} (h : (optional name read put).read v s = .ok s') :
    ∃ x, read v = .ok x ∧ s' = put s x := by
  have hread : (read v).map (put s) = .ok s' := h
  cases hv : read v with
  | error e =>
      rw [hv] at hread
      cases hread
  | ok x =>
      rw [hv] at hread
      exact ⟨x, rfl, (Except.ok.inj hread).symm⟩

/-- A field writes what it is read back from. -/
@[simp] theorem writes_optional {name : String} {read : V → Decoded α} {put : S → α → S}
    {get : S → α} (h : ∀ s x, get (put s x) = x) : (optional name read put).Writes read get := by
  intro v s s' hread
  obtain ⟨x, hx, rfl⟩ := read_optional_eq_ok hread
  rw [hx, h]

/-- A field keeps what its value has no part in. -/
@[simp] theorem keeps_optional {β : Type} {name : String} {read : V → Decoded β}
    {put : S → β → S} {get : S → α} (h : ∀ s x, get (put s x) = get s) :
    (optional name read put).Keeps get := by
  intro v s s' hread
  obtain ⟨x, -, rfl⟩ := read_optional_eq_ok hread
  exact h s x

/-- Without second names an entry is for the field of its name. -/
theorem name_of_find? {fields : List (Field V S)} (hplain : ∀ f ∈ fields, f.alias? = none)
    {name : String} {f : Field V S} (hfind : fields.find? (·.answersTo name) = some f) :
    f.name = name := by
  have hanswers := List.find?_some hfind
  simpa [answersTo, hplain f (List.mem_of_find?_eq_some hfind)] using hanswers

end Field

/-- Among the fields of a record, those of one name write a value, and no others do. -/
structure Governs (fields : List (Field V S)) (key : String) (read : V → Decoded α)
    (get : S → α) : Prop where
  named : ∃ f ∈ fields, f.name = key
  plain : ∀ f ∈ fields, f.alias? = none
  writes : ∀ f ∈ fields, f.name = key → f.Writes read get
  keeps : ∀ f ∈ fields, f.name ≠ key → f.Keeps get

namespace Governs

variable {fields : List (Field V S)} {key : String} {read : V → Decoded α} {get : S → α}

/-- The field that an entry is for has its name. -/
theorem of_find? (h : Governs fields key read get) {name : String} {f : Field V S}
    (hfind : fields.find? (·.answersTo name) = some f) : f ∈ fields ∧ f.name = name :=
  ⟨List.mem_of_find?_eq_some hfind, Field.name_of_find? h.plain hfind⟩

/-- An entry that is for no field is not under the name. -/
theorem ne_of_find?_eq_none (h : Governs fields key read get) {name : String}
    (hfind : fields.find? (·.answersTo name) = none) : name ≠ key := by
  rintro rfl
  obtain ⟨f, hmem, hname⟩ := h.named
  refine List.find?_eq_none.1 hfind f hmem ?_
  rw [Field.answersTo, hname]
  simp

/-- **A value is what is read of its entry, or stays.**  Once it was read, no other entry can be
under the name. -/
theorem of_readEntries (h : Governs fields key read get) {es : Entries V} {seen seen' : List String}
    {s s' : S} (hread : readEntries fields es seen s = .ok (seen', s')) :
    (key ∈ seen → get s' = get s) ∧
      (key ∉ seen → Given (valueOf? key es) read (get s) (get s')) := by
  induction es generalizing seen s with
  | nil =>
      cases hread
      exact ⟨fun _ => rfl, fun _ => rfl⟩
  | cons e es ih =>
      obtain ⟨name, v⟩ := e
      cases name with
      | error e => cases hread
      | ok name =>
          rw [readEntries] at hread
          split at hread
          · next hfind =>
            rw [valueOf?, if_neg (h.ne_of_find?_eq_none hfind)]
            exact ih hread
          · next f hfind =>
            obtain ⟨hmem, hname⟩ := h.of_find? hfind
            split at hread
            · cases hread
            · next hnew =>
              split at hread
              · cases hread
              · next s₁ hf =>
                obtain ⟨hseen, hunseen⟩ := ih hread
                rw [hname] at hseen hunseen hnew
                by_cases hkey : name = key
                · subst hkey
                  have hafter : get s' = get s₁ := hseen List.mem_cons_self
                  refine ⟨fun hold => absurd hold hnew, fun _ => ?_⟩
                  rw [valueOf?, if_pos rfl, hafter]
                  exact h.writes f hmem hname v s s₁ hf
                · have hkept : get s₁ = get s :=
                    h.keeps f hmem (fun heq => hkey (hname.symm.trans heq)) v s s₁ hf
                  rw [valueOf?, if_neg hkey, ← hkept]
                  refine ⟨fun hold => hseen (List.mem_cons_of_mem _ hold), fun hold => hunseen ?_⟩
                  intro hin
                  rcases List.mem_cons.1 hin with heq | hin
                  · exact hkey heq.symm
                  · exact hold hin

end Governs

/-- The entries before the first under a name. -/
def entriesBefore (key : String) : Entries V → Entries V
  | [] => []
  | (.error e, v) :: es => (.error e, v) :: entriesBefore key es
  | (.ok name, v) :: es => if name = key then [] else (.ok name, v) :: entriesBefore key es

/-- Reading comes to a field that is new and refuses its value, and has read everything before. -/
def FailsWithin (fields : List (Field V S)) (e : DecodeError) (es : Entries V) (seen : List String)
    (s : S) : Prop :=
  ∃ f v seen' s', fields.find? (·.answersTo f.name) = some f ∧ f.name ∉ seen ∧
    valueOf? f.name es = some v ∧
    readEntries fields (entriesBefore f.name es) seen s = .ok (seen', s') ∧ f.read v s' = .error e

section FailsWithin

variable {fields : List (Field V S)} {e : DecodeError} {es : Entries V} {seen : List String} {s : S}
  {name : String} {v : V}

/-- Nothing fails where there are no entries. -/
theorem not_failsWithin_nil : ¬ FailsWithin fields e [] seen s := by
  rintro ⟨f, v, seen', s', -, -, hv, -⟩
  cases hv

/-- Behind a key that cannot be read nothing else fails. -/
theorem not_failsWithin_error (e' : DecodeError) :
    ¬ FailsWithin fields e ((.error e', v) :: es) seen s := by
  rintro ⟨f, w, seen', s', -, -, -, hbefore, -⟩
  cases hbefore

/-- An entry that is for no field is passed over. -/
theorem failsWithin_unknown (hfind : fields.find? (·.answersTo name) = none) :
    FailsWithin fields e ((.ok name, v) :: es) seen s ↔ FailsWithin fields e es seen s := by
  have hne : ∀ {f : Field V S}, fields.find? (·.answersTo f.name) = some f → name ≠ f.name := by
    rintro f hf rfl
    rw [hfind] at hf
    cases hf
  have hskip : ∀ es', readEntries fields ((.ok name, v) :: es') seen s =
      readEntries fields es' seen s := by
    intro es'
    simp only [readEntries, hfind]
  constructor
  · rintro ⟨f, w, seen', s', hf, hnew, hw, hbefore, hread⟩
    rw [valueOf?, if_neg (hne hf)] at hw
    rw [entriesBefore, if_neg (hne hf), hskip] at hbefore
    exact ⟨f, w, seen', s', hf, hnew, hw, hbefore, hread⟩
  · rintro ⟨f, w, seen', s', hf, hnew, hw, hbefore, hread⟩
    refine ⟨f, w, seen', s', hf, hnew, ?_, ?_, hread⟩
    · rw [valueOf?, if_neg (hne hf), hw]
    · rw [entriesBefore, if_neg (hne hf), hskip, hbefore]

variable {f₀ : Field V S}

/-- A repeated field ends the reading. -/
theorem not_failsWithin_repeated (hfind : fields.find? (·.answersTo name) = some f₀)
    (hname : f₀.name = name) (hold : name ∈ seen) :
    ¬ FailsWithin fields e ((.ok name, v) :: es) seen s := by
  rintro ⟨f, w, seen', s', -, hnew, -, hbefore, -⟩
  have hne : name ≠ f.name := fun heq => hnew (heq ▸ hold)
  rw [entriesBefore, if_neg hne, readEntries, hfind] at hbefore
  simp only [hname, hold, if_true] at hbefore
  cases hbefore

/-- A field that refuses its value ends the reading with its own error. -/
theorem failsWithin_refused (hfind : fields.find? (·.answersTo name) = some f₀)
    (hname : f₀.name = name) (hnew : name ∉ seen) {e' : DecodeError}
    (hread : f₀.read v s = .error e') :
    FailsWithin fields e ((.ok name, v) :: es) seen s ↔ e' = e := by
  constructor
  · rintro ⟨f, w, seen', s', hf, -, hw, hbefore, hrefuse⟩
    by_cases heq : name = f.name
    · rw [← heq, hfind] at hf
      rw [valueOf?, if_pos heq] at hw
      rw [entriesBefore, if_pos heq] at hbefore
      cases hf
      cases hw
      cases hbefore
      rw [hread] at hrefuse
      exact Except.error.inj hrefuse
    · rw [entriesBefore, if_neg heq, readEntries, hfind] at hbefore
      simp only [hname, hnew, if_false, hread] at hbefore
      cases hbefore
  · rintro rfl
    refine ⟨f₀, v, seen, s, hname ▸ hfind, hname ▸ hnew, ?_, ?_, hread⟩
    · rw [valueOf?, if_pos hname.symm]
    · rw [entriesBefore, if_pos hname.symm, readEntries]

/-- Behind a field that is read only the others count. -/
theorem failsWithin_read (hfind : fields.find? (·.answersTo name) = some f₀)
    (hname : f₀.name = name) (hnew : name ∉ seen) {s₁ : S} (hread : f₀.read v s = .ok s₁) :
    FailsWithin fields e ((.ok name, v) :: es) seen s ↔
      FailsWithin fields e es (name :: seen) s₁ := by
  have hstep : ∀ es', readEntries fields ((.ok name, v) :: es') seen s =
      readEntries fields es' (name :: seen) s₁ := by
    intro es'
    simp only [readEntries, hfind, hname, hnew, if_false, hread]
  constructor
  · rintro ⟨f, w, seen', s', hf, hnew', hw, hbefore, hrefuse⟩
    by_cases heq : name = f.name
    · rw [← heq, hfind] at hf
      rw [valueOf?, if_pos heq] at hw
      rw [entriesBefore, if_pos heq] at hbefore
      cases hf
      cases hw
      cases hbefore
      rw [hread] at hrefuse
      cases hrefuse
    · rw [valueOf?, if_neg heq] at hw
      rw [entriesBefore, if_neg heq, hstep] at hbefore
      refine ⟨f, w, seen', s', hf, ?_, hw, hbefore, hrefuse⟩
      rw [List.mem_cons, not_or]
      exact ⟨Ne.symm heq, hnew'⟩
  · rintro ⟨f, w, seen', s', hf, hnew', hw, hbefore, hrefuse⟩
    rw [List.mem_cons, not_or] at hnew'
    have hne : name ≠ f.name := Ne.symm hnew'.1
    refine ⟨f, w, seen', s', hf, hnew'.2, ?_, ?_, hrefuse⟩
    · rw [valueOf?, if_neg hne, hw]
    · rw [entriesBefore, if_neg hne, hstep, hbefore]

/-- **An error that only fields have is that of the reading exactly if a field has it**, the first
entry of its name, with everything before it read. -/
theorem readEntries_eq_error_iff (hplain : ∀ f ∈ fields, f.alias? = none)
    (hkeys : ∀ entry ∈ es, entry.1 ≠ .error e) (hrepeated : ∀ name, e ≠ .duplicateField name) :
    readEntries fields es seen s = .error e ↔ FailsWithin fields e es seen s := by
  induction es generalizing seen s with
  | nil => exact ⟨nofun, fun h => absurd h not_failsWithin_nil⟩
  | cons entry es ih =>
      have hrest := fun {seen s} => @ih seen s fun a ha => hkeys a (List.mem_cons_of_mem _ ha)
      obtain ⟨name, v⟩ := entry
      cases name with
      | error e' =>
          refine ⟨fun h => ?_, fun h => absurd h (not_failsWithin_error e')⟩
          exact absurd (congrArg Except.error (Except.error.inj h)) (hkeys _ List.mem_cons_self)
      | ok name =>
          cases hfind : fields.find? (·.answersTo name) with
          | none =>
              rw [failsWithin_unknown hfind, ← hrest, readEntries, hfind]
          | some f₀ =>
              have hname : f₀.name = name := Field.name_of_find? hplain hfind
              rw [readEntries, hfind]
              simp only [hname]
              by_cases hold : name ∈ seen
              · rw [if_pos hold]
                refine ⟨fun h => ?_, fun h => absurd h (not_failsWithin_repeated hfind hname hold)⟩
                exact absurd (Except.error.inj h).symm (hrepeated name)
              · rw [if_neg hold]
                cases hread : f₀.read v s with
                | error e' => simp only [failsWithin_refused hfind hname hold hread,
                    Except.error.injEq]
                | ok s₁ => rw [failsWithin_read hfind hname hold hread, ← hrest]

end FailsWithin

/-- The names of the fields that entries are for, in order. -/
def namesOf (fields : List (Field V S)) (es : List (String × V)) : List String :=
  es.filterMap fun e => (fields.find? (·.answersTo e.1)).map (·.name)

/-- **Entries that each bring their part of a record are read, in any order.**  The parts read so
far are given by the names of their fields. -/
theorem readEntries_of_parts {fields : List (Field V S)} {part : List String → S}
    {es : List (String × V)} {seen : List String}
    (hread : ∀ e ∈ es, ∀ f, fields.find? (·.answersTo e.1) = some f →
      ∀ names, f.read e.2 (part names) = .ok (part (f.name :: names)))
    (honce : ((namesOf fields es).reverse ++ seen).Nodup) :
    readEntries fields (es.map fun e => (.ok e.1, e.2)) seen (part seen) =
      .ok ((namesOf fields es).reverse ++ seen, part ((namesOf fields es).reverse ++ seen)) := by
  induction es generalizing seen with
  | nil => rfl
  | cons e es ih =>
      have hrest := fun e' he' => hread e' (List.mem_cons_of_mem _ he')
      rw [List.map_cons, readEntries]
      split
      · next hnone =>
        have hnames : namesOf fields (e :: es) = namesOf fields es := by
          simp only [namesOf, List.filterMap_cons, hnone, Option.map_none]
        rw [hnames] at honce ⊢
        exact ih hrest honce
      · next f hsome =>
        have hnames : namesOf fields (e :: es) = f.name :: namesOf fields es := by
          simp only [namesOf, List.filterMap_cons, hsome, Option.map_some]
        rw [hnames, List.reverse_cons, List.append_assoc, List.singleton_append] at honce ⊢
        have hnew : f.name ∉ seen := (List.nodup_cons.1 (List.nodup_append.1 honce).2.1).1
        rw [if_neg hnew, hread e List.mem_cons_self f hsome seen]
        exact ih hrest honce

end FleetSharding
