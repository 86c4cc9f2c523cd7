import FleetSharding.Proofs.Duration
import FleetSharding.Proofs.Layers
import FleetSharding.Proofs.Yaml.Answers

/-!
# Which configuration files stop the program

A configuration is read entry by entry, and only a duration that is too long stops the program.  So
the reading stops exactly if the first problem of a document is such a duration, in one of the two
sections that have durations; whatever comes behind it is not looked at, be it an entry that cannot
be read, the end of what can be read of the text at all, or another document.

* `TooLong`: a number of seconds from 2^64 on, and `readDuration_cases`: what is made of a number.
* `Part.before`: what of a mapping stands before a key.
* `readRecord_stops_iff`: reading a record stops at a field, when what stands before it can be read.
* `FleetConfig.reading_stops_iff`: the texts that stop the program, and what the durations of a
  configuration are.
-/

namespace FleetSharding

open Yaml (Part Node)

/-! ### Durations -/

/-- A number of seconds that no duration has. -/
def TooLong (p : Part) : Prop :=
  ∃ x, Format.float p = .ok x ∧ x.IsSpan ∧ (2 : ℚ) ^ 64 ≤ x.abs

/-- A duration is refused, or it is too long and stops the program, or it is a number's, rounded. -/
theorem readDuration_cases (p : Part) :
    (∃ e, e ≠ .spanOverflow ∧ readDuration p = .error e ∧ ¬ TooLong p) ∨
      (TooLong p ∧ readDuration p = .error .spanOverflow) ∨
      ∃ x, Format.float p = .ok x ∧ x.IsSpan ∧ x.abs < (2 : ℚ) ^ 64 ∧ ¬ TooLong p ∧
        readDuration p = .ok (.rounded x) := by
  cases hx : Format.float p with
  | error e =>
      refine Or.inl ⟨e, fun heq => answers_float p (by rw [hx, heq]), ?_, ?_⟩
      · simp only [readDuration, hx, bind, Except.bind]
      · rintro ⟨x, hx', -⟩
        rw [hx] at hx'
        cases hx'
  | ok x =>
      have htoo : TooLong p ↔ x.IsSpan ∧ (2 : ℚ) ^ 64 ≤ x.abs := by
        simp only [TooLong, hx, Except.ok.injEq, exists_eq_left']
      rw [htoo]
      rcases Duration.ofSeconds_cases x with
        ⟨hspan, hread⟩ | ⟨hspan, hlong, hread⟩ | ⟨hspan, hshort, hread⟩
      · refine Or.inl ⟨.notASpan, nofun, ?_, fun h => hspan h.1⟩
        simp only [readDuration, hx, bind, Except.bind, hread]
      · refine Or.inr (Or.inl ⟨⟨hspan, hlong⟩, ?_⟩)
        simp only [readDuration, hx, bind, Except.bind, hread]
      · have hnot : ¬ (x.IsSpan ∧ (2 : ℚ) ^ 64 ≤ x.abs) := fun h => not_le_of_gt hshort h.2
        refine Or.inr (Or.inr ⟨x, rfl, hspan, hshort, hnot, ?_⟩)
        simp only [readDuration, hx, bind, Except.bind, hread, pure, Except.pure]

/-- Reading a duration stops the program exactly on a number that is too long. -/
theorem readDuration_stops_iff (p : Part) : readDuration p = .error .spanOverflow ↔ TooLong p := by
  rcases readDuration_cases p with
    ⟨e, hother, hread, hshort⟩ | ⟨hlong, hread⟩ | ⟨x, -, -, -, hshort, hread⟩
  · exact ⟨fun h => absurd (Except.error.inj (hread.symm.trans h)) hother, fun h => absurd h hshort⟩
  · exact ⟨fun _ => hlong, fun _ => hread⟩
  · exact ⟨fun h => (by rw [hread] at h; cases h), fun h => absurd h hshort⟩

/-! ### Records -/

namespace Yaml.Part

/-- What of a mapping stands before a key. -/
def before (key : String) (p : Part) : Part :=
  match p.target with
  | .mapping tag entries =>
    p.child (.mapping tag (entries.takeWhile fun e => (p.child e.1).text? != some key))
  | _ => p

/-- What stands before a key is found in the same way among the entries of a document and among
those that are read of it. -/
theorem entriesBefore_map_readKey (what key : String) (p : Part) (entries : List (Node × Node)) :
    entriesBefore key (entries.map fun e => (readKey what (p.child e.1), p.child e.2)) =
      (entries.takeWhile fun e => (p.child e.1).text? != some key).map
        fun e => (readKey what (p.child e.1), p.child e.2) := by
  induction entries with
  | nil => rfl
  | cons e entries ih =>
      rw [List.map_cons]
      rcases readKey_cases what (p.child e.1) with ⟨e', hkey, htext⟩ | ⟨name, hkey, htext⟩
      · have hother : ((p.child e.1).text? != some key) = true := by rw [htext]; rfl
        rw [List.takeWhile_cons, if_pos hother, List.map_cons, hkey, entriesBefore, ih]
      · by_cases hname : name = key
        · have hsame : ¬ ((p.child e.1).text? != some key) = true := by simp [htext, hname]
          rw [List.takeWhile_cons, if_neg hsame, hkey, entriesBefore, if_pos hname, List.map_nil]
        · have hother : ((p.child e.1).text? != some key) = true := by simp [htext, hname]
          rw [List.takeWhile_cons, if_pos hother, List.map_cons, hkey, entriesBefore,
            if_neg hname, ih]

/-- The entries before a key are those of what stands before it. -/
theorem readEntriesAs_before {what what' : String} {p : Part} {es : Entries Part}
    (h : readEntriesAs what what' p = .ok es) (key : String) :
    readEntriesAs what what' (p.before key) = .ok (entriesBefore key es) := by
  unfold readEntriesAs at h
  split at h
  · next tag entries htarget =>
    cases h
    rw [entriesBefore_map_readKey]
    unfold before
    rw [htarget]
    rfl
  · next hother =>
    split at h
    · next hvoid =>
      cases h
      have hsame : p.before key = p := by
        unfold before
        split
        · next htarget => exact absurd htarget (hother _ _)
        · rfl
      rw [hsame, readEntriesAs]
      split
      · next htarget => exact absurd htarget (hother _ _)
      · rw [if_pos hvoid]
        rfl
    · unfold mismatch at h
      split at h <;> cases h

/-- What has a value under a key has entries. -/
theorem readEntriesAs_of_under? {key : String} {p v : Part} (h : p.under? key = some v)
    (what what' : String) : ∃ es, readEntriesAs what what' p = .ok es := by
  by_cases hmap : ∃ tag entries, p.target = .mapping tag entries
  · obtain ⟨tag, entries, htarget⟩ := hmap
    rw [readEntriesAs, htarget]
    exact ⟨_, rfl⟩
  · rw [under?_eq_none fun tag entries htarget => hmap ⟨tag, entries, htarget⟩] at h
    cases h

end Yaml.Part

section Records

variable {S : Type} {fields : List (Field Part S)} {name : String} {start : S} {p : Part}

/-- A record without mandatory fields is what is read of its entries. -/
theorem readRecord_eq (hoptional : ∀ f ∈ fields, f.required = false) {es : Entries Part}
    (hes : Yaml.readEntriesAs ("struct " ++ name) "field identifier" p = .ok es) :
    readRecord name fields start p = (readEntries fields es [] start).map (·.2) := by
  rw [readRecord_of_listed hes]
  cases readEntries fields es [] start with
  | error e => rfl
  | ok found =>
      have hcomplete : fields.find? (fun f => f.required && !found.1.contains f.name) = none := by
        refine List.find?_eq_none.2 fun f hf => ?_
        simp [hoptional f hf]
      simp only [bind, Except.bind, hcomplete]
      rfl

/-- The field that is found for the name of one has that name. -/
theorem exists_find? {V : Type} {fields : List (Field V S)} {key : String}
    (hplain : ∀ f ∈ fields, f.alias? = none) (h : key ∈ fields.map (·.name)) :
    ∃ f, fields.find? (·.answersTo f.name) = some f ∧ f.name = key := by
  obtain ⟨g, hg, rfl⟩ := List.mem_map.1 h
  have hfound : (fields.find? (·.answersTo g.name)).isSome := by
    rw [List.find?_isSome]
    exact ⟨g, hg, by simp [Field.answersTo]⟩
  obtain ⟨f, hf⟩ := Option.isSome_iff_exists.1 hfound
  have hname : f.name = g.name := Field.name_of_find? hplain hf
  exact ⟨f, hname ▸ hf, hname⟩

/-- **Reading a record stops the program exactly if a field does**, the first entry of its name, and
what stands before that can be read. -/
theorem readRecord_stops_iff (stops : String → Part → Prop)
    (hplain : ∀ f ∈ fields, f.alias? = none ∧ f.required = false)
    (hfields : ∀ f ∈ fields, ∀ v s, f.read v s = .error .spanOverflow ↔ stops f.name v)
    (hnamed : ∀ key v, stops key v → key ∈ fields.map (·.name)) :
    readRecord name fields start p = .error .spanOverflow ↔
      ∃ key v s, p.under? key = some v ∧ stops key v ∧
        readRecord name fields start (p.before key) = .ok s := by
  have halias := fun f hf => (hplain f hf).1
  have hoptional := fun f hf => (hplain f hf).2
  obtain ⟨hlisted, hkeys⟩ := answers_entries ("struct " ++ name) "field identifier" p
  cases hes : Yaml.readEntriesAs ("struct " ++ name) "field identifier" p with
  | error e =>
      rw [hes] at hlisted
      rw [readRecord_of_unlisted hes]
      refine ⟨fun h => absurd h hlisted.error, ?_⟩
      rintro ⟨key, v, s, hv, -⟩
      obtain ⟨es, hes'⟩ := Part.readEntriesAs_of_under? hv ("struct " ++ name) "field identifier"
      rw [hes] at hes'
      cases hes'
  | ok es =>
      have hbefore : ∀ key, readRecord name fields start (p.before key) =
          (readEntries fields (entriesBefore key es) [] start).map (·.2) :=
        fun key => readRecord_eq hoptional (Part.readEntriesAs_before hes key)
      have hentries : readRecord name fields start p = .error .spanOverflow ↔
          readEntries fields es [] start = .error .spanOverflow := by
        rw [readRecord_eq hoptional hes]
        cases readEntries fields es [] start <;> simp [Except.map]
      rw [hentries, readEntries_eq_error_iff halias (hkeys es hes) nofun]
      constructor
      · rintro ⟨f, v, seen, s, hf, -, hv, hread, hstop⟩
        have hmem : f ∈ fields := List.mem_of_find?_eq_some hf
        refine ⟨f.name, v, s, ?_, (hfields f hmem v s).1 hstop, ?_⟩
        · rw [← Part.valueOf?_of_readEntriesAs hes, hv]
        · rw [hbefore, hread]
          rfl
      · rintro ⟨key, v, s, hv, hstop, hread⟩
        obtain ⟨f, hf, rfl⟩ := exists_find? halias (hnamed key v hstop)
        have hmem : f ∈ fields := List.mem_of_find?_eq_some hf
        rw [hbefore] at hread
        cases hfound : readEntries fields (entriesBefore f.name es) [] start with
        | error e =>
            rw [hfound] at hread
            cases hread
        | ok found =>
            rw [hfound] at hread
            cases hread
            refine ⟨f, v, found.1, found.2, hf, List.not_mem_nil, ?_, hfound,
              (hfields f hmem v found.2).2 hstop⟩
            rw [Part.valueOf?_of_readEntriesAs hes, hv]

end Records

/-! ### The configuration -/

/-- The timers that are durations, by their keys. -/
def TimerConfig.durations : List (String × (TimerConfig → Duration)) :=
  [("registration_interval", (·.registrationInterval)), ("warmup_interval", (·.warmupInterval)),
    ("settle_window", (·.settleWindow)), ("takeover_delay", (·.takeoverDelay)),
    ("watch_interval", (·.watchInterval))]

/-- The durations of discovery, by their keys. -/
def DiscoveryConfig.durations : List (String × (DiscoveryConfig → Duration)) :=
  [("keepalive_interval", (·.keepaliveInterval)), ("request_timeout", (·.requestTimeout)),
    ("reconnect_delay", (·.reconnectDelay)), ("etcd_backoff_initial", (·.backoffInitial)),
    ("etcd_backoff_max", (·.backoffMax)), ("etcd_backoff_max_elapsed", (·.backoffMaxElapsed))]

/-- A section has a duration that is too long, and everything before it can be read. -/
def Oversteps {S : Type} (read : Part → Decoded S) (durations : List String) (p : Part) : Prop :=
  ∃ key v s, p.under? key = some v ∧ (key ∈ durations ∧ TooLong v) ∧ read (p.before key) = .ok s

/-- An optional field stops the program exactly if its value does. -/
theorem Field.read_optional_stops_iff {S α : Type} (name : String) (read : Part → Decoded α)
    (put : S → α → S) (v : Part) (s : S) :
    (optional name read put).read v s = .error .spanOverflow ↔ read v = .error .spanOverflow := by
  show (read v).map (put s) = _ ↔ _
  cases read v <;> simp [Except.map]

/-- Reading the timers stops the program exactly if they have a duration that is too long. -/
theorem timers_stop_iff (p : Part) :
    TimerConfig.read p = .error .spanOverflow ↔
      Oversteps TimerConfig.read (TimerConfig.durations.map (·.1)) p := by
  refine readRecord_stops_iff (fun key v =>
    key ∈ TimerConfig.durations.map (·.1) ∧ TooLong v) ?_ ?_ ?_
  · simp [TimerConfig.fields, Field.optional]
  · have hattempts : ∀ v : Part,
        Format.unsigned "u32" (Nat.pow 2 32) v ≠ .error .spanOverflow := answers_unsigned _ _
    simp [TimerConfig.fields, TimerConfig.durations, Field.read_optional_stops_iff,
      readDuration_stops_iff, hattempts]
  · have hnames : ∀ key ∈ TimerConfig.durations.map (·.1),
        key ∈ (TimerConfig.fields (V := Part)).map (·.name) := by decide
    exact fun key _ h => hnames key h.1

/-- So does reading the settings of discovery. -/
theorem discovery_stops_iff (p : Part) :
    DiscoveryConfig.read p = .error .spanOverflow ↔
      Oversteps DiscoveryConfig.read (DiscoveryConfig.durations.map (·.1)) p := by
  refine readRecord_stops_iff (fun key v =>
    key ∈ DiscoveryConfig.durations.map (·.1) ∧ TooLong v) ?_ ?_ ?_
  · simp [DiscoveryConfig.fields, Field.optional]
  · have hbackend : ∀ v : Part, Backend.read v ≠ .error .spanOverflow := answers_backend
    have hendpoints : ∀ v : Part, readList Format.text v ≠ .error .spanOverflow :=
      answers_readList answers_text
    have hlease : ∀ v : Part, Format.signed v ≠ .error .spanOverflow := answers_readCore _ _ _
    have hmultiplier : ∀ v : Part, Format.float v ≠ .error .spanOverflow := answers_float
    have hmembers : ∀ v : Part, readList Member.read v ≠ .error .spanOverflow :=
      answers_readList answers_member
    simp [DiscoveryConfig.fields, DiscoveryConfig.durations, Field.read_optional_stops_iff,
      readDuration_stops_iff, hbackend, hendpoints, hlease, hmultiplier, hmembers]
  · have hnames : ∀ key ∈ DiscoveryConfig.durations.map (·.1),
        key ∈ (DiscoveryConfig.fields (V := Part)).map (·.name) := by decide
    exact fun key _ h => hnames key h.1

/-- A section of a document has a duration that is too long, and everything before it in the
document can be read. -/
def Overruns (p : Part) : Prop :=
  ∃ key v c, p.under? key = some v ∧
    (key = "timers" ∧ Oversteps TimerConfig.read (TimerConfig.durations.map (·.1)) v ∨
      key = "discovery" ∧
        Oversteps DiscoveryConfig.read (DiscoveryConfig.durations.map (·.1)) v) ∧
    FleetConfig.read (p.before key) = .ok c

/-- Reading a document stops the program exactly if it overruns. -/
theorem read_stops_iff (p : Part) :
    FleetConfig.read p = .error .spanOverflow ↔ Overruns p := by
  refine readRecord_stops_iff (fun key v =>
    key = "timers" ∧ Oversteps TimerConfig.read (TimerConfig.durations.map (·.1)) v ∨
      key = "discovery" ∧
        Oversteps DiscoveryConfig.read (DiscoveryConfig.durations.map (·.1)) v) ?_ ?_ ?_
  · simp [FleetConfig.fields, Field.optional]
  · have hcluster : ∀ v : Part, ClusterConfig.read v ≠ .error .spanOverflow := answers_cluster
    have hapi : ∀ v : Part, ApiConfig.read v ≠ .error .spanOverflow := answers_api
    have hdevices : ∀ v : Part, readList Device.read v ≠ .error .spanOverflow :=
      answers_readList answers_device
    simp [FleetConfig.fields, Field.read_optional_stops_iff, hcluster, hapi, hdevices,
      timers_stop_iff, discovery_stops_iff]
  · rintro key v (⟨rfl, -⟩ | ⟨rfl, -⟩)
    · decide
    · decide

namespace FleetConfig

/-- The paths of the durations in a document, and where each goes. -/
def durations : List (List String × (FleetConfig → Duration)) :=
  (TimerConfig.durations.map fun t => (["timers", t.1], fun c => t.2 c.timers)) ++
    DiscoveryConfig.durations.map fun t => (["discovery", t.1], fun c => t.2 c.discovery)

/-- What is read at the path of a duration is the duration. -/
theorem readDuration_of_parse {load : String → Yaml.Loaded} {text : String} {c : FleetConfig}
    (h : parse load text = .ok c) {t : List String × (FleetConfig → Duration)}
    (ht : t ∈ durations) {v : Part} (hv : (load text).document.whole.at? t.1 = some v) :
    readDuration v = .ok (t.2 c) := by
  have hlayers := layered_of_read (parse_eq_ok_iff.1 h).2
  have hentry : ∀ {path : List String} {get : FleetConfig → Duration},
      From (some (load text).document.whole) c path readDuration get none →
        (load text).document.whole.at? path = some v → readDuration v = .ok (get c) := by
    intro path get hfrom hpath
    have hgiven : Given ((load text).document.whole.at? path) readDuration (get {}) (get c) := hfrom
    rw [hpath] at hgiven
    exact hgiven
  simp only [durations, TimerConfig.durations, DiscoveryConfig.durations, List.map_cons,
    List.map_nil, List.cons_append, List.nil_append, List.mem_cons, List.not_mem_nil,
    or_false] at ht
  rcases ht with rfl | rfl | rfl | rfl | rfl | rfl | rfl | rfl | rfl | rfl | rfl
  · exact hentry hlayers.registrationInterval hv
  · exact hentry hlayers.warmupInterval hv
  · exact hentry hlayers.settleWindow hv
  · exact hentry hlayers.takeoverDelay hv
  · exact hentry hlayers.watchInterval hv
  · exact hentry hlayers.keepaliveInterval hv
  · exact hentry hlayers.requestTimeout hv
  · exact hentry hlayers.reconnectDelay hv
  · exact hentry hlayers.backoffInitial hv
  · exact hentry hlayers.backoffMax hv
  · exact hentry hlayers.backoffMaxElapsed hv

/-- **A text stops the program exactly if a duration in it is too long**, of 2^64 seconds or more,
and everything before that can be read; of any other text there is a configuration or an error.  So
it is whatever a reader makes of the text: where the text goes wrong behind the duration, or another
document follows, the duration comes first.  In a configuration every duration that is written is
the nearest one to its number, which is none before zero and below 2^64. -/
theorem reading_stops_iff (load : String → Yaml.Loaded) (text : String) :
    (parse load text = .error (.data .spanOverflow) ↔ Overruns (load text).document.whole) ∧
    ∀ c, parse load text = .ok c →
      ∀ t ∈ durations, ∀ v, (load text).document.whole.at? t.1 = some v →
        ∃ x, Format.float v = .ok x ∧ x.IsSpan ∧ x.abs < (2 : ℚ) ^ 64 ∧
          (t.2 c).IsNearest x.abs := by
  constructor
  · rw [← read_stops_iff]
    unfold parse
    cases FleetConfig.read (load text).document.whole with
    | error e => cases e <;> simp
    | ok c => cases (load text).isWhole <;> simp
  · intro c hc t ht v hv
    have hread := readDuration_of_parse hc ht hv
    rcases readDuration_cases v with
      ⟨e, -, hother, -⟩ | ⟨-, hstop⟩ | ⟨x, hx, hspan, hshort, -, hrounded⟩
    · rw [hother] at hread
      cases hread
    · rw [hstop] at hread
      cases hread
    · rw [hrounded] at hread
      refine ⟨x, hx, hspan, hshort, ?_⟩
      rw [← Except.ok.inj hread]
      exact Duration.rounded_isNearest x

/-- A settling window of 2^64 seconds overruns, and the greatest number below that is a duration. -/
theorem reading_stops_of_word :
    Overruns (Yaml.load "timers:\n  settle_window: 18446744073709551616\n").document.whole ∧
    ∃ c, ofYaml "timers:\n  settle_window: 18446744073709549568\n" = .ok c ∧
      c.timers.settleWindow = .ofSecs 18446744073709549568 := by
  refine ⟨(reading_stops_iff Yaml.load _).1.1 (by decide +kernel), ?_⟩
  have hvalue : (ofYaml "timers:\n  settle_window: 18446744073709549568\n").toOption.map
      (·.timers.settleWindow) = some (.ofSecs 18446744073709549568) := by
    decide +kernel
  cases hread : ofYaml "timers:\n  settle_window: 18446744073709549568\n" with
  | error e =>
      rw [hread] at hvalue
      cases hvalue
  | ok c =>
      rw [hread] at hvalue
      exact ⟨c, rfl, Option.some.inj hvalue⟩

/-- A duration may be too long: 10^20 seconds stop the program, also before a second document or a
text that goes wrong, and a negative number is refused. -/
theorem exists_stopping :
    ofYaml "timers:\n  settle_window: 1e20\n" = .error (.data .spanOverflow) ∧
      ofYaml "timers:\n  settle_window: 1e20\n---\ndevices: []\n" = .error (.data .spanOverflow) ∧
      ofYaml "timers:\n  settle_window: 1e20\n]\n" = .error (.data .spanOverflow) ∧
      ofYaml "timers:\n  settle_window: -1\n" = .error (.data .notASpan) := by
  refine ⟨?_, ?_, ?_, ?_⟩ <;> decide +kernel

end FleetConfig

end FleetSharding
