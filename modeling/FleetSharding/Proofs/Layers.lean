import FleetSharding.CommandLine
import FleetSharding.Proofs.Record

/-!
# The layers of a configuration

A configuration is put together of what a file holds, what the environment says and what the options
say, each over the ones before it.  `Layered` says of every value which layer it comes from, with
what a file holds looked up in its document, by a path of keys, and not by the reading of records.

* `layered_of_read`: what is read of a document has the document's values, and where it has none,
  the default.
* `Layered.override`: the environment and the options come before what was there.
* `Layered.unique`: a configuration is settled by where its values come from.
* `Flags.load_layers`: a load fails exactly on a text that is no configuration or on a merged
  configuration that the check refuses, and what is loaded else is layered.
-/

namespace FleetSharding

open Yaml (Part)

namespace Yaml.Part

/-- The text of a scalar. -/
def text? (p : Part) : Option String :=
  match p.target with
  | .scalar _ _ text => some text
  | _ => none

/-- The value under a key of a mapping. -/
def under? (key : String) (p : Part) : Option Part :=
  match p.target with
  | .mapping _ entries =>
    (entries.find? fun e => (p.child e.1).text? == some key).map fun e => p.child e.2
  | _ => none

/-- The value at the end of a path of keys. -/
def at? : List String → Part → Option Part
  | [], p => some p
  | key :: keys, p => (p.under? key).bind (at? keys)

/-- What stands under a key is the value of the first entry with that key. -/
theorem under?_of_mapping {key : String} {p : Part} {tag : Option Text.Bytes}
    {entries : List (Node × Node)} (h : p.target = .mapping tag entries) :
    p.under? key =
      (entries.find? fun e => (p.child e.1).text? == some key).map fun e => p.child e.2 := by
  rw [under?, h]

/-- Nothing stands under a key of what is no mapping. -/
theorem under?_eq_none {key : String} {p : Part}
    (h : ∀ tag entries, p.target ≠ .mapping tag entries) : p.under? key = none := by
  unfold under?
  split
  · next htarget => exact absurd htarget (h _ _)
  · rfl

/-- A key is the text of a scalar, and nothing else is one. -/
theorem readKey_cases (what : String) (p : Part) :
    (∃ e, readKey what p = .error e ∧ p.text? = none) ∨
      ∃ text, readKey what p = .ok text ∧ p.text? = some text := by
  unfold readKey text? mismatch
  cases p.target with
  | scalar style tag text => exact Or.inr ⟨text, rfl, rfl⟩
  | _ => exact Or.inl ⟨_, rfl, rfl⟩

/-- A value is found in the same way among the entries of a document and among those that are read
of it. -/
theorem valueOf?_map_readKey (what key : String) (p : Part) (entries : List (Node × Node)) :
    valueOf? key (entries.map fun e => (readKey what (p.child e.1), p.child e.2)) =
      (entries.find? fun e => (p.child e.1).text? == some key).map fun e => p.child e.2 := by
  induction entries with
  | nil => rfl
  | cons e entries ih =>
      rw [List.map_cons]
      rcases readKey_cases what (p.child e.1) with ⟨e', hkey, htext⟩ | ⟨name, hkey, htext⟩
      · rw [hkey, valueOf?, ih, List.find?_cons_of_neg (by rw [htext]; exact Bool.false_ne_true)]
      · rw [hkey, valueOf?]
        by_cases hname : name = key
        · rw [if_pos hname, List.find?_cons_of_pos (by rw [htext, hname]; exact beq_self_eq_true _)]
          rfl
        · rw [if_neg hname, ih, List.find?_cons_of_neg (by simpa [htext] using hname)]

/-- The entries of a mapping hold what stands under its keys. -/
theorem valueOf?_of_readEntriesAs {what what' : String} {p : Part} {es : Entries Part}
    (h : readEntriesAs what what' p = .ok es) (key : String) : valueOf? key es = p.under? key := by
  unfold readEntriesAs at h
  split at h
  · next tag entries htarget =>
    cases h
    rw [under?_of_mapping htarget]
    exact valueOf?_map_readKey what' key p entries
  · next hother =>
    split at h
    · cases h
      rw [under?_eq_none hother]
      rfl
    · unfold mismatch at h
      split at h <;> cases h

end Yaml.Part

section Records

variable {S α : Type} {fields : List (Field Part S)} {key : String} {read : Part → Decoded α}
  {get : S → α}

/-- What a record of a document has at a field is what is read of the field's entry. -/
theorem Governs.of_readRecord (h : Governs fields key read get) {name : String} {start s : S}
    {p : Part} (hread : readRecord name fields start p = .ok s) :
    Given (p.under? key) read (get start) (get s) := by
  have hrecord : Format.record name p =
      (Yaml.readEntriesAs ("struct " ++ name) "field identifier" p).map RecordSource.entries := rfl
  rw [readRecord, hrecord] at hread
  cases hes : Yaml.readEntriesAs ("struct " ++ name) "field identifier" p with
  | error e =>
      rw [hes] at hread
      cases hread
  | ok es =>
      rw [hes] at hread
      simp only [Except.map, bind, Except.bind] at hread
      split at hread
      · cases hread
      · next found hentries =>
        split at hread
        · cases hread
        · cases hread
          rw [← Part.valueOf?_of_readEntriesAs hes]
          exact (h.of_readEntries hentries).2 List.not_mem_nil

end Records

/-! ### Where each value comes from -/

/-- What a document holds at a path, if there is a document. -/
def written? (doc : Option Part) (path : List String) : Option Part := doc.bind (Part.at? path)

/-- The value of a field comes from the first layer that has one: what is given, the document, and
what a configuration is by default. -/
def From {α : Type} (doc : Option Part) (c : FleetConfig) (path : List String)
    (read : Part → Decoded α) (get : FleetConfig → α) (given : Option α) : Prop :=
  match given with
  | some x => get c = x
  | none => Given (written? doc path) read (get {}) (get c)

/-- A configuration in which every field comes from the layer that it has to come from: the options
before the environment, where it can be read, before the document. -/
structure Layered (f : Flags) (env : SortedMap String) (doc : Option Part) (c : FleetConfig) :
    Prop where
  clusterId : From doc c ["cluster", "cluster_id"] Format.text (·.cluster.clusterId)
    (env.get? "CLUSTER_ID")
  nodeAddress : From doc c ["cluster", "node_address"] Format.text (·.cluster.nodeAddress)
    (f.nodeAddress.or (env.get? "NODE_ADDRESS"))
  numberOfNodes : From doc c ["cluster", "number_of_nodes"] readWord (·.cluster.numberOfNodes)
    (f.numberOfNodes.or ((env.get? "NUMBER_OF_NODES").bind Text.word?))
  initializingShards : From doc c ["cluster", "initializing_shards"] readWord
    (·.cluster.initializingShards)
    (f.initializingShards.or ((env.get? "INITIALIZING_SHARDS").bind Text.word?))
  minimumShards : From doc c ["cluster", "minimum_shards"] readWord (·.cluster.minimumShards)
    (f.minimumShards.or ((env.get? "MINIMUM_SHARDS").bind Text.word?))
  backend : From doc c ["discovery", "backend"] Backend.read (·.discovery.backend)
    (f.backend.or ((env.get? "DISCOVERY_BACKEND").bind Backend.ofText?))
  etcdEndpoints : From doc c ["discovery", "etcd_endpoints"] (readList Format.text)
    (·.discovery.etcdEndpoints) ((env.get? "ETCD_ENDPOINTS").map FleetConfig.endpointsOf)
  bindAddr : From doc c ["api", "bind_addr"] Format.text (·.api.bindAddr)
    (f.bindAddr.or (env.get? "API_BIND_ADDR"))
  registrationAttempts : From doc c ["timers", "registration_attempts"]
    (Format.unsigned "u32" (Nat.pow 2 32)) (·.timers.registrationAttempts) none
  registrationInterval : From doc c ["timers", "registration_interval"] readDuration
    (·.timers.registrationInterval) none
  warmupInterval : From doc c ["timers", "warmup_interval"] readDuration
    (·.timers.warmupInterval) none
  settleWindow : From doc c ["timers", "settle_window"] readDuration (·.timers.settleWindow) none
  takeoverDelay : From doc c ["timers", "takeover_delay"] readDuration
    (·.timers.takeoverDelay) none
  watchInterval : From doc c ["timers", "watch_interval"] readDuration
    (·.timers.watchInterval) none
  leaseTtl : From doc c ["discovery", "lease_ttl"] Format.signed (·.discovery.leaseTtl) none
  keepaliveInterval : From doc c ["discovery", "keepalive_interval"] readDuration
    (·.discovery.keepaliveInterval) none
  requestTimeout : From doc c ["discovery", "request_timeout"] readDuration
    (·.discovery.requestTimeout) none
  reconnectDelay : From doc c ["discovery", "reconnect_delay"] readDuration
    (·.discovery.reconnectDelay) none
  backoffInitial : From doc c ["discovery", "etcd_backoff_initial"] readDuration
    (·.discovery.backoffInitial) none
  backoffMax : From doc c ["discovery", "etcd_backoff_max"] readDuration
    (·.discovery.backoffMax) none
  backoffMaxElapsed : From doc c ["discovery", "etcd_backoff_max_elapsed"] readDuration
    (·.discovery.backoffMaxElapsed) none
  backoffMultiplier : From doc c ["discovery", "etcd_backoff_multiplier"] Format.float
    (·.discovery.backoffMultiplier) none
  staticMembers : From doc c ["discovery", "static_members"] (readList Member.read)
    (·.discovery.staticMembers) none
  enabled : From doc c ["api", "enabled"] Format.boolean (·.api.enabled) none
  devices : From doc c ["devices"] (readList Device.read) (·.devices) none

section Overridden

variable {α : Type} (env : SortedMap String) (name : String)

/-- A variable that can always be read is overridden by its value. -/
theorem overridden_map (read : String → α) (old : α) :
    FleetConfig.overridden env name (fun s => some (read s)) old =
      ((env.get? name).map read).getD old := by
  rw [FleetConfig.overridden]
  cases env.get? name <;> rfl

/-- A variable that is a text is overridden by it. -/
theorem overridden_some (old : String) :
    FleetConfig.overridden env name some old = (env.get? name).getD old := by
  rw [FleetConfig.overridden, Option.bind_fun_some]

/-- An option comes before the variable, and that before what was there. -/
theorem getD_overridden_some (flag : Option String) (old : String) :
    flag.getD (FleetConfig.overridden env name some old) =
      (flag.or (env.get? name)).getD old := by
  rw [overridden_some, Option.getD_or]

end Overridden

section From

variable {α : Type} {doc : Option Part} {c c' : FleetConfig} {path : List String}
  {read : Part → Decoded α} {get : FleetConfig → α} {given : Option α}

/-- Where a value comes from says what it is. -/
theorem From.unique (h : From doc c path read get given) (h' : From doc c' path read get given) :
    get c = get c' := by
  cases given with
  | some x =>
      have hx : get c = x := h
      exact hx.trans (Eq.symm h')
  | none =>
      have hentry : Given (written? doc path) read (get {}) (get c) := h
      have hentry' : Given (written? doc path) read (get {}) (get c') := h'
      cases hw : written? doc path with
      | some v =>
          rw [hw] at hentry hentry'
          exact Except.ok.inj (Eq.trans (Eq.symm hentry) hentry')
      | none =>
          rw [hw] at hentry hentry'
          exact Eq.trans hentry (Eq.symm hentry')

/-- What is given comes before what was there. -/
theorem From.override (h : From doc c path read get none) (hc : get c' = given.getD (get c)) :
    From doc c' path read get given := by
  cases given with
  | some x => exact hc
  | none =>
      have hsame : get c' = get c := hc
      show Given (written? doc path) read (get {}) (get c')
      rw [hsame]
      exact h

end From

section Read

variable {α : Type} {p : Part} {c : FleetConfig}

/-- A value of a section comes from the section's entry. -/
theorem from_section {Sec : Type} {fields : List (Field Part Sec)} {label name key : String}
    {sec : FleetConfig → Sec} {read : Part → Decoded α} (get : Sec → α)
    (hread : FleetConfig.read p = .ok c)
    (hsec : Governs FleetConfig.fields name (readRecord label fields (sec {})) sec)
    (hfield : Governs fields key read get) :
    From (some p) c [name, key] read (fun c => get (sec c)) none := by
  have hpath : written? (some p) [name, key] =
      (p.under? name).bind fun v => (v.under? key).bind some := rfl
  have hentry : Given (p.under? name) (readRecord label fields (sec {})) (sec {}) (sec c) :=
    hsec.of_readRecord hread
  show Given (written? (some p) [name, key]) read (get (sec {})) (get (sec c))
  rw [hpath]
  cases hv : p.under? name with
  | none =>
      rw [hv] at hentry
      exact congrArg get hentry
  | some v =>
      rw [hv] at hentry
      rw [Option.bind_some, Option.bind_fun_some]
      exact hfield.of_readRecord hentry

/-- **A configuration that was read of a document has what the document holds**, and where it holds
nothing, the default. -/
theorem layered_of_read (h : FleetConfig.read p = .ok c) : Layered {} .empty (some p) c := by
  have hcluster : Governs FleetConfig.fields "cluster" (ClusterConfig.read (V := Part))
      (·.cluster) := by
    constructor <;> simp [FleetConfig.fields]
  have htimers : Governs FleetConfig.fields "timers" (TimerConfig.read (V := Part)) (·.timers) := by
    constructor <;> simp [FleetConfig.fields]
  have hdiscovery : Governs FleetConfig.fields "discovery" (DiscoveryConfig.read (V := Part))
      (·.discovery) := by
    constructor <;> simp [FleetConfig.fields]
  have hapi : Governs FleetConfig.fields "api" (ApiConfig.read (V := Part)) (·.api) := by
    constructor <;> simp [FleetConfig.fields]
  have hdevices : From (some p) c ["devices"] (readList Device.read) (·.devices) none := by
    show Given ((p.under? "devices").bind some) (readList Device.read) [] c.devices
    rw [Option.bind_fun_some]
    exact Governs.of_readRecord (by constructor <;> simp [FleetConfig.fields]) h
  refine {
    clusterId := from_section ClusterConfig.clusterId h hcluster ?_
    nodeAddress := from_section ClusterConfig.nodeAddress h hcluster ?_
    numberOfNodes := from_section ClusterConfig.numberOfNodes h hcluster ?_
    initializingShards := from_section ClusterConfig.initializingShards h hcluster ?_
    minimumShards := from_section ClusterConfig.minimumShards h hcluster ?_
    registrationAttempts := from_section TimerConfig.registrationAttempts h htimers ?_
    registrationInterval := from_section TimerConfig.registrationInterval h htimers ?_
    warmupInterval := from_section TimerConfig.warmupInterval h htimers ?_
    settleWindow := from_section TimerConfig.settleWindow h htimers ?_
    takeoverDelay := from_section TimerConfig.takeoverDelay h htimers ?_
    watchInterval := from_section TimerConfig.watchInterval h htimers ?_
    backend := from_section DiscoveryConfig.backend h hdiscovery ?_
    etcdEndpoints := from_section DiscoveryConfig.etcdEndpoints h hdiscovery ?_
    leaseTtl := from_section DiscoveryConfig.leaseTtl h hdiscovery ?_
    keepaliveInterval := from_section DiscoveryConfig.keepaliveInterval h hdiscovery ?_
    requestTimeout := from_section DiscoveryConfig.requestTimeout h hdiscovery ?_
    reconnectDelay := from_section DiscoveryConfig.reconnectDelay h hdiscovery ?_
    backoffInitial := from_section DiscoveryConfig.backoffInitial h hdiscovery ?_
    backoffMax := from_section DiscoveryConfig.backoffMax h hdiscovery ?_
    backoffMaxElapsed := from_section DiscoveryConfig.backoffMaxElapsed h hdiscovery ?_
    backoffMultiplier := from_section DiscoveryConfig.backoffMultiplier h hdiscovery ?_
    staticMembers := from_section DiscoveryConfig.staticMembers h hdiscovery ?_
    bindAddr := from_section ApiConfig.bindAddr h hapi ?_
    enabled := from_section ApiConfig.enabled h hapi ?_
    devices := hdevices }
  -- The rest asks for each field whether it is the only one of its section with its name.
  all_goals
    constructor <;>
      simp [ClusterConfig.fields, TimerConfig.fields, DiscoveryConfig.fields, ApiConfig.fields]

end Read

namespace Layered

variable {f : Flags} {env : SortedMap String} {doc : Option Part} {c c' : FleetConfig}

/-- Where everything comes from says what a configuration is. -/
theorem unique (h : Layered f env doc c) (h' : Layered f env doc c') : c = c' := by
  rcases c with ⟨⟨_, _, _, _, _⟩, ⟨_, _, _, _, _, _⟩, ⟨_, _, _, _, _, _, _, _, _, _, _⟩, ⟨_, _⟩, _⟩
  rcases c' with ⟨⟨_, _, _, _, _⟩, ⟨_, _, _, _, _, _⟩, ⟨_, _, _, _, _, _, _, _, _, _, _⟩, ⟨_, _⟩, _⟩
  simp only [FleetConfig.mk.injEq, ClusterConfig.mk.injEq, TimerConfig.mk.injEq,
    DiscoveryConfig.mk.injEq, ApiConfig.mk.injEq]
  exact ⟨⟨h.clusterId.unique h'.clusterId, h.nodeAddress.unique h'.nodeAddress,
      h.numberOfNodes.unique h'.numberOfNodes, h.initializingShards.unique h'.initializingShards,
      h.minimumShards.unique h'.minimumShards⟩,
    ⟨h.registrationAttempts.unique h'.registrationAttempts,
      h.registrationInterval.unique h'.registrationInterval,
      h.warmupInterval.unique h'.warmupInterval, h.settleWindow.unique h'.settleWindow,
      h.takeoverDelay.unique h'.takeoverDelay, h.watchInterval.unique h'.watchInterval⟩,
    ⟨h.backend.unique h'.backend, h.etcdEndpoints.unique h'.etcdEndpoints,
      h.leaseTtl.unique h'.leaseTtl, h.keepaliveInterval.unique h'.keepaliveInterval,
      h.requestTimeout.unique h'.requestTimeout, h.reconnectDelay.unique h'.reconnectDelay,
      h.backoffInitial.unique h'.backoffInitial, h.backoffMax.unique h'.backoffMax,
      h.backoffMaxElapsed.unique h'.backoffMaxElapsed,
      h.backoffMultiplier.unique h'.backoffMultiplier, h.staticMembers.unique h'.staticMembers⟩,
    ⟨h.enabled.unique h'.enabled, h.bindAddr.unique h'.bindAddr⟩, h.devices.unique h'.devices⟩

/-- Without a document, and with nothing given, everything is as it is by default. -/
theorem default_of_none : Layered {} .empty none {} := by
  constructor <;> rfl

/-- What the environment and the options give comes before what was there. -/
theorem override (h : Layered {} .empty doc c) (f : Flags) (env : SortedMap String) :
    Layered f env doc ((c.withEnv env).withFlags f) where
  clusterId := h.clusterId.override (overridden_some ..)
  nodeAddress := h.nodeAddress.override (getD_overridden_some ..)
  numberOfNodes := h.numberOfNodes.override Option.getD_or.symm
  initializingShards := h.initializingShards.override Option.getD_or.symm
  minimumShards := h.minimumShards.override Option.getD_or.symm
  backend := h.backend.override Option.getD_or.symm
  etcdEndpoints := h.etcdEndpoints.override (overridden_map ..)
  bindAddr := h.bindAddr.override (getD_overridden_some ..)
  registrationAttempts := h.registrationAttempts
  registrationInterval := h.registrationInterval
  warmupInterval := h.warmupInterval
  settleWindow := h.settleWindow
  takeoverDelay := h.takeoverDelay
  watchInterval := h.watchInterval
  leaseTtl := h.leaseTtl
  keepaliveInterval := h.keepaliveInterval
  requestTimeout := h.requestTimeout
  reconnectDelay := h.reconnectDelay
  backoffInitial := h.backoffInitial
  backoffMax := h.backoffMax
  backoffMaxElapsed := h.backoffMaxElapsed
  backoffMultiplier := h.backoffMultiplier
  staticMembers := h.staticMembers
  enabled := h.enabled
  devices := h.devices

end Layered

/-! ### Loading -/

/-- Only a duration that is too long stops the program. -/
theorem LoadFailure.exit_ne_crash {e : LoadFailure}
    (h : ∀ path, e ≠ .unparsable path (.data .spanOverflow)) : e.exit ≠ .crash := by
  intro hcrash
  have hcode : e.exit.code = 101 := congrArg Exit.code hcrash
  unfold LoadFailure.exit at hcode
  split at hcode
  · cases hcode
  · next path => exact h path rfl
  · cases hcode
  · cases hcode

/-- A text has a configuration if it is one document and that holds it. -/
theorem FleetConfig.parse_eq_ok_iff {load : String → Yaml.Loaded} {text : String}
    {c : FleetConfig} :
    parse load text = .ok c ↔
      (load text).isWhole = true ∧ FleetConfig.read (load text).document.whole = .ok c := by
  unfold parse
  cases FleetConfig.read (load text).document.whole with
  | error e => cases e <;> simp
  | ok c' =>
      cases hwhole : (load text).isWhole
      · simp
      · simp

namespace Flags

variable {f : Flags} {file : String → Option String} {env : SortedMap String}

/-- The document in the file that the options name. -/
def document? (f : Flags) (file : String → Option String) : Option Part :=
  ((f.config.bind file).bind Yaml.Document.ofString?).map Yaml.Document.whole

/-- The file is there, if one is named, and reading its document comes to an end. -/
def Readable (f : Flags) (file : String → Option String) : Prop :=
  ∀ path, f.config = some path →
    ∃ text, file path = some text ∧ FleetConfig.ofYaml text ≠ .error (.data .spanOverflow)

/-- The file's text is no configuration. -/
def Misread (f : Flags) (file : String → Option String) : Prop :=
  ∃ path text fault,
    f.config = some path ∧ file path = some text ∧ FleetConfig.ofYaml text = .error fault

/-- Loading comes back with an error. -/
def Fails (f : Flags) (file : String → Option String) (env : SortedMap String) : Prop :=
  ∃ e, f.load file env = .error e ∧ e.exit ≠ .crash

/-- What is read of a file is the configuration in its text. -/
theorem readFile_eq {path text : String} (hconfig : f.config = some path)
    (htext : file path = some text) :
    f.readFile file = (FleetConfig.ofYaml text).mapError (.unparsable path) := by
  simp only [readFile, hconfig, htext]

/-- A text that is no configuration is not read. -/
theorem Misread.readFile_ne_ok (h : f.Misread file) (c : FleetConfig) :
    f.readFile file ≠ .ok c := by
  obtain ⟨path, text, fault, hconfig, htext, hyaml⟩ := h
  rw [readFile_eq hconfig htext, hyaml]
  nofun

/-- What the text of a file holds is what its document holds. -/
theorem layered_of_ofYaml {text : String} {c : FleetConfig}
    (h : FleetConfig.ofYaml text = .ok c) :
    Layered {} .empty ((Yaml.Document.ofString? text).map Yaml.Document.whole) c := by
  obtain ⟨hwhole, hread⟩ := FleetConfig.parse_eq_ok_iff.1 h
  rw [Yaml.Document.ofString?, if_pos hwhole, Option.map_some]
  exact layered_of_read hread

/-- A file is read, and its values are those of its document, or its text is no configuration. -/
theorem readFile_cases (h : f.Readable file) :
    (∃ base, f.readFile file = .ok base ∧ Layered {} .empty (f.document? file) base) ∨
      f.Misread file ∧ ∃ path fault, f.readFile file = .error (.unparsable path fault) ∧
        fault ≠ .data .spanOverflow := by
  cases hconfig : f.config with
  | none =>
      have hread : f.readFile file = .ok {} := by rw [readFile, hconfig]
      have hdoc : f.document? file = none := by rw [document?, hconfig]; rfl
      exact Or.inl ⟨{}, hread, hdoc ▸ .default_of_none⟩
  | some path =>
      obtain ⟨text, htext, hends⟩ := h path hconfig
      have hread := readFile_eq hconfig htext
      have hdoc : f.document? file =
          (Yaml.Document.ofString? text).map Yaml.Document.whole := by
        rw [document?, hconfig, Option.bind_some, htext, Option.bind_some]
      cases hyaml : FleetConfig.ofYaml text with
      | error fault =>
          rw [hyaml] at hread
          refine Or.inr ⟨⟨path, text, fault, hconfig, htext, hyaml⟩, path, fault, hread, ?_⟩
          rintro rfl
          exact hends hyaml
      | ok base =>
          rw [hyaml] at hread
          exact Or.inl ⟨base, hread, hdoc ▸ layered_of_ofYaml hyaml⟩

/-- What is read is overridden, and then checked. -/
theorem load_eq {base : FleetConfig} (h : f.readFile file = .ok base) :
    f.load file env =
      match ((base.withEnv env).withFlags f).check with
      | .ok _ => .ok ((base.withEnv env).withFlags f)
      | .error e => .error (.invalid e) := by
  simp only [load, h, bind, Except.bind]
  cases ((base.withEnv env).withFlags f).check <;> rfl

/-- What cannot be read cannot be loaded. -/
theorem load_eq_error {e : LoadFailure} (h : f.readFile file = .error e) :
    f.load file env = .error e := by
  simp only [load, h, bind, Except.bind]

/-- **Every value comes from its layer, and the whole is checked.**  With a file that is there and
can be read to its end, or none, loading fails exactly if the file's text is no configuration or the
check refuses the configuration that is put together; otherwise that one is loaded.  It has of the
options what they say, else of the environment what it says and can be read, else what the document
holds, and the default where it holds nothing. -/
theorem load_layers (hfile : f.Readable file) :
    (f.Fails file env ↔
      f.Misread file ∨ ∃ c, Layered f env (f.document? file) c ∧ ∃ e, c.check = .error e) ∧
    (¬ f.Fails file env →
      ∃ c, f.load file env = .ok c ∧ Layered f env (f.document? file) c) := by
  rcases readFile_cases hfile with ⟨base, hread, hbase⟩ | ⟨hmisread, path, fault, hread, hends⟩
  · have hmerged : Layered f env (f.document? file) ((base.withEnv env).withFlags f) :=
      hbase.override f env
    have hload : f.load file env = _ := load_eq hread
    cases hcheck : ((base.withEnv env).withFlags f).check with
    | ok _ =>
        rw [hcheck] at hload
        have hnot : ¬ f.Fails file env := by
          rintro ⟨e, he, -⟩
          cases hload.symm.trans he
        refine ⟨⟨fun hfails => absurd hfails hnot, ?_⟩, fun _ => ⟨_, hload, hmerged⟩⟩
        rintro (hmisread | ⟨c, hc, e, he⟩)
        · exact absurd hread (hmisread.readFile_ne_ok base)
        · rw [hc.unique hmerged, hcheck] at he
          cases he
    | error e =>
        rw [hcheck] at hload
        have hfails : f.Fails file env := ⟨.invalid e, hload, LoadFailure.exit_ne_crash nofun⟩
        exact ⟨⟨fun _ => Or.inr ⟨_, hmerged, e, hcheck⟩, fun _ => hfails⟩,
          fun hnot => absurd hfails hnot⟩
  · have hfails : f.Fails file env := by
      refine ⟨_, load_eq_error hread, LoadFailure.exit_ne_crash fun path' heq => hends ?_⟩
      cases heq
      rfl
    exact ⟨⟨fun _ => Or.inl hmisread, fun _ => hfails⟩, fun hnot => absurd hfails hnot⟩

/-- Options that name a file, and another number than the file has. -/
def flagsOfFile : Flags := { config := some "fleet.yaml", minimumShards := some 1 }

/-- What its file says. -/
def textOfFleet : String :=
  "cluster:\n  number_of_nodes: 5\n  minimum_shards: 2\n  initializing_shards: 4\n"

/-- The only file there is. -/
def fileOfFleet (path : String) : Option String :=
  if path = "fleet.yaml" then some textOfFleet else none

/-- An environment with a number that cannot be read. -/
def environmentOfFleet : SortedMap String :=
  ((SortedMap.empty.insert "ETCD_ENDPOINTS" " a:2379,, b:2379 ").insert
    "MINIMUM_SHARDS" "3").insert "NUMBER_OF_NODES" "three"

/-- An option is before the environment, a variable before the default, and a variable that cannot
be read leaves what the file says. -/
theorem load_layers_of_file :
    flagsOfFile.Readable fileOfFleet ∧
      ∃ c, flagsOfFile.load fileOfFleet environmentOfFleet = .ok c ∧
        Layered flagsOfFile environmentOfFleet (flagsOfFile.document? fileOfFleet) c ∧
        (c.cluster.minimumShards, c.cluster.numberOfNodes, c.cluster.initializingShards) =
          (1, 5, 4) ∧
        c.discovery.etcdEndpoints = ["a:2379", "b:2379"] := by
  have hvalues :
      (flagsOfFile.load fileOfFleet environmentOfFleet).toOption.map (fun c =>
        ((c.cluster.minimumShards, c.cluster.numberOfNodes, c.cluster.initializingShards),
          c.discovery.etcdEndpoints)) =
        some ((1, 5, 4), ["a:2379", "b:2379"]) := by
    decide +kernel
  have hreadable : flagsOfFile.Readable fileOfFleet := by
    intro path hpath
    cases hpath
    refine ⟨textOfFleet, rfl, fun herror => ?_⟩
    have hread : flagsOfFile.readFile fileOfFleet = _ := readFile_eq rfl rfl
    rw [herror] at hread
    rw [load_eq_error hread] at hvalues
    cases hvalues
  have hnot : ¬ flagsOfFile.Fails fileOfFleet environmentOfFleet := by
    rintro ⟨e, he, -⟩
    rw [he] at hvalues
    cases hvalues
  obtain ⟨c, hc, hlayers⟩ := (load_layers hreadable).2 hnot
  rw [hc] at hvalues
  obtain ⟨hshards, hendpoints⟩ := Prod.mk.inj (Option.some.inj hvalues)
  exact ⟨hreadable, c, hc, hlayers, hshards, hendpoints⟩

end Flags

end FleetSharding
