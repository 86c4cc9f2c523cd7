import FleetSharding.Proofs.Coordinator.Turn

/-!
# The outlook and the latest decision

The outlook of a coordinator depends on its past only through the latest decision: on which members
it was made says which filters are in, whether collection is suspended, and what is published.

* `rebalanced_eq`, `takenOver_eq`: what the two kinds of decision write, in one piece.
* `Accords`: what an outlook has to be, given the stage, the slot and the latest decision.
* `accords_of_turn`, `accords_of_run`: turns keep it, so every run has it as long as no decision was
  cut short, and again once everything is released.
-/

namespace FleetSharding

namespace Standing

variable {cluster : ClusterConfig} {slot : Nat} {members : List Member} {s : Standing}

/-- Reports write nothing. -/
theorem carryOut_reports (nodes : Nat) (s : Standing) (events : List Event) :
    s.carryOut slot nodes (events.map .report) = s := by
  refine carryOut_of_finished s ?_
  have hreports : ∀ a ∈ events.map Action.report, a.isWrite = false := by
    intro a ha
    obtain ⟨e, -, rfl⟩ := List.mem_map.1 ha
    rfl
  rw [← List.append_nil (events.map Action.report)]
  exact unfinished_append hreports rfl

/-- The takeover writes one filter. -/
theorem carryOut_takeoverActions (nodes : Nat) (s : Standing) (slots : SlotMap)
    (source : String) :
    s.carryOut slot nodes (takeoverActions slot slots source) =
      { s with registry := s.registry.add extraFilter (slots.takeover slot) } := by
  unfold takeoverActions
  split <;> rfl

/-- What a decision of the steady loop writes: with enough healthy members both filters, the main
one only if it was removed before; else none. -/
theorem rebalanced_eq (cluster : ClusterConfig) (slot : Nat) (members : List Member)
    (s : Standing) :
    s.rebalanced cluster slot members =
      let slots := SlotMap.ofMembers cluster.numberOfNodes members
      let healthy := healthyCount members
      (if cluster.minimumShards ≤ healthy then
        { s with
          registry :=
            (if s.suspended then
              s.registry.add mainFilter (mainShard slot cluster.numberOfNodes)
            else s.registry).add extraFilter (slots.takeover slot)
          suspended := false }
      else
        { s with
          registry := (s.registry.remove mainFilter).remove extraFilter
          suspended := true }).publish
        (.decided (decidedPhase slots healthy cluster.minimumShards) healthy slots.failed) := by
  have hord : ∀ a ∈ rebalanceActions cluster slot s.suspended members, a.isOrdinary = true :=
    fun a => Coordinator.isOrdinary_of_mem_rebalanceActions
  unfold rebalanceActions at hord
  dsimp only at hord
  have hdone := fun a ha => hord a (List.mem_append_left _ ha)
  have hseen := fun a ha => hdone a (List.mem_append_left _ ha)
  unfold rebalanced rebalanceActions
  dsimp only
  rw [carryOut_append _ hdone, carryOut_append _ hseen,
    carryOut_append _ fun a ha => hseen a (List.mem_append_left _ ha), carryOut_reports]
  by_cases henough : cluster.minimumShards ≤ healthyCount members
  · rw [if_pos henough, if_pos henough,
      carryOut_append _ fun a ha => hdone a (List.mem_append_right _ (by
        rw [if_pos henough]
        exact List.mem_append_left _ ha)), carryOut_takeoverActions]
    obtain ⟨registry, suspended, status⟩ := s
    cases suspended <;> rfl
  · rw [if_neg henough, if_neg henough]
    obtain ⟨registry, suspended, status⟩ := s
    cases suspended <;> rfl

/-- What the delayed strand writes when it takes over. -/
theorem takenOver_eq
    (hfailed : (SlotMap.ofMembers cluster.numberOfNodes members).allPassing = false)
    (henough : cluster.minimumShards ≤ healthyCount members) :
    s.takenOver cluster slot members =
      let slots := SlotMap.ofMembers cluster.numberOfNodes members
      { s with registry := s.registry.add extraFilter (slots.takeover slot) }.publish
        (.decided .takenOver (healthyCount members) slots.failed) := by
  have hacts : ¬ ((SlotMap.ofMembers cluster.numberOfNodes members).allPassing = true ∨
      healthyCount members < cluster.minimumShards) := by
    rw [hfailed, not_or]
    exact ⟨nofun, Nat.not_lt.2 henough⟩
  unfold takenOver delayedActions
  dsimp only
  rw [if_neg hacts, carryOut_cons s (by nofun),
    carryOut_append _ fun a ha => (Coordinator.ofDecision_of_mem_takeoverActions ha).isOrdinary,
    carryOut_takeoverActions]
  rfl

/-- A decision leaves the address in the cluster alone, and publishes the filters that it leaves. -/
theorem status_rebalanced (cluster : ClusterConfig) (slot : Nat) (members : List Member)
    (s : Standing) :
    (s.rebalanced cluster slot members).status.nodes = s.status.nodes ∧
      (s.rebalanced cluster slot members).status.shardId = s.status.shardId ∧
      (s.rebalanced cluster slot members).status.filters =
        (s.rebalanced cluster slot members).registry.names := by
  rw [rebalanced_eq]
  dsimp only
  split <;> exact ⟨rfl, rfl, rfl⟩

/-- A takeover leaves the nodes and the slot of the status, and publishes the filters that it has
installed. -/
theorem status_takenOver
    (hfailed : (SlotMap.ofMembers cluster.numberOfNodes members).allPassing = false)
    (henough : cluster.minimumShards ≤ healthyCount members) (s : Standing) (slot : Nat) :
    (s.takenOver cluster slot members).status.nodes = s.status.nodes ∧
      (s.takenOver cluster slot members).status.shardId = s.status.shardId ∧
      (s.takenOver cluster slot members).status.filters =
        (s.takenOver cluster slot members).registry.names := by
  rw [takenOver_eq hfailed henough]
  exact ⟨rfl, rfl, rfl⟩

/-- Nothing is collected, and nothing was decided. -/
structure Blank (s : Standing) : Prop where
  holds : s.registry.Holds none none
  awake : s.suspended = false
  failed : s.status.failedSlots = []

/-- The main shard has gone in, and nothing was decided since. -/
structure Entered (slot nodes : Nat) (s : Standing) : Prop where
  holds : s.registry.Holds (some (mainShard slot nodes)) none
  awake : s.suspended = false
  phase : s.status.phase = .steady
  failed : s.status.failedSlots = []

/-- The filters, the flag and the status are those of a decision on a list of members. -/
structure Decided (cluster : ClusterConfig) (slot : Nat) (members : List Member) (s : Standing) :
    Prop where
  holds : s.registry.Holds
    (if cluster.minimumShards ≤ healthyCount members then
      some (mainShard slot cluster.numberOfNodes) else none)
    (if cluster.minimumShards ≤ healthyCount members then
      some ((SlotMap.ofMembers cluster.numberOfNodes members).takeover slot) else none)
  suspended : s.suspended = decide (healthyCount members < cluster.minimumShards)
  phase : s.status.phase = decidedPhase (SlotMap.ofMembers cluster.numberOfNodes members)
    (healthyCount members) cluster.minimumShards
  healthy : s.status.healthyMembers = healthyCount members
  failed : s.status.failedSlots = (SlotMap.ofMembers cluster.numberOfNodes members).failed

/-- What there is in the steady loop, by the latest decision. -/
def Settled (cluster : ClusterConfig) (slot : Nat) (s : Standing) : Option Decision → Prop
  | none => s.Entered slot cluster.numberOfNodes
  | some d => s.Decided cluster slot d.members

/-- The main filter is in unless collection is suspended: what decisions rely on. -/
def Poised (slot nodes : Nat) (s : Standing) : Prop :=
  ∃ extra, s.registry.Holds (if s.suspended then none else some (mainShard slot nodes)) extra

/-- What was decided has the filters that the next decision may start from. -/
theorem Settled.poised {last : Option Decision} (h : s.Settled cluster slot last) :
    s.Poised slot cluster.numberOfNodes := by
  cases last with
  | none =>
      have hentered : s.Entered slot cluster.numberOfNodes := h
      refine ⟨none, ?_⟩
      rw [hentered.awake]
      exact hentered.holds
  | some d =>
      have hdecided : s.Decided cluster slot d.members := h
      have hmain := hdecided.holds
      rw [Poised, hdecided.suspended]
      by_cases henough : cluster.minimumShards ≤ healthyCount d.members
      · rw [if_pos henough] at hmain
        rw [decide_eq_false (Nat.not_lt.2 henough)]
        exact ⟨_, hmain⟩
      · rw [if_neg henough] at hmain
        rw [decide_eq_true (Nat.not_le.1 henough)]
        exact ⟨_, hmain⟩

/-- **A decision of the steady loop leaves nothing of what was before it.** -/
theorem decided_rebalanced (h : s.Poised slot cluster.numberOfNodes) :
    (s.rebalanced cluster slot members).Decided cluster slot members := by
  obtain ⟨extra, hholds⟩ := h
  rw [rebalanced_eq]
  dsimp only
  by_cases henough : cluster.minimumShards ≤ healthyCount members
  · rw [if_pos henough]
    refine ⟨?_, (decide_eq_false (Nat.not_lt.2 henough)).symm, rfl, rfl, rfl⟩
    rw [if_pos henough, if_pos henough]
    cases hs : s.suspended with
    | true =>
        rw [hs] at hholds
        exact (hholds.addMain _).addExtra _
    | false =>
        rw [hs] at hholds
        exact hholds.addExtra _
  · rw [if_neg henough]
    refine ⟨?_, (decide_eq_true (Nat.not_le.1 henough)).symm, rfl, rfl, rfl⟩
    rw [if_neg henough, if_neg henough]
    exact hholds.removeMain.removeExtra

/-- The same holds of the takeover by the delayed strand, which looks only while collection is not
suspended. -/
theorem decided_takenOver (h : s.Poised slot cluster.numberOfNodes) (hawake : s.suspended = false)
    (hfailed : (SlotMap.ofMembers cluster.numberOfNodes members).allPassing = false)
    (henough : cluster.minimumShards ≤ healthyCount members) :
    (s.takenOver cluster slot members).Decided cluster slot members := by
  obtain ⟨extra, hholds⟩ := h
  rw [takenOver_eq hfailed henough]
  dsimp only
  refine ⟨?_, ?_, ?_, rfl, rfl⟩
  · rw [if_pos henough, if_pos henough]
    rw [hawake] at hholds
    exact hholds.addExtra _
  · rw [decide_eq_false (Nat.not_lt.2 henough)]
    exact hawake
  · rw [decidedPhase, if_pos henough, hfailed]
    rfl

/-- A standing with a main shard of its own: what there is in the steady loop. -/
structure Steadied (cluster : ClusterConfig) (slot : Nat) (last : Option Decision) (s : Standing) :
    Prop where
  settled : s.Settled cluster slot last
  shard : s.status.shardId = some slot
  lt : slot < cluster.numberOfNodes

/-- A failed query is all that is said of it. -/
theorem Steadied.fail {last : Option Decision} (h : s.Steadied cluster slot last) :
    (s.publish .discoveryFailed).Steadied cluster slot last := by
  obtain ⟨hsettled, hshard, hlt⟩ := h
  refine ⟨?_, hshard, hlt⟩
  cases last with
  | none =>
      obtain ⟨hholds, hawake, hphase, hfailed⟩ := hsettled
      exact ⟨hholds, hawake, hphase, hfailed⟩
  | some d =>
      obtain ⟨hholds, hsuspended, hphase, hhealthy, hfailed⟩ := hsettled
      exact ⟨hholds, hsuspended, hphase, hhealthy, hfailed⟩

/-- What the outlook has to be at each stage, by the latest decision. -/
def At (cluster : ClusterConfig) (slot : Nat) (last : Option Decision) (s : Standing) :
    Stage → Prop
  | .seeking => last = none ∧ s.Blank ∧ s.status.phase = .registering
  | .gated =>
    (last = none ∧ s.Blank ∧ (s.status.phase = .warmingUp ∨ s.status.phase = .settling)) ∧
      s.status.shardId = some slot ∧ slot < cluster.numberOfNodes
  | .aloft | .stopping => s.Steadied cluster slot last
  -- Whoever leaves before the steady loop has decided nothing.
  | .leaving =>
    s.Steadied cluster slot last ∨ (last = none ∧ s.Blank ∧
      (s.status.phase = .registering ∨ s.status.phase = .warmingUp ∨ s.status.phase = .settling))
  | .gone => s.registry.Holds none none ∧ s.status.phase = .stopped

/-- At every stage there are no filters but the two. -/
theorem At.holds {slot : Nat} {last : Option Decision} {g : Stage} (h : s.At cluster slot last g) :
    ∃ main extra, s.registry.Holds main extra := by
  have hsteadied : s.Steadied cluster slot last → ∃ main extra, s.registry.Holds main extra := by
    intro hs
    obtain ⟨extra, hholds⟩ := hs.settled.poised
    exact ⟨_, extra, hholds⟩
  cases g with
  | seeking => exact ⟨_, _, h.2.1.holds⟩
  | gated => exact ⟨_, _, h.1.2.1.holds⟩
  | aloft | stopping => exact hsteadied h
  | leaving =>
      rcases h with h | ⟨-, h, -⟩
      · exact hsteadied h
      · exact ⟨_, _, h.holds⟩
  | gone => exact ⟨_, _, h.1⟩

end Standing

/-- An outlook that fits the stage and the latest decision, and a status that fits the outlook. -/
structure Picture.Accords (cluster : ClusterConfig) (last : Option Decision) (v : Picture) :
    Prop where
  nodes : v.outlook.status.nodes = cluster.numberOfNodes
  filters : v.outlook.status.filters = v.outlook.registry.names
  stage : v.outlook.At cluster v.slot last v.stage

namespace Picture

variable {cluster : ClusterConfig} {last : Option Decision}

/-- The slot that is adopted is one of the cluster's. -/
theorem lt_of_ownSlot? {members : List Member} {slot : Nat}
    (h : ownSlot? cluster members = some slot) : slot < cluster.numberOfNodes := by
  obtain ⟨m, -, hm⟩ := Option.bind_eq_some_iff.1 h
  obtain ⟨-, hslot⟩ := Option.filter_eq_some_iff.1 hm
  simpa using hslot

/-- Everything is gone once it is released, whatever was there. -/
theorem accords_released {slot : Nat} {o : Standing}
    (hnodes : o.status.nodes = cluster.numberOfNodes)
    (hnames : ∃ main extra, o.registry.Holds main extra) :
    Accords cluster last ⟨.gone, slot, o.released slot cluster.numberOfNodes⟩ := by
  obtain ⟨main, extra, hholds⟩ := hnames
  exact ⟨hnodes, rfl, hholds.removeMain.removeExtra, rfl⟩

/-- **Turns keep the accord**, with the decision made in them as the latest. -/
theorem accords_of_turn {v v' : Picture} {s : Step} {d : Option Decision}
    (hturn : Turn cluster v s d v') (h : v.Accords cluster last) :
    v'.Accords cluster (d.or last) := by
  obtain ⟨hnodes, hfilters, hstage⟩ := h
  cases hturn with
  | quiet => exact ⟨hnodes, hfilters, hstage⟩
  | adopt hown =>
      obtain ⟨hlast, hblank, -⟩ := hstage
      exact ⟨hnodes, rfl, ⟨hlast, ⟨hblank.holds, hblank.awake, hblank.failed⟩, Or.inl rfl⟩, rfl,
        lt_of_ownSlot? hown⟩
  | wait =>
      obtain ⟨⟨hlast, hblank, hphase⟩, hshard⟩ := hstage
      exact ⟨hnodes, rfl, ⟨hlast, ⟨hblank.holds, hblank.awake, hblank.failed⟩, hphase⟩, hshard⟩
  | settle henough =>
      obtain ⟨⟨hlast, hblank, -⟩, hshard⟩ := hstage
      exact ⟨hnodes, rfl, ⟨hlast, ⟨hblank.holds, hblank.awake, hblank.failed⟩, Or.inr rfl⟩, hshard⟩
  | enter =>
      obtain ⟨⟨hlast, hblank, -⟩, hshard, hlt⟩ := hstage
      subst hlast
      exact ⟨hnodes, rfl, ⟨hblank.holds.addMain _, hblank.awake, rfl, hblank.failed⟩, hshard, hlt⟩
  | fail hg =>
      refine ⟨hnodes, rfl, ?_⟩
      rcases hg with rfl | hg
      · obtain ⟨⟨hlast, hblank, hphase⟩, hshard⟩ := hstage
        exact ⟨⟨hlast, ⟨hblank.holds, hblank.awake, hblank.failed⟩, hphase⟩, hshard⟩
      · rcases hg with rfl | rfl <;> exact Standing.Steadied.fail hstage
  | @rebalance slot o members =>
      obtain ⟨hsettled, hshard, hlt⟩ := hstage
      obtain ⟨hnodes', hshard', hfilters'⟩ := o.status_rebalanced cluster slot members
      exact ⟨hnodes'.trans hnodes, hfilters', Standing.decided_rebalanced hsettled.poised,
        hshard'.trans hshard, hlt⟩
  | @takeOver g slot o members hg hawake hfailed henough =>
      have hsteadied : o.Steadied cluster slot last := by
        rcases hg with rfl | rfl <;> exact hstage
      obtain ⟨hsettled, hshard, hlt⟩ := hsteadied
      obtain ⟨hnodes', hshard', hfilters'⟩ := Standing.status_takenOver hfailed henough o slot
      have hafter : (o.takenOver cluster slot members).Steadied cluster slot
          (some (.takeover members)) :=
        ⟨Standing.decided_takenOver hsettled.poised hawake hfailed henough, hshard'.trans hshard,
          hlt⟩
      refine ⟨hnodes'.trans hnodes, hfilters', ?_⟩
      rcases hg with rfl | rfl <;> exact hafter
  | halt => exact ⟨hnodes, hfilters, hstage⟩
  | leave hg =>
      refine ⟨hnodes, hfilters, ?_⟩
      rcases hg with rfl | rfl | rfl
      · obtain ⟨hlast, hblank, hphase⟩ := hstage
        exact Or.inr ⟨hlast, hblank, Or.inl hphase⟩
      · obtain ⟨⟨hlast, hblank, hphase⟩, -⟩ := hstage
        exact Or.inr ⟨hlast, hblank, Or.inr hphase⟩
      · exact Or.inl hstage
  | release => exact accords_released hnodes hstage.holds

end Picture

/-- The configured devices and the configured number of slots, and no filters but the two. -/
structure Standing.Ours (devices : List Device) (nodes : Nat) (s : Standing) : Prop where
  devices : s.registry.devices = devices
  nodes : s.status.nodes = nodes
  holds : ∃ main extra, s.registry.Holds main extra

namespace Standing.Ours

variable {devices : List Device} {n slot nodes : Nat} {s : Standing}

/-- No action changes the devices or the number of slots, or installs another filter. -/
theorem write (h : s.Ours devices n) (a : Action) : (s.write slot nodes a).Ours devices n := by
  obtain ⟨hdevices, hnodes, main, extra, hholds⟩ := h
  cases a with
  | installMain => exact ⟨hdevices, hnodes, _, _, hholds.addMain _⟩
  | installExtra => exact ⟨hdevices, hnodes, _, _, hholds.addExtra _⟩
  | removeMain => exact ⟨hdevices, hnodes, _, _, hholds.removeMain⟩
  | removeExtra | dropExtra => exact ⟨hdevices, hnodes, _, _, hholds.removeExtra⟩
  | dropMain => exact ⟨hdevices, hnodes, _, _, hholds.removeMain.removeExtra⟩
  | publish u => cases u <;> exact ⟨hdevices, hnodes, _, _, hholds⟩
  | _ => exact ⟨hdevices, hnodes, _, _, hholds⟩

/-- Nor do several, one after the other. -/
theorem carryOut (h : s.Ours devices n) (l : List Action) :
    (s.carryOut slot nodes l).Ours devices n := by
  induction l generalizing s with
  | nil => exact h
  | cons a l ih =>
      by_cases ha : a = .acquire
      · rw [ha]
        exact h
      · rw [carryOut_cons s ha]
        exact ih (h.write a)

end Standing.Ours

/-- The latest decision in a log. -/
def latestDecision : List Moment → Option Decision
  | [] => none
  | m :: log => (m.before.decision? m.step).or (latestDecision log)

/-- Whether a decision was cut short. -/
def wasInterrupted (log : List Moment) : Bool := log.any fun m => m.before.interrupts m.step

/-- Where a coordinator can be once a decision was cut short. -/
def Stage.isLast : Stage → Bool
  | .stopping | .leaving | .gone => true
  | _ => false

namespace Coordinator

variable {c c' : Coordinator}

/-- An action writes what it says, but the last removal goes on with another action. -/
theorem standing_exec (t : Task) {a : Action} (ha : a ≠ .dropMain) (c : Coordinator) :
    (exec t a c).1.standing = c.standing.write c.slot c.cluster.numberOfNodes a := by
  cases a with
  | dropMain => exact absurd rfl ha
  | unlock =>
      simp only [exec, handOver_eq]
      rfl
  | look | startTicker =>
      simp only [exec]
      split <;> rfl
  | dropExtra hadMain =>
      simp only [exec]
      split <;> cases t <;> rfl
  | sleep d => cases t <;> rfl
  | _ => rfl

/-- No action changes the configuration. -/
theorem cluster_exec (t : Task) (a : Action) (c : Coordinator) :
    (exec t a c).1.cluster = c.cluster := by
  cases a <;> cases t <;> simp only [exec, handOver_eq] <;> (try split) <;> rfl

/-- **One move makes one write at most**, and leaves the configuration alone. -/
theorem write_of_moves {s : Step} {es : List Effect} (hm : Moves c s c' es) :
    c'.cluster = c.cluster ∧
      ∃ a, c'.standing = c.standing.write c.slot c.cluster.numberOfNodes a := by
  have hgo : ∀ {d : Coordinator}, d.cluster = c.cluster ∧ d.standing = c.standing →
      d.cluster = c.cluster ∧
        ∃ a, d.standing = c.standing.write c.slot c.cluster.numberOfNodes a := by
    intro d hsame
    obtain ⟨hcluster, hstanding⟩ := hsame
    exact ⟨hcluster, .ask, hstanding⟩
  have hretry : ∀ (attempt : Nat) (l : List Action),
      (c.retry attempt l).cluster = c.cluster ∧ (c.retry attempt l).standing = c.standing := by
    intro attempt l
    unfold retry
    split <;> exact ⟨rfl, rfl⟩
  cases hm with
  | @act t a rest _ _ =>
      have hbefore : (c.setTodo t rest).cluster = c.cluster ∧
          (c.setTodo t rest).slot = c.slot ∧ (c.setTodo t rest).standing = c.standing := by
        cases t <;> exact ⟨rfl, rfl, rfl⟩
      obtain ⟨hcluster, hslot, hstanding⟩ := hbefore
      refine ⟨(cluster_exec t a _).trans hcluster, ?_⟩
      by_cases ha : a = .dropMain
      · subst ha
        exact ⟨.removeMain, by cases t <;> rfl⟩
      · exact ⟨a, by rw [standing_exec t ha, hstanding, hslot, hcluster]⟩
  | @registration attempt a _ _ =>
      cases a with
      | error e => exact hgo (hretry _ _)
      | ok members =>
          unfold onRegistration
          dsimp only
          split
          · exact hgo ⟨rfl, rfl⟩
          · exact hgo (hretry _ _)
  | @warmup a _ _ =>
      cases a with
      | error e => exact hgo ⟨rfl, rfl⟩
      | ok members =>
          unfold onWarmup
          dsimp only
          split <;> exact hgo ⟨rfl, rfl⟩
  | @rebalance a _ _ | @check a _ _ => cases a <;> exact hgo ⟨rfl, rfl⟩
  | cut =>
      obtain ⟨owner, queue, hcut⟩ := exists_cutDelayed_eq c
      rw [hcut]
      exact hgo ⟨rfl, rfl⟩
  | _ => exact hgo ⟨rfl, rfl⟩

/-- A run leaves the configuration alone. -/
theorem cluster_of_run {c₀ : Coordinator} {log : List Moment} (hrun : Run c₀ log c) :
    c.cluster = c₀.cluster := by
  induction hrun with
  | start => rfl
  | step _ hstep ih => exact (write_of_moves (moves_of_step? hstep)).1.trans ih

/-- A run leaves the configured devices alone, and installs no filters but the two. -/
theorem ours_of_run {c₀ : Coordinator} {log : List Moment} {devices : List Device} {nodes : Nat}
    (hrun : Run c₀ log c) (h₀ : c₀.standing.Ours devices nodes) :
    c.standing.Ours devices nodes := by
  induction hrun with
  | start => exact h₀
  | step _ hstep ih =>
      obtain ⟨-, a, ha⟩ := write_of_moves (moves_of_step? hstep)
      rw [ha]
      exact ih.write a

/-- The last stages are not left again. -/
theorem isLast_of_turn {cluster : ClusterConfig} {v v' : Picture} {s : Step} {d : Option Decision}
    (hturn : Turn cluster v s d v') (h : v.stage.isLast = true) : v'.stage.isLast = true := by
  cases hturn with
  | quiet => exact h
  | fail hg =>
      rcases hg with rfl | rfl | rfl
      · cases h
      · cases h
      · rfl
  | takeOver hg _ _ _ =>
      rcases hg with rfl | rfl
      · cases h
      · rfl
  | leave => rfl
  | release => rfl
  | _ => cases h

/-- Only the release leads to the last stage. -/
theorem eq_released_of_turn {cluster : ClusterConfig} {v v' : Picture} {s : Step}
    {d : Option Decision} (hturn : Turn cluster v s d v') (h : v.stage ≠ .gone)
    (h' : v'.stage = .gone) :
    v' = ⟨.gone, v.slot, v.outlook.released v.slot cluster.numberOfNodes⟩ := by
  cases hturn with
  | release => rfl
  | quiet => exact absurd h' h
  | fail | takeOver => exact absurd h' h
  | _ => cases h'

/-- The delayed strand is cut off only while the main strand waits for its end. -/
theorem stage_of_cut (h : c.work.Disciplined) (hcut : c.mayCut = true) :
    c.cutDelayed.stage = .stopping := by
  simp only [mayCut, Bool.and_eq_true, Bool.not_eq_true'] at hcut
  obtain ⟨⟨haborted, hlive⟩, -⟩ := hcut
  have hpoint : c.main.point = .stopping := by
    rcases h.aborted haborted with hpoint | hclosing
    · exact hpoint
    · obtain ⟨htodo, hover⟩ := h.closing hclosing
      have htodo' : c.delayed.todo = [] := htodo
      rcases hover with hover | hover
      · have hover' : c.delayed.point = .unborn := hover
        simp [delayedIsOver, htodo', hover'] at hlive
      · have hover' : c.delayed.point = .ended := hover
        simp [delayedIsOver, htodo', hover'] at hlive
  obtain ⟨owner, queue, hafter⟩ := exists_cutDelayed_eq c
  rw [hafter]
  show Stage.ofPoint c.main.point c.main.todo = .stopping
  rw [hpoint]
  rfl

section Started

variable {cluster : ClusterConfig} {timers : TimerConfig} {devices : List Device}
  {updates changes : Signal} {clock : Nat} {log : List Moment}

/-- A started coordinator has the configured devices and no filters but the two. -/
theorem ours_of_started
    (hrun : Run (start cluster timers devices updates changes clock) log c) :
    c.standing.Ours devices cluster.numberOfNodes :=
  ours_of_run hrun ⟨rfl, rfl, _, _, Registry.holds_ofDevices devices⟩

/-- **In every run the outlook is that of the latest decision**, as long as none was cut short, and
again once everything is released. -/
theorem accords_of_run (hrun : Run (start cluster timers devices updates changes clock) log c) :
    (wasInterrupted log = false ∨ c.stage = .gone →
        c.picture.Accords cluster (latestDecision log)) ∧
      (wasInterrupted log = true → c.stage.isLast = true) := by
  induction hrun with
  | start =>
      refine ⟨fun _ => ⟨rfl, rfl, rfl, ⟨Registry.holds_ofDevices devices, rfl, rfl⟩, rfl⟩, ?_⟩
      intro hint
      cases hint
  | @step log c c' s es hrun hstep ih =>
      obtain ⟨haccords, hlast⟩ := ih
      have hm : Moves c s c' es := moves_of_step? hstep
      have hdisciplined : c.work.Disciplined := disciplined_of_run hrun (disciplined_start ..)
      have hcluster : c.cluster = cluster := cluster_of_run hrun
      have hours : c.outlook.Ours devices cluster.numberOfNodes :=
        ((ours_of_started hrun).carryOut _).carryOut _
      by_cases hint : c.interrupts s = true
      · have hstage : c'.stage = .stopping := by
          cases hm with
          | cut hcut => exact stage_of_cut hdisciplined hcut
          | _ => cases hint
        refine ⟨?_, fun _ => by rw [hstage]; rfl⟩
        intro hcases
        rcases hcases with hwhole | hgone
        · simp [wasInterrupted, hint] at hwhole
        · rw [hstage] at hgone
          cases hgone
      · rw [Bool.not_eq_true] at hint
        have hturn : Turn cluster c.picture s (c.decision? s) c'.picture :=
          hcluster ▸ turn_of_moves hdisciplined hm hint
        have hsame : wasInterrupted (⟨c, s, es⟩ :: log) = wasInterrupted log := by
          simp [wasInterrupted, hint]
        rw [hsame]
        refine ⟨fun h => ?_, fun h => isLast_of_turn hturn (hlast h)⟩
        by_cases hbefore : wasInterrupted log = false ∨ c.stage = .gone
        · exact Picture.accords_of_turn hturn (haccords hbefore)
        · rw [not_or, Bool.not_eq_false] at hbefore
          have hgone : c'.stage = .gone := h.resolve_left (by rw [hbefore.1]; nofun)
          have hafter := eq_released_of_turn hturn hbefore.2 hgone
          rw [hafter]
          exact Picture.accords_released hours.nodes hours.holds

end Started

end Coordinator

end FleetSharding
