import FleetSharding.Proofs.Coordinator.Published

/-!
# What coordinators collect together

Coordinators that have decided on one list of members share the devices out among the slots that
survive in it.  The main filter is not looked at again, though: a node whose own slot has failed in
the list, but which still runs, keeps its share while the survivors take it over.

* `DecidedOn`: a coordinator whose latest decision was made on a list of members.
* `selected_by_both_iff`: two of them select a device in exactly that case.
* `exists_selected_by_both`: it happens in a cluster of two.
-/

namespace FleetSharding

namespace Coordinator

/-- A coordinator after a decision of its steady loop on a list of members: the decision is the
latest one and all written, and nothing is released. -/
structure DecidedOn (cluster : ClusterConfig) (devices : List Device) (members : List Member)
    (c : Coordinator) : Prop where
  exists_run : ∃ timers updates changes clock log,
    Run (start cluster timers devices updates changes clock) log c ∧
      latestDecision log = some (.rebalance members) ∧ inProgress log c = false
  held : c.status.phase ≠ .stopped

/-- Before the steady loop nothing is decided. -/
theorem late_of_latestDecision {cluster : ClusterConfig} {timers : TimerConfig}
    {devices : List Device} {updates changes : Signal} {clock : Nat} {log : List Moment}
    {c : Coordinator} {d : Decision}
    (hrun : Run (start cluster timers devices updates changes clock) log c)
    (hlatest : latestDecision log = some d) : c.main.point.isEarly = false := by
  obtain ⟨haccords, hlast⟩ := accords_of_run hrun
  rw [Bool.eq_false_iff]
  intro hearly
  have hstage : c.stage = .seeking ∨ c.stage = .gated := by
    unfold stage
    cases hpoint : c.main.point with
    | registering | retrying => exact Or.inl rfl
    | warming | waiting | settling => exact Or.inr rfl
    | _ =>
        rw [hpoint] at hearly
        cases hearly
  have hwhole : wasInterrupted log = false := by
    rw [Bool.eq_false_iff]
    intro hint
    have hstageLast := hlast hint
    rcases hstage with hg | hg <;> rw [hg] at hstageLast <;> cases hstageLast
  have hat := (haccords (Or.inl hwhole)).stage
  rw [hlatest] at hat
  rcases hstage with hg | hg
  · rw [show c.picture.stage = .seeking from hg] at hat
    exact nomatch hat.1
  · rw [show c.picture.stage = .gated from hg] at hat
    exact nomatch hat.1.1

/-- What there is after a decision depends on the members and on the slot alone. -/
theorem DecidedOn.decided {cluster : ClusterConfig} {devices : List Device}
    {members : List Member} {c : Coordinator} (h : DecidedOn cluster devices members c) :
    c.standing.Decided cluster c.slot members ∧ c.status.shardId = some c.slot ∧
      c.slot < cluster.numberOfNodes ∧ c.registry.devices = devices := by
  obtain ⟨⟨timers, updates, changes, clock, log, hrun, hlatest, hidle⟩, hheld⟩ := h
  have haccords := standing_accords hrun hidle (late_of_latestDecision hrun hlatest)
  rw [hlatest] at haccords
  have hsteadied : c.standing.Steadied cluster c.slot (some (.rebalance members)) := by
    have hat : c.standing.At cluster c.slot (some (.rebalance members)) c.stage := haccords.stage
    cases hg : c.stage <;> rw [hg] at hat
    case seeking => exact nomatch hat.1
    case gated => exact nomatch hat.1.1
    case aloft | stopping => exact hat
    case leaving => exact hat.resolve_right fun hnone => nomatch hnone.1
    case gone => exact absurd hat.2 hheld
  exact ⟨hsteadied.settled, hsteadied.shard, hsteadied.lt, (ours_of_started hrun).devices⟩

/-- After a decision a device is selected by its home, and by the survivor that takes it over. -/
theorem DecidedOn.mem_selected_iff {cluster : ClusterConfig} {devices : List Device}
    {members : List Member} {c : Coordinator} (h : DecidedOn cluster devices members c)
    (d : Device) :
    d ∈ c.registry.selected ↔ d ∈ devices ∧ cluster.minimumShards ≤ healthyCount members ∧
      (d.key % cluster.numberOfNodes = c.slot ∨
        (SlotMap.ofMembers cluster.numberOfNodes members).takeover c.slot d = true) := by
  obtain ⟨hdecided, -, hlt, hdevices⟩ := h.decided
  rw [Registry.selected, List.mem_filter, hdevices]
  have hholds : c.registry.Holds _ _ := hdecided.holds
  rw [hholds.claims_iff]
  by_cases henough : cluster.minimumShards ≤ healthyCount members
  · simp only [if_pos henough, Option.some.injEq, exists_eq_left', mainShard_eq_true_iff]
    constructor
    · intro hparts
      obtain ⟨hd, ⟨-, hhome⟩ | htaken⟩ := hparts
      · exact ⟨hd, henough, Or.inl hhome⟩
      · exact ⟨hd, henough, Or.inr htaken⟩
    · intro hparts
      obtain ⟨hd, -, hhome | htaken⟩ := hparts
      · exact ⟨hd, Or.inl ⟨by omega, hhome⟩⟩
      · exact ⟨hd, Or.inr htaken⟩
  · rw [if_neg henough, if_neg henough]
    constructor
    · intro hparts
      obtain ⟨-, ⟨claim, hclaim, -⟩ | ⟨claim, hclaim, -⟩⟩ := hparts <;> cases hclaim
    · intro hparts
      obtain ⟨-, hcontra, -⟩ := hparts
      exact absurd hcontra henough

/-- A device is contested when the slot of one coordinator is its home and has failed, and the other
coordinator is the survivor that takes it over. -/
def Contested (slots : SlotMap) (d : Device) (a b : Coordinator) : Prop :=
  a.status.shardId = some (d.key % slots.size) ∧ d.key % slots.size ∈ slots.failed ∧
    b.status.shardId = slots.ownerOf d.key

/-- **Two coordinators select one device only if it is contested between them.**  This is so for any
number of coordinators with slots of their own that decided on one list of members; with too few
healthy members none of them selects anything. -/
theorem selected_by_both_iff {ι : Type} {n minimum : Nat} {devices : List Device}
    {members : List Member} {cluster : ι → ClusterConfig} {c : ι → Coordinator}
    (hdecided : ∀ i, DecidedOn (cluster i) devices members (c i))
    (hnodes : ∀ i, (cluster i).numberOfNodes = n)
    (hminimum : ∀ i, (cluster i).minimumShards = minimum)
    (hdistinct : ∀ i j, i ≠ j → (c i).status.shardId ≠ (c j).status.shardId)
    {d : Device} (hd : d ∈ devices) {i j : ι} (hij : i ≠ j) :
    d ∈ (c i).registry.selected ∧ d ∈ (c j).registry.selected ↔
      minimum ≤ healthyCount members ∧
        (Contested (SlotMap.ofMembers n members) d (c i) (c j) ∨
          Contested (SlotMap.ofMembers n members) d (c j) (c i)) := by
  have hlayout : (SlotMap.ofMembers n members).IsLayout := SlotMap.ofMembers_isLayout n members
  have hsize : (SlotMap.ofMembers n members).size = n := SlotMap.size_ofMembers n members
  generalize hslotsEq : SlotMap.ofMembers n members = slots at hlayout hsize ⊢
  have hshard : ∀ i, (c i).status.shardId = some (c i).slot := fun i => (hdecided i).decided.2.1
  have hmem : ∀ i, d ∈ (c i).registry.selected ↔ minimum ≤ healthyCount members ∧
      (d.key % n = (c i).slot ∨ slots.takeover (c i).slot d = true) := by
    intro i
    rw [(hdecided i).mem_selected_iff, hnodes, hminimum, hslotsEq]
    exact and_iff_right hd
  have hslots : (c i).slot ≠ (c j).slot := by
    intro heq
    refine hdistinct i j hij ?_
    rw [hshard, hshard, heq]
  -- A takeover is the business of the survivor that the layout names.
  have htaken : ∀ i, slots.takeover (c i).slot d = true ↔
      d.key % n ∈ slots.failed ∧ slots.ownerOf d.key = some (c i).slot := by
    intro i
    rw [hlayout.takeover_eq_true_iff, hlayout.ownerOf_eq_some_iff, hsize]
    constructor
    · intro hparts
      obtain ⟨hid, hfailed, hrank⟩ := hparts
      exact ⟨hfailed, hid, Or.inr ⟨hfailed, hrank⟩⟩
    · intro hparts
      obtain ⟨hfailed, hid, hhome | ⟨-, hrank⟩⟩ := hparts
      · exact absurd (hhome ▸ hfailed) hid.2
      · exact ⟨hid, hfailed, hrank⟩
  have hcontested : ∀ i j, Contested slots d (c i) (c j) ↔
      d.key % n = (c i).slot ∧ slots.takeover (c j).slot d = true := by
    intro i j
    rw [Contested, hsize, htaken, hshard, hshard]
    constructor
    · intro hparts
      obtain ⟨hhome, hfailed, howner⟩ := hparts
      exact ⟨(Option.some.inj hhome).symm, hfailed, howner.symm⟩
    · intro hparts
      obtain ⟨hhome, hfailed, howner⟩ := hparts
      exact ⟨by rw [hhome], hfailed, howner.symm⟩
  rw [hmem, hmem, hcontested, hcontested]
  constructor
  · intro hparts
    obtain ⟨⟨henough, hi⟩, -, hj⟩ := hparts
    refine ⟨henough, ?_⟩
    rcases hi with hhomei | htakeni
    · rcases hj with hhomej | htakenj
      · exact absurd (hhomei.symm.trans hhomej) hslots
      · exact Or.inl ⟨hhomei, htakenj⟩
    · rcases hj with hhomej | htakenj
      · exact Or.inr ⟨hhomej, htakeni⟩
      · have howners := ((htaken i).1 htakeni).2.symm.trans ((htaken j).1 htakenj).2
        exact absurd (Option.some.inj howners) hslots
  · intro hparts
    obtain ⟨henough, ⟨hhome, htakenj⟩ | ⟨hhome, htakeni⟩⟩ := hparts
    · exact ⟨⟨henough, Or.inl hhome⟩, henough, Or.inr htakenj⟩
    · exact ⟨⟨henough, Or.inr htakeni⟩, henough, Or.inl hhome⟩

/-- In a cluster of two either node can decide on the failure of the first, which still runs. -/
theorem exists_decidedOn_of_two (address : String) (slot : Nat) (selected : List Device)
    (h : ((ofTwo address).follow [] failoverSteps).any (fun r =>
      latestDecision r.1 == some (.rebalance (membersOfTwo .critical)) && !inProgress r.1 r.2 &&
        r.2.status.phase != .stopped && r.2.status.shardId == some slot &&
        r.2.registry.selected == selected) = true) :
    ∃ c, DecidedOn { nodeAddress := address, numberOfNodes := 2 } devicesOfTwo
        (membersOfTwo .critical) c ∧
      c.status.shardId = some slot ∧ c.registry.selected = selected := by
  obtain ⟨⟨log, c⟩, hfollow, hcheck⟩ := (Option.any_eq_true _ _).1 h
  simp only [Bool.and_eq_true, beq_iff_eq, Bool.not_eq_true', bne_iff_ne] at hcheck
  obtain ⟨⟨⟨⟨hlatest, hidle⟩, hheld⟩, hshard⟩, hselected⟩ := hcheck
  exact ⟨c, ⟨⟨_, _, _, _, log, run_of_follow .start hfollow, hlatest, hidle⟩, hheld⟩, hshard,
    hselected⟩

/-- The device of the first slot is collected by both nodes of a cluster of two: by the first, which
has failed and keeps it, and by the second, which takes it over. -/
theorem exists_selected_by_both :
    ∃ a b, DecidedOn { nodeAddress := "a", numberOfNodes := 2 } devicesOfTwo
        (membersOfTwo .critical) a ∧
      DecidedOn { nodeAddress := "b", numberOfNodes := 2 } devicesOfTwo
        (membersOfTwo .critical) b ∧
      a.status.shardId = some 0 ∧ b.status.shardId = some 1 ∧
      ∃ d ∈ devicesOfTwo, d ∈ a.registry.selected ∧ d ∈ b.registry.selected := by
  obtain ⟨a, ha, hsharda, hselecteda⟩ :=
    exists_decidedOn_of_two "a" 0 (devicesOfTwo.take 1) (by decide +kernel)
  obtain ⟨b, hb, hshardb, hselectedb⟩ :=
    exists_decidedOn_of_two "b" 1 devicesOfTwo (by decide +kernel)
  refine ⟨a, b, ha, hb, hsharda, hshardb, { host := "x", groupId := 2 }, by decide, ?_, ?_⟩
  · rw [hselecteda]
    decide
  · rw [hselectedb]
    decide

/-- Two nodes that decided on the failure of the first select its device both. -/
theorem selected_by_both_iff_of_two :
    ∃ a b, DecidedOn { nodeAddress := "a", numberOfNodes := 2 } devicesOfTwo
        (membersOfTwo .critical) a ∧
      DecidedOn { nodeAddress := "b", numberOfNodes := 2 } devicesOfTwo
        (membersOfTwo .critical) b ∧
      a.status.shardId ≠ b.status.shardId ∧
      ∀ d ∈ devicesOfTwo, d ∈ a.registry.selected ∧ d ∈ b.registry.selected ↔
        d.key % 2 = 0 := by
  obtain ⟨a, ha, hsharda, -⟩ :=
    exists_decidedOn_of_two "a" 0 (devicesOfTwo.take 1) (by decide +kernel)
  obtain ⟨b, hb, hshardb, -⟩ :=
    exists_decidedOn_of_two "b" 1 devicesOfTwo (by decide +kernel)
  have hdecided : ∀ i : Bool, DecidedOn
      { nodeAddress := bif i then "a" else "b", numberOfNodes := 2 } devicesOfTwo
      (membersOfTwo .critical) (bif i then a else b) := by
    intro i
    cases i <;> assumption
  have hdistinct : ∀ i j : Bool, i ≠ j →
      (bif i then a else b).status.shardId ≠ (bif j then a else b).status.shardId := by
    intro i j hij
    cases i <;> cases j <;> simp_all
  refine ⟨a, b, ha, hb, hdistinct true false (by decide), ?_⟩
  intro d hd
  have hboth := selected_by_both_iff hdecided (fun _ => rfl) (fun _ => rfl) hdistinct hd
    (i := true) (j := false) (by decide)
  simp only [cond_true, cond_false, Contested, hsharda, hshardb] at hboth
  rw [hboth]
  simp only [devicesOfTwo, List.mem_cons, List.not_mem_nil, or_false] at hd
  rcases hd with rfl | rfl <;> decide +kernel

end Coordinator

end FleetSharding
