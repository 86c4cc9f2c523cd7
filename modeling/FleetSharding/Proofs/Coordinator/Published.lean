import FleetSharding.Proofs.Coordinator.Accord
import FleetSharding.Proofs.SlotMap.Ownership

/-!
# The published status says what is collected

Whoever reads the published status knows which devices the node collects: the status names the
adopted slot, the number of slots and the failed ones, and this determines the devices.

* `ShardStatus.collects`: the devices that a status speaks of.
* `Standing.Faithful`: a status that says what the filters do.
* `Coordinator.status_tells_selected`: in every run the status is faithful while no decision is in
  progress.
-/

namespace FleetSharding

/-- Whether a device falls to the slot of a status: it is at home there, or its home has failed and
the key falls to the slot when it is divided over the survivors. -/
def ShardStatus.collects (st : ShardStatus) (d : Device) : Bool :=
  match st.shardId with
  | none => false
  | some id =>
    d.key % st.nodes == id ||
      (st.failedSlots.contains (d.key % st.nodes) && !st.failedSlots.contains id &&
        d.key % (st.nodes - st.failedSlots.length) ==
          id - (st.failedSlots.filter (· < id)).length)

namespace Standing

/-- The status tells which filters are in and what they do. -/
structure Faithful (s : Standing) : Prop where
  filters : s.status.filters = s.registry.names
  claims : ∀ d, s.registry.claims d = (s.status.isReady && s.status.collects d)
  ready : s.status.isReady = s.registry.has mainFilter
  extra : s.registry.has extraFilter = true → s.registry.has mainFilter = true

variable {cluster : ClusterConfig} {slot : Nat} {s : Standing}

/-- Without filters a status is faithful if it is not ready. -/
theorem faithful_of_none (hfilters : s.status.filters = s.registry.names)
    (hholds : s.registry.Holds none none) (hphase : s.status.phase.isReady = false) :
    s.Faithful where
  filters := hfilters
  claims := by
    intro d
    have hnone : s.registry.claims d = false := by
      rw [Bool.eq_false_iff]
      intro hclaims
      rcases (hholds.claims_iff d).1 hclaims with ⟨c, hc, -⟩ | ⟨c, hc, -⟩ <;> cases hc
    rw [hnone, ShardStatus.isReady, hphase, Bool.false_and]
  ready := by
    rw [ShardStatus.isReady, hphase, hholds.has_main]
    rfl
  extra := by
    rw [hholds.has_extra]
    nofun

/-- The takeover claims what the published list of failed slots says. -/
theorem takeover_eq_true_iff_collects {slots : SlotMap} (h : slots.IsLayout)
    (hslot : slot < slots.size) (d : Device) :
    slots.takeover slot d = true ↔
      d.key % slots.size ∈ slots.failed ∧ slot ∉ slots.failed ∧
        d.key % (slots.size - slots.failed.length) =
          slot - (slots.failed.filter (· < slot)).length := by
  rw [h.takeover_eq_true_iff, h.rank_eq_sub]
  constructor
  · intro hparts
    obtain ⟨⟨-, hsurvives⟩, hfailed, hrank⟩ := hparts
    exact ⟨hfailed, hsurvives, hrank⟩
  · intro hparts
    obtain ⟨hfailed, hsurvives, hrank⟩ := hparts
    exact ⟨⟨hslot, hsurvives⟩, hfailed, hrank⟩

/-- With its main filter a status is faithful if the other filter, when there is one, is the
takeover from the failed slots that it names. -/
theorem faithful_of_main (hfilters : s.status.filters = s.registry.names)
    (hnodes : s.status.nodes = cluster.numberOfNodes) (hshard : s.status.shardId = some slot)
    (hlt : slot < cluster.numberOfNodes) (hphase : s.status.phase.isReady = true)
    {extra : Option Claim}
    (hholds : s.registry.Holds (some (mainShard slot cluster.numberOfNodes)) extra)
    (hextra : ∀ d, (∃ claim, extra = some claim ∧ claim d = true) ↔
      d.key % cluster.numberOfNodes ∈ s.status.failedSlots ∧ slot ∉ s.status.failedSlots ∧
        d.key % (cluster.numberOfNodes - s.status.failedSlots.length) =
          slot - (s.status.failedSlots.filter (· < slot)).length) :
    s.Faithful where
  filters := hfilters
  claims := by
    intro d
    rw [Bool.eq_iff_iff, hholds.claims_iff, hextra, ShardStatus.isReady, hphase, Bool.true_and,
      ShardStatus.collects, hshard, hnodes]
    have hmain : (∃ claim, some (mainShard slot cluster.numberOfNodes) = some claim ∧
        claim d = true) ↔ d.key % cluster.numberOfNodes = slot := by
      constructor
      · intro hparts
        obtain ⟨claim, hclaim, hd⟩ := hparts
        cases hclaim
        exact (mainShard_eq_true_iff.1 hd).2
      · intro hhome
        exact ⟨_, rfl, mainShard_eq_true_iff.2 ⟨by omega, hhome⟩⟩
    rw [hmain]
    simp only [Bool.or_eq_true, Bool.and_eq_true, Bool.not_eq_true', beq_iff_eq,
      List.contains_iff_mem, and_assoc]
    rw [← Bool.not_eq_true, List.contains_iff_mem]
  ready := by
    rw [ShardStatus.isReady, hphase, hholds.has_main]
    rfl
  extra := by
    intro _
    rw [hholds.has_main]
    rfl

/-- What there is in the steady loop is faithful, whatever was decided last. -/
theorem Steadied.faithful {last : Option Decision} (h : s.Steadied cluster slot last)
    (hfilters : s.status.filters = s.registry.names)
    (hnodes : s.status.nodes = cluster.numberOfNodes) : s.Faithful := by
  obtain ⟨hsettled, hshard, hlt⟩ := h
  cases last with
  | none =>
      obtain ⟨hholds, -, hphase, hfailed⟩ := hsettled
      refine faithful_of_main hfilters hnodes hshard hlt (by rw [hphase]; rfl) hholds ?_
      intro d
      rw [hfailed]
      constructor
      · intro hparts
        obtain ⟨claim, hclaim, -⟩ := hparts
        cases hclaim
      · intro hparts
        obtain ⟨hmem, -⟩ := hparts
        cases hmem
  | some d =>
      obtain ⟨hholds, -, hphase, -, hfailed⟩ := hsettled
      by_cases henough : cluster.minimumShards ≤ healthyCount d.members
      · rw [if_pos henough, if_pos henough] at hholds
        have hready : s.status.phase.isReady = true := by
          rw [hphase, decidedPhase, if_pos henough]
          split <;> rfl
        refine faithful_of_main hfilters hnodes hshard hlt hready hholds ?_
        intro device
        have hsize := SlotMap.size_ofMembers cluster.numberOfNodes d.members
        have hslot : slot < (SlotMap.ofMembers cluster.numberOfNodes d.members).size := by
          rw [hsize]
          exact hlt
        have htakeover := takeover_eq_true_iff_collects
          (SlotMap.ofMembers_isLayout cluster.numberOfNodes d.members) hslot device
        rw [hsize, ← hfailed] at htakeover
        rw [← htakeover]
        constructor
        · intro hparts
          obtain ⟨claim, hclaim, hdevice⟩ := hparts
          cases hclaim
          exact hdevice
        · intro hdevice
          exact ⟨_, rfl, hdevice⟩
      · rw [if_neg henough, if_neg henough] at hholds
        refine faithful_of_none hfilters hholds ?_
        rw [hphase, decidedPhase, if_neg henough]
        rfl

end Standing

/-- An outlook that accords is faithful at every stage. -/
theorem Picture.Accords.faithful {cluster : ClusterConfig} {last : Option Decision} {v : Picture}
    (h : v.Accords cluster last) : v.outlook.Faithful := by
  obtain ⟨hnodes, hfilters, hstage⟩ := h
  cases hg : v.stage <;> rw [hg] at hstage
  case seeking =>
    obtain ⟨-, hblank, hphase⟩ := hstage
    exact Standing.faithful_of_none hfilters hblank.holds (by rw [hphase]; rfl)
  case gated =>
    obtain ⟨⟨-, hblank, hphase⟩, -⟩ := hstage
    refine Standing.faithful_of_none hfilters hblank.holds ?_
    rcases hphase with hphase | hphase <;> rw [hphase] <;> rfl
  case aloft | stopping => exact Standing.Steadied.faithful hstage hfilters hnodes
  case leaving =>
    rcases hstage with hsteadied | ⟨-, hblank, hphase⟩
    · exact hsteadied.faithful hfilters hnodes
    · refine Standing.faithful_of_none hfilters hblank.holds ?_
      rcases hphase with hphase | hphase | hphase <;> rw [hphase] <;> rfl
  case gone =>
    obtain ⟨hholds, hphase⟩ := hstage
    exact Standing.faithful_of_none hfilters hholds (by rw [hphase]; rfl)

/-- Whether an action may be left to do before anything is collected. -/
def Action.isGathering : Action → Bool
  | .ask | .report _ | .measure _ | .sleep _ | .publish (.registered _) | .publish (.warmth _)
  | .publish .discoveryFailed | .publish (.phase .settling) => true
  | _ => false

namespace Coordinator

variable {c c' : Coordinator}

/-- A coordinator that has not begun to collect. -/
structure Gathering (c : Coordinator) : Prop where
  holds : c.registry.Holds none none
  phase : c.status.phase = .registering ∨ c.status.phase = .warmingUp ∨ c.status.phase = .settling
  filters : c.status.filters = c.registry.names
  todo : ∀ a ∈ c.main.todo, a.isGathering = true

/-- The main strand gathers on. -/
theorem Gathering.exec (h : Gathering c) {a : Action} {rest : List Action}
    (htodo : c.main.todo = a :: rest) :
    Gathering (Coordinator.exec .main a (c.setTodo .main rest)).1 := by
  obtain ⟨hholds, hphase, hfilters, hall⟩ := h
  rw [htodo] at hall
  have ha : a.isGathering = true := hall a List.mem_cons_self
  have hrest : ∀ b ∈ rest, b.isGathering = true := fun b hb => hall b (List.mem_cons_of_mem _ hb)
  cases a with
  | ask | report | measure | sleep => exact ⟨hholds, hphase, hfilters, hrest⟩
  | publish u =>
      cases u with
      | registered => exact ⟨hholds, Or.inr (Or.inl rfl), rfl, hrest⟩
      | warmth | discoveryFailed => exact ⟨hholds, hphase, rfl, hrest⟩
      | phase p =>
          cases p with
          | settling => exact ⟨hholds, Or.inr (Or.inr rfl), rfl, hrest⟩
          | _ => cases ha
      | decided => cases ha
  | _ => cases ha

/-- The main strand is sent to where it gathers on. -/
theorem Gathering.goMain (h : Gathering c) {p : MainPoint} {l : List Action}
    (hl : ∀ a ∈ l, a.isGathering = true) : Gathering (c.goMain p l) :=
  ⟨h.holds, h.phase, h.filters, hl⟩

/-- So it does when it looks for itself once more. -/
theorem Gathering.retry (h : Gathering c) {attempt : Nat} {l : List Action}
    (hl : ∀ a ∈ l, a.isGathering = true)
    (hearly : (c.retry attempt l).main.point.isEarly = true) : Gathering (c.retry attempt l) := by
  unfold Coordinator.retry at hearly ⊢
  split
  · refine h.goMain ?_
    intro a ha
    rcases List.mem_append.1 ha with ha | ha
    · exact hl a ha
    · obtain rfl := List.mem_singleton.1 ha
      rfl
  · next hover =>
    rw [if_neg hover] at hearly
    cases hearly

/-- No action leads back to before the steady loop. -/
theorem early_of_exec {t : Task} {a : Action} {rest : List Action}
    (h : (exec t a (c.setTodo t rest)).1.main.point.isEarly = true) :
    c.main.point.isEarly = true := by
  rcases point_exec t a (c.setTodo t rest) with hsame | ⟨-, -, hend⟩ | ⟨o, -, hend⟩
  · rwa [hsame, setTodo_point] at h
  · rw [hend] at h
    cases h
  · rw [hend] at h
    cases h

/-- Nor does any move. -/
theorem early_of_moves {s : Step} {es : List Effect} (hm : Moves c s c' es)
    (h : c'.main.point.isEarly = true) : c.main.point.isEarly = true := by
  cases hm with
  | act => exact early_of_exec h
  | registration _ hpoint | warmup _ hpoint | wakeRetrying _ hpoint | wakeWaiting _ hpoint =>
      rw [hpoint]
      rfl
  | @rebalance a _ _ => cases a <;> cases h
  | @check a _ _ => cases a <;> exact h
  | enter | leave | halt | tick | join => cases h
  | cut =>
      obtain ⟨owner, queue, hcut⟩ := exists_cutDelayed_eq c
      rw [hcut] at h
      exact h
  | _ => exact h

/-- Until something is collected, moves gather on. -/
theorem gathering_of_moves {s : Step} {es : List Effect} (hd : c.work.Disciplined)
    (hm : Moves c s c' es) (h : Gathering c) (hearly : c'.main.point.isEarly = true) :
    Gathering c' := by
  have hborn : c.delayed.point = .unborn := hd.early (early_of_moves hm hearly)
  cases hm with
  | @act t a rest htodo _ =>
      cases t with
      | main => exact h.exec htodo
      | delayed =>
          have hnone : c.delayed.todo = [] := hd.unborn hborn
          have htodo' : c.delayed.todo = a :: rest := htodo
          rw [hnone] at htodo'
          cases htodo'
  | @registration attempt a _ _ =>
      cases a with
      | error e => exact h.retry (by simp [Action.isGathering]) hearly
      | ok members =>
          unfold onRegistration at hearly ⊢
          dsimp only at hearly ⊢
          split
          · exact ⟨h.holds, h.phase, h.filters, by simp [Coordinator.goMain, Action.isGathering]⟩
          · next hown =>
            rw [hown] at hearly
            exact h.retry (by simp [Action.isGathering]) hearly
  | @warmup a _ _ =>
      cases a with
      | error e => exact h.goMain (by simp [Action.isGathering])
      | ok members =>
          unfold onWarmup
          dsimp only
          split <;> exact h.goMain (by simp [Action.isGathering])
  | wakeRetrying | wakeWaiting => exact h.goMain (by simp [Action.isGathering])
  | @rebalance a _ _ => cases a <;> cases hearly
  | check _ hpoint | wakeDelayed _ hpoint | stopDelayed _ hpoint =>
      rw [hborn] at hpoint
      cases hpoint
  | enter | leave | halt | tick | join => cases hearly
  | cut =>
      obtain ⟨owner, queue, hcut⟩ := exists_cutDelayed_eq c
      rw [hcut]
      exact ⟨h.holds, h.phase, h.filters, h.todo⟩
  | _ => exact ⟨h.holds, h.phase, h.filters, h.todo⟩

/-- A started coordinator gathers until something is collected. -/
theorem gathering_of_run {cluster : ClusterConfig} {timers : TimerConfig} {devices : List Device}
    {updates changes : Signal} {clock : Nat} {log : List Moment}
    (hrun : Run (start cluster timers devices updates changes clock) log c)
    (hearly : c.main.point.isEarly = true) : Gathering c := by
  induction hrun with
  | start =>
      exact ⟨Registry.holds_ofDevices devices, Or.inl rfl, rfl, by simp [start, Action.isGathering]⟩
  | step hrun hstep ih =>
      have hm := moves_of_step? hstep
      exact gathering_of_moves (disciplined_of_run hrun (disciplined_start ..)) hm
        (ih (early_of_moves hm hearly)) hearly

/-- Before anything is collected the status is faithful at every moment. -/
theorem Gathering.faithful (h : Gathering c) : c.standing.Faithful := by
  refine Standing.faithful_of_none h.filters h.holds ?_
  rcases h.phase with hphase | hphase | hphase <;>
    rw [show c.standing.status.phase = _ from hphase] <;> rfl

/-- Whether a decision has begun that is not all written yet. -/
def isDeciding (c : Coordinator) : Bool :=
  !c.main.point.isEarly && (unfinished c.main.todo || unfinished c.delayed.todo)

/-- Whether a decision is in progress; one that was cut short is until everything is released. -/
def inProgress (log : List Moment) (c : Coordinator) : Bool :=
  c.isDeciding || (wasInterrupted log && c.outcome?.isNone)

section Started

variable {cluster : ClusterConfig} {timers : TimerConfig} {devices : List Device}
  {updates changes : Signal} {clock : Nat} {log : List Moment}

/-- While no decision is in progress, what there is accords with the latest decision. -/
theorem standing_accords
    (hrun : Run (start cluster timers devices updates changes clock) log c)
    (hidle : inProgress log c = false) (hlate : c.main.point.isEarly = false) :
    Picture.Accords cluster (latestDecision log) ⟨c.stage, c.slot, c.standing⟩ := by
  rw [inProgress, Bool.or_eq_false_iff, isDeciding, hlate, Bool.not_false, Bool.true_and,
    Bool.or_eq_false_iff] at hidle
  obtain ⟨⟨hmain, hdelayed⟩, hwhole⟩ := hidle
  obtain ⟨haccords, hlast⟩ := accords_of_run hrun
  have hpicture : c.picture = ⟨c.stage, c.slot, c.standing⟩ := by
    rw [picture, outlook_of_finished hmain hdelayed]
  rw [← hpicture]
  refine haccords ?_
  cases hint : wasInterrupted log with
  | false => exact Or.inl rfl
  | true =>
      -- It was cut short, so the coordinator has ended, and not by a crash.
      rw [hint, Bool.true_and] at hwhole
      have hstage : c.stage.isLast = true := hlast hint
      refine Or.inr ?_
      unfold outcome? at hwhole
      split at hwhole
      · next o hpoint =>
        unfold stage at hstage ⊢
        rw [hpoint] at hstage ⊢
        cases o with
        | crashed => cases hstage
        | _ => rfl
      · cases hwhole

/-- While no decision is in progress, the status is faithful. -/
theorem standing_faithful
    (hrun : Run (start cluster timers devices updates changes clock) log c)
    (hidle : inProgress log c = false) : c.standing.Faithful := by
  cases hearly : c.main.point.isEarly with
  | true => exact (gathering_of_run hrun hearly).faithful
  | false => exact (standing_accords hrun hidle hearly).faithful

/-- **The published status determines what the node collects.**  In every run, while no decision is
in progress, the filters are those that the status names, the devices are those of which it speaks,
and they are none when it says that collection is suspended or over. -/
theorem status_tells_selected
    (hrun : Run (start cluster timers devices updates changes clock) log c)
    (hidle : inProgress log c = false) :
    c.status.filters = c.registry.names ∧
      c.registry.selected = devices.filter (fun d => c.status.isReady && c.status.collects d) ∧
      c.status.isReady = c.registry.has mainFilter ∧
      (c.registry.has extraFilter = true → c.registry.has mainFilter = true) ∧
      (c.status.phase = .suspended ∨ c.status.phase = .stopped → c.registry.selected = []) := by
  have hfaithful : c.standing.Faithful := standing_faithful hrun hidle
  have hdevices : c.registry.devices = devices := (ours_of_started hrun).devices
  have hselected : c.registry.selected =
      devices.filter (fun d => c.status.isReady && c.status.collects d) := by
    rw [Registry.selected, hdevices]
    exact List.filter_congr fun d _ => hfaithful.claims d
  refine ⟨hfaithful.filters, hselected, hfaithful.ready, hfaithful.extra, ?_⟩
  intro hphase
  have hidle : c.status.isReady = false := by
    rcases hphase with hphase | hphase <;> rw [ShardStatus.isReady, hphase] <;> rfl
  rw [hselected, List.filter_eq_nil_iff]
  intro d _
  rw [hidle, Bool.false_and]
  exact Bool.false_ne_true

/-- The second of two nodes has taken over the device of the first. -/
theorem status_tells_selected_after_failover :
    ∃ log c, Run (ofTwo "b") log c ∧ inProgress log c = false ∧
      c.registry.selected =
        devicesOfTwo.filter (fun d => c.status.isReady && c.status.collects d) ∧
      c.registry.selected = devicesOfTwo := by
  obtain ⟨log, c, hrun, hcheck⟩ := exists_run_of_follow (ofTwo "b") failoverSteps
    (fun log c => !inProgress log c && c.registry.selected == devicesOfTwo) (by decide +kernel)
  rw [Bool.and_eq_true, Bool.not_eq_true', beq_iff_eq] at hcheck
  exact ⟨log, c, hrun, hcheck.1, (status_tells_selected hrun hcheck.1).2.1, hcheck.2⟩

end Started

end Coordinator

end FleetSharding
