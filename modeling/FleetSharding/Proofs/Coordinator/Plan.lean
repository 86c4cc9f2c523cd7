import FleetSharding.Proofs.Coordinator.Gates
import FleetSharding.Proofs.Coordinator.Threshold

/-!
# The plan of a healthy cluster

A plan divides the devices among the slots without asking anybody.  It is what the coordinators of a
healthy cluster collect: each one its share, from when its main shard goes in, and after every
decision on members that leave no slot without a passing one.

* `exists_home`: the shares divide up the positions of the devices, each in their order.
* `Homebound`, `homebound_of_run`: until the first decision nothing is in but the main shard.
* `plan_is_collected`: the shares are what the coordinators collect.
-/

namespace FleetSharding

section Shares

variable {devices : List Device} {n : Nat}

/-- The plan has a shard for each node. -/
theorem length_shardPlan (devices : List Device) (n : Nat) : (shardPlan devices n).length = n := by
  rw [shardPlan, List.length_map, List.length_range]

/-- The shard of a node holds what its main claim is for, in the order of the devices. -/
theorem getElem?_shardPlan {id : Nat} (hid : id < n) :
    (shardPlan devices n)[id]? = some (devices.filter (mainShard id n)) := by
  rw [shardPlan, List.getElem?_map, List.getElem?_range hid]
  rfl

/-- **Every position of the list has one share**, and a share lists its positions in their order,
whatever devices stand there. -/
theorem exists_home (devices : List Device) (hn : 0 < n) :
    ∃ home : Fin devices.length → Fin n, ∀ id : Fin n, (shardPlan devices n)[id.1]? =
      some (((List.finRange devices.length).filter fun i => home i = id).map devices.get) := by
  refine ⟨fun i => ⟨(devices.get i).key % n, Nat.mod_lt _ hn⟩, fun id => ?_⟩
  have hshare : ∀ i : Fin devices.length, mainShard id.1 n (devices.get i) =
      decide ((⟨(devices.get i).key % n, Nat.mod_lt _ hn⟩ : Fin n) = id) := by
    intro i
    rw [Bool.eq_iff_iff, mainShard_eq_true_iff, decide_eq_true_eq, Fin.ext_iff]
    exact and_iff_right (Nat.ne_of_gt hn)
  rw [getElem?_shardPlan id.2]
  conv_lhs => rw [← List.map_get_finRange devices, List.filter_map]
  congr 2
  exact List.filter_congr fun i _ => hshare i

end Shares

/-- A registry in which the other filter takes nothing selects what the main one takes. -/
theorem Registry.Holds.selected_eq {r : Registry} {main : Claim} {extra : Option Claim}
    (h : r.Holds (some main) extra) (hextra : ∀ claim, extra = some claim → ∀ d, claim d = false) :
    r.selected = r.devices.filter main := by
  refine List.filter_congr fun d _ => ?_
  rw [Bool.eq_iff_iff, h.claims_iff]
  constructor
  · rintro (⟨claim, hclaim, hd⟩ | ⟨claim, hclaim, hd⟩)
    · cases hclaim
      exact hd
    · rw [hextra claim hclaim d] at hd
      cases hd
  · exact fun hd => Or.inl ⟨main, rfl, hd⟩

/-- Nothing is taken over while no slot has failed. -/
theorem SlotMap.takeover_of_allPassing {s : SlotMap} (h : s.allPassing = true) (id : Nat)
    (d : Device) : s.takeover id d = false := by
  have hnone : s.failed = [] := List.isEmpty_iff.1 h
  unfold takeover
  split
  · rfl
  · rw [hnone]
    rfl

/-- Whether an action installs the filter with devices of failed slots. -/
def Action.isTakeover : Action → Bool
  | .installExtra _ => true
  | _ => false

namespace Coordinator

variable {c c' : Coordinator}

/-- Nothing is in but the main shard, and nothing else is about to go in. -/
structure Homebound (c : Coordinator) : Prop where
  holds : c.registry.Holds none none ∨ c.registry.Holds (some c.mainClaim) none
  main : ∀ a ∈ c.main.todo, a.isTakeover = false
  delayed : ∀ a ∈ c.delayed.todo, a.isTakeover = false

namespace Homebound

/-- No action of either strand takes anything over. -/
theorem todo (h : Homebound c) : ∀ t, ∀ a ∈ c.todo t, a.isTakeover = false
  | .main => h.main
  | .delayed => h.delayed

/-- It stays so when a strand is given other work. -/
theorem setTodo (h : Homebound c) {t : Task} {l : List Action}
    (hl : ∀ a ∈ l, a.isTakeover = false) : Homebound (c.setTodo t l) := by
  cases t with
  | main => exact ⟨h.holds, hl, h.delayed⟩
  | delayed => exact ⟨h.holds, h.main, hl⟩

/-- It stays so when the main strand goes on to another point. -/
theorem goMain (h : Homebound c) {p : MainPoint} {l : List Action}
    (hl : ∀ a ∈ l, a.isTakeover = false) : Homebound (c.goMain p l) :=
  ⟨h.holds, hl, h.delayed⟩

/-- And when the delayed one does. -/
theorem goDelayed (h : Homebound c) {q : DelayedPoint} {l : List Action}
    (hl : ∀ a ∈ l, a.isTakeover = false) : Homebound (c.goDelayed q l) :=
  ⟨h.holds, h.main, hl⟩

/-- An action other than a takeover installs the main shard, removes it, or does neither. -/
theorem exec (h : Homebound c) (t : Task) {a : Action} (ha : a.isTakeover = false) :
    Homebound (Coordinator.exec t a c).1 := by
  have hcons : ∀ {b : Action}, b.isTakeover = false →
      ∀ a ∈ b :: c.todo t, a.isTakeover = false :=
    fun hb => List.forall_mem_cons.2 ⟨hb, h.todo t⟩
  have hmainGone : (c.registry.remove mainFilter).Holds none none := by
    rcases h.holds with hholds | hholds <;> exact hholds.removeMain
  have hextraGone : (c.registry.remove extraFilter).Holds none none ∨
      (c.registry.remove extraFilter).Holds (some c.mainClaim) none :=
    h.holds.imp (·.removeExtra) (·.removeExtra)
  have hremoved : Homebound { c with registry := c.registry.remove extraFilter } :=
    ⟨hextraGone, h.main, h.delayed⟩
  cases a with
  | installExtra => cases ha
  | installMain =>
      refine ⟨Or.inr ?_, h.main, h.delayed⟩
      rcases h.holds with hholds | hholds <;> exact hholds.addMain _
  | removeMain => exact ⟨Or.inl hmainGone, h.main, h.delayed⟩
  | removeExtra => exact hremoved
  | dropMain =>
      exact Homebound.setTodo (c := { c with registry := c.registry.remove mainFilter })
        ⟨Or.inl hmainGone, h.main, h.delayed⟩ (hcons rfl)
  | dropExtra =>
      simp only [Coordinator.exec]
      split
      · exact hremoved.setTodo (hcons rfl)
      · exact hremoved
  | unlock =>
      simp only [Coordinator.exec, handOver_eq]
      exact ⟨h.holds, h.main, h.delayed⟩
  | look =>
      simp only [Coordinator.exec]
      split
      · exact h.goDelayed (by simp [Action.isTakeover])
      · exact h
  | startTicker =>
      simp only [Coordinator.exec]
      split
      · exact ⟨h.holds, by simp [Coordinator.goMain], h.delayed⟩
      · exact ⟨h.holds, h.main, h.delayed⟩
  | spawnDelayed => exact h.goDelayed (by simp [Action.isTakeover])
  | finish => exact ⟨h.holds, by simp [Coordinator.exec, Coordinator.goMain], h.delayed⟩
  | sleep => cases t <;> exact ⟨h.holds, h.main, h.delayed⟩
  | _ => exact ⟨h.holds, h.main, h.delayed⟩

/-- Looking for itself once more, or giving up, takes nothing over. -/
theorem retry (h : Homebound c) (attempt : Nat) {l : List Action}
    (hl : ∀ a ∈ l, a.isTakeover = false) : Homebound (c.retry attempt l) := by
  unfold Coordinator.retry
  split
  · exact h.goMain (List.forall_mem_append.2 ⟨hl, by simp [Action.isTakeover]⟩)
  · exact h.goMain (List.forall_mem_append.2 ⟨hl, by simp [releaseActions, Action.isTakeover]⟩)

end Homebound

/-- **Without a decision nothing but the main shard goes in.** -/
theorem homebound_of_moves {s : Step} {es : List Effect} (hm : Moves c s c' es)
    (hg : c.main.point.isEarly = true → c.registry.Holds none none)
    (hundecided : c.decision? s = none) (h : Homebound c) : Homebound c' := by
  cases hm with
  | @act t a rest htodo _ =>
      have hall : ∀ b ∈ a :: rest, b.isTakeover = false := htodo ▸ h.todo t
      exact (h.setTodo fun b hb => hall b (List.mem_cons_of_mem _ hb)).exec t
        (hall a List.mem_cons_self)
  | @registration attempt a _ hpoint =>
      -- The slot may change here, so this rests on nothing being in yet.
      have hnone : c.registry.Holds none none := hg (by rw [hpoint]; rfl)
      cases a with
      | error e => exact h.retry attempt (by simp [Action.isTakeover])
      | ok members =>
          unfold onRegistration
          dsimp only
          split
          · exact ⟨Or.inl hnone, by simp [Coordinator.goMain, Action.isTakeover], h.delayed⟩
          · exact h.retry attempt (by simp [Action.isTakeover])
  | @warmup a _ _ =>
      cases a with
      | error e => exact h.goMain (by simp [Action.isTakeover])
      | ok members =>
          unfold onWarmup
          dsimp only
          split <;> exact h.goMain (by simp [Action.isTakeover])
  | @rebalance a _ hpoint =>
      cases a with
      | error e => exact h.goMain (by simp [Action.isTakeover])
      | ok members =>
          rw [decision?, if_pos hpoint] at hundecided
          cases hundecided
  | @check a _ _ =>
      cases a with
      | error e => exact h.goDelayed (by simp [Action.isTakeover])
      | ok members =>
          rw [decision?] at hundecided
          split at hundecided
          · next hidle =>
            refine h.goDelayed ?_
            rw [delayedActions, if_pos hidle]
            simp [Action.isTakeover]
          · cases hundecided
  | wakeRetrying | wakeWaiting | enter | halt => exact h.goMain (by simp [Action.isTakeover])
  | tick => exact ⟨h.holds, by simp [Coordinator.goMain, Action.isTakeover], h.delayed⟩
  | leave | join => exact h.goMain (by simp [releaseActions, Action.isTakeover])
  | wakeDelayed | stopDelayed => exact h.goDelayed (by simp [Action.isTakeover])
  | cut =>
      obtain ⟨owner, queue, hcut⟩ := exists_cutDelayed_eq c
      rw [hcut]
      exact ⟨h.holds, h.main, by simp [Coordinator.goDelayed]⟩
  | _ => exact ⟨h.holds, h.main, h.delayed⟩

section Started

variable {cluster : ClusterConfig} {timers : TimerConfig} {devices : List Device}
  {updates changes : Signal} {clock : Nat} {log : List Moment}

/-- Until its first decision a coordinator has nothing in but its main shard. -/
theorem homebound_of_run (hrun : Run (start cluster timers devices updates changes clock) log c)
    (hundecided : latestDecision log = none) : Homebound c := by
  induction hrun with
  | start =>
      exact ⟨Or.inl (Registry.holds_ofDevices devices), by simp [start, Action.isTakeover],
        by simp [start]⟩
  | step hrun hstep ih =>
      obtain ⟨hnow, hbefore⟩ := Option.or_eq_none_iff.1 hundecided
      exact homebound_of_moves (moves_of_step? hstep)
        (fun hearly => (gathering_of_run hrun hearly).holds) hnow (ih hbefore)

/-- A coordinator that has its main shard in, and has decided nothing yet. -/
structure Installed (cluster : ClusterConfig) (devices : List Device) (c : Coordinator) : Prop where
  exists_run : ∃ timers updates changes clock log,
    Run (start cluster timers devices updates changes clock) log c ∧ latestDecision log = none
  main : c.registry.has mainFilter = true

/-- It collects its share of the devices, and no others. -/
theorem Installed.selected_eq (h : Installed cluster devices c) :
    c.status.shardId = some c.slot ∧ c.slot < cluster.numberOfNodes ∧
      c.registry.selected = devices.filter (mainShard c.slot cluster.numberOfNodes) := by
  obtain ⟨⟨timers, updates, changes, clock, log, hrun, hundecided⟩, hmain⟩ := h
  have hsome : ¬ c.registry.Holds none none := by
    intro hnone
    rw [hnone.has_main] at hmain
    cases hmain
  have hlate : c.main.point.isEarly ≠ true :=
    fun hearly => hsome (gathering_of_run hrun hearly).holds
  have hadmitted : c.status.shardId = some c.slot ∧ Admitted cluster timers c.slot log c.clock := by
    cases gated_of_run hrun with
    | seeking hpoint => exact absurd (MainPoint.isEarly_of_isSeeking hpoint) hlate
    | found hpoint => rcases hpoint with hp | hp <;> exact absurd (by rw [hp]; rfl) hlate
    | settling hpoint => exact absurd (by rw [hpoint]; rfl) hlate
    | admitted _ hshard hadmitted => exact ⟨hshard, hadmitted⟩
    | turned _ hnone => exact absurd hnone hsome
  obtain ⟨hshard, hgates⟩ := hadmitted
  have hlt : c.slot < cluster.numberOfNodes := by
    cases hgates with
    | intro _ hfound =>
        obtain ⟨members, own, -, -, -, hlt⟩ := hfound
        exact hlt
  have hholds : c.registry.Holds (some c.mainClaim) none :=
    (homebound_of_run hrun hundecided).holds.resolve_left hsome
  have hcluster : c.cluster = cluster := cluster_of_run hrun
  have hdevices : c.registry.devices = devices := (ours_of_started hrun).devices
  refine ⟨hshard, hlt, ?_⟩
  rw [hholds.selected_eq nofun, hdevices, mainClaim, hcluster]

/-- So does a coordinator that has decided on members that leave no slot without a passing one, if
enough of them are healthy. -/
theorem DecidedOn.selected_eq {members : List Member} (h : DecidedOn cluster devices members c)
    (hpassing : (SlotMap.ofMembers cluster.numberOfNodes members).allPassing = true)
    (henough : cluster.minimumShards ≤ healthyCount members) :
    c.registry.selected = devices.filter (mainShard c.slot cluster.numberOfNodes) := by
  obtain ⟨hdecided, -, -, hdevices⟩ := h.decided
  have hholds : c.registry.Holds _ _ := hdecided.holds
  rw [if_pos henough, if_pos henough] at hholds
  have hidle : ∀ claim, some ((SlotMap.ofMembers cluster.numberOfNodes members).takeover c.slot) =
      some claim → ∀ d, claim d = false := by
    rintro claim hclaim d
    cases hclaim
    exact SlotMap.takeover_of_allPassing hpassing _ d
  rw [hholds.selected_eq hidle, hdevices]

/-- **The plan is what a healthy cluster collects.**  It has a share for each slot, the shares
divide up the positions of the list in their order, and the share of a coordinator's slot is what it
selects: from when its main shard is in until its first decision, and after every decision on
members of which enough are healthy and that leave no slot without a passing one. -/
theorem plan_is_collected (devices : List Device) {n : Nat} (hn : 0 < n) :
    (shardPlan devices n).length = n ∧
    (∃ home : Fin devices.length → Fin n, ∀ id : Fin n, (shardPlan devices n)[id.1]? =
      some (((List.finRange devices.length).filter fun i => home i = id).map devices.get)) ∧
    ∀ (cluster : ClusterConfig) (c : Coordinator), cluster.numberOfNodes = n →
      (Installed cluster devices c ∨
        ∃ members, DecidedOn cluster devices members c ∧
          (SlotMap.ofMembers n members).allPassing = true ∧
          cluster.minimumShards ≤ healthyCount members) →
      ∃ id, c.status.shardId = some id ∧
        (shardPlan devices n)[id]? = some c.registry.selected := by
  refine ⟨length_shardPlan devices n, exists_home devices hn, ?_⟩
  rintro cluster c rfl hcollects
  rcases hcollects with hinstalled | ⟨members, hdecided, hpassing, henough⟩
  · obtain ⟨hshard, hlt, hselected⟩ := hinstalled.selected_eq
    exact ⟨c.slot, hshard, by rw [getElem?_shardPlan hlt, hselected]⟩
  · obtain ⟨-, hshard, hlt, -⟩ := hdecided.decided
    exact ⟨c.slot, hshard, by
      rw [getElem?_shardPlan hlt, hdecided.selected_eq hpassing henough]⟩

/-- The first of two nodes, neither of which may be missing, collects the first share of the plan:
as soon as its main shard is in, and after its first tick finds both healthy. -/
theorem plan_is_collected_of_two :
    ∃ c d, Installed bothOfTwo devicesOfTwo c ∧
      DecidedOn bothOfTwo devicesOfTwo (membersOfTwo .passing) d ∧
      c.status.shardId = some 0 ∧ d.status.shardId = some 0 ∧
      (shardPlan devicesOfTwo 2)[0]? = some c.registry.selected ∧
      (shardPlan devicesOfTwo 2)[0]? = some d.registry.selected := by
  obtain ⟨log, c, hrun, hcheck⟩ :=
    exists_run_of_follow (start bothOfTwo {} devicesOfTwo (.ofCapacity 1) (.ofCapacity 1) 0)
      (failoverSteps.take 13)
      (fun log c => latestDecision log == none && c.registry.has mainFilter &&
        c.status.shardId == some 0) (by decide +kernel)
  simp only [Bool.and_eq_true, beq_iff_eq] at hcheck
  obtain ⟨⟨hundecided, hmain⟩, hshardc⟩ := hcheck
  have hc : Installed bothOfTwo devicesOfTwo c := ⟨⟨_, _, _, _, log, hrun, hundecided⟩, hmain⟩
  obtain ⟨d, hd, hshardd⟩ := exists_decidedOn_of_follow bothOfTwo {} devicesOfTwo (.ofCapacity 1)
    (.ofCapacity 1) 0 (decisionSteps (membersOfTwo .passing)) (membersOfTwo .passing)
    (fun d => d.status.shardId == some 0) (by decide +kernel)
  rw [beq_iff_eq] at hshardd
  obtain ⟨-, -, hshares⟩ := plan_is_collected devicesOfTwo (n := 2) (by decide)
  obtain ⟨id, hid, hfirst⟩ := hshares bothOfTwo c rfl (Or.inl hc)
  obtain ⟨id', hid', hlater⟩ := hshares bothOfTwo d rfl
    (Or.inr ⟨_, hd, by decide +kernel, by decide +kernel⟩)
  obtain rfl : id = 0 := Option.some.inj (hid.symm.trans hshardc)
  obtain rfl : id' = 0 := Option.some.inj (hid'.symm.trans hshardd)
  exact ⟨c, d, hc, hd, hshardc, hshardd, hfirst, hlater⟩

end Started

end Coordinator

end FleetSharding
