import FleetSharding.Proofs.Coordinator.Naming
import FleetSharding.Proofs.Coordinator.Release

/-!
# Nothing is collected before the gates have passed

A coordinator finds itself among the members, sees enough of them healthy, and waits out a pause, in
this order, before it installs its first filter.  Whoever is stopped on the way goes to its release
with nothing installed.

* `Admitted`: the three gates in a log, with the times at which they were passed.
* `Gated`, `gated_of_run`: how far through the gates a coordinator is.
* `gates_before_collecting`: whoever selects a device has passed all three.
-/

namespace FleetSharding

/-- Whether an action installs a filter. -/
def Action.isInstall : Action → Bool
  | .installMain | .installExtra _ => true
  | _ => false

/-- The first passing member with the coordinator's own address has a slot of the cluster. -/
def Moment.Finds (m : Moment) (cluster : ClusterConfig) (id : Nat) : Prop :=
  ∃ members own, m.step = .answer .main (.ok members) ∧ ownMember? cluster members = some own ∧
    own.slot = some id ∧ id < cluster.numberOfNodes

/-- Enough members are healthy to begin with. -/
def Moment.Warms (m : Moment) (cluster : ClusterConfig) : Prop :=
  ∃ members, m.step = .answer .main (.ok members) ∧
    cluster.initializingShards ≤ healthyCount members

/-- A slot of its own is found. -/
theorem exists_own_of_ownSlot? {cluster : ClusterConfig} {members : List Member} {id : Nat}
    (h : ownSlot? cluster members = some id) :
    ∃ own, ownMember? cluster members = some own ∧ own.slot = some id ∧
      id < cluster.numberOfNodes := by
  obtain ⟨own, hown, hslot⟩ := Option.bind_eq_some_iff.1 h
  obtain ⟨hid, hlt⟩ := Option.filter_eq_some_iff.1 hslot
  exact ⟨own, hown, hid, of_decide_eq_true hlt⟩

/-- The first gate has been passed by a time. -/
def Found (cluster : ClusterConfig) (id : Nat) (log : List Moment) (now : Nat) : Prop :=
  ∃ m ∈ log, m.Finds cluster id ∧ m.before.clock ≤ now

/-- The second gate was passed at a time, after the first one, and no shutdown has been seen
since. -/
def Warmed (cluster : ClusterConfig) (id : Nat) (log : List Moment) (time : Nat) : Prop :=
  ∃ later m earlier, log = later ++ m :: earlier ∧ m.Warms cluster ∧ m.before.clock = time ∧
    Found cluster id earlier time ∧ ∀ m ∈ later, ∀ t, m.step ≠ .stop t

/-- All gates have been passed by a time: the coordinator has found itself under a slot, then enough
members were healthy, and then a pause has lasted its full time without the shutdown being seen. -/
inductive Admitted (cluster : ClusterConfig) (timers : TimerConfig) (id : Nat) (log : List Moment)
    (now : Nat) : Prop
  | intro {since pause waiting before : List Moment} {found warm entry : Moment}
      (hlog : log = since ++ entry :: (pause ++ warm :: (waiting ++ found :: before)))
      (hfound : found.Finds cluster id) (hwarm : warm.Warms cluster)
      (hentry : entry.step = .wake .main) (hunseen : ∀ m ∈ pause, ∀ t, m.step ≠ .stop t)
      (hfirst : found.before.clock ≤ warm.before.clock)
      (hpause : warm.before.clock + timers.settleWindow.nanos ≤ entry.before.clock)
      (hnow : entry.before.clock ≤ now)

section Gates

variable {cluster : ClusterConfig} {timers : TimerConfig} {id now later : Nat}
  {log : List Moment}

/-- What was found stays found. -/
theorem Found.cons (h : Found cluster id log now) (hlater : now ≤ later) (m : Moment) :
    Found cluster id (m :: log) later := by
  obtain ⟨m', hm', hfinds, hclock⟩ := h
  exact ⟨m', List.mem_cons_of_mem _ hm', hfinds, hclock.trans hlater⟩

/-- What a gate has seen is still seen later, unless a strand was stopped. -/
theorem Warmed.cons (h : Warmed cluster id log now) {m : Moment} (hm : ∀ t, m.step ≠ .stop t) :
    Warmed cluster id (m :: log) now := by
  obtain ⟨later, m', earlier, rfl, hwarm, hclock, hfound, hunseen⟩ := h
  exact ⟨m :: later, m', earlier, rfl, hwarm, hclock, hfound, List.forall_mem_cons.2 ⟨hm, hunseen⟩⟩

/-- Whoever was admitted stays so. -/
theorem Admitted.cons (h : Admitted cluster timers id log now) (hlater : now ≤ later)
    (m : Moment) : Admitted cluster timers id (m :: log) later := by
  cases h with
  | @intro since _ _ _ _ _ entry hlog hfound hwarm hentry hunseen hfirst hpause hnow =>
      have hlog' : m :: log = (m :: since) ++ entry :: _ := congrArg (m :: ·) hlog
      exact .intro hlog' hfound hwarm hentry hunseen hfirst hpause (hnow.trans hlater)

/-- The end of the pause admits. -/
theorem Warmed.admitted {time : Nat} (h : Warmed cluster id log time) {m : Moment}
    (hentry : m.step = .wake .main) (hpause : time + timers.settleWindow.nanos ≤ m.before.clock) :
    Admitted cluster timers id (m :: log) m.before.clock := by
  obtain ⟨later, warm, earlier, rfl, hwarm, rfl, ⟨found, hmem, hfinds, hfirst⟩, hunseen⟩ := h
  obtain ⟨waiting, before, rfl⟩ := List.append_of_mem hmem
  have hlog : m :: (later ++ warm :: (waiting ++ found :: before)) = [] ++ m :: _ := rfl
  exact .intro hlog hfinds hwarm hentry hunseen hfirst hpause (Nat.le_refl _)

end Gates

namespace Coordinator

variable {c c' : Coordinator}

/-- Installing nothing, an action leaves a registry without filters as it is. -/
theorem holds_exec {a : Action} (ha : a.isInstall = false) (t : Task)
    (h : c.registry.Holds none none) : (exec t a c).1.registry.Holds none none := by
  cases a with
  | installMain | installExtra => cases ha
  | removeMain => exact h.removeMain
  | removeExtra => exact h.removeExtra
  | dropMain => cases t <;> exact h.removeMain
  | dropExtra =>
      simp only [exec]
      cases t <;> split <;> exact h.removeExtra
  | unlock =>
      simp only [exec, handOver_eq]
      exact h
  | look | startTicker =>
      simp only [exec]
      split <;> exact h
  | _ => cases t <;> exact h

/-- A release installs nothing. -/
theorem Unwinding.isInstall {log : List Moment} (h : Unwinding log c) :
    ∀ a ∈ c.main.todo, a.isInstall = false := by
  cases h with
  | begun _ hbefore htodo _ =>
      rw [htodo, List.forall_mem_append]
      refine ⟨fun a ha => ?_, by simp [releaseActions, Action.isInstall]⟩
      have hwrite : a.isWrite = false := (hbefore a ha).2
      cases a with
      | installMain | installExtra => cases hwrite
      | _ => rfl
  | owning _ htodo | halfway _ htodo | recalling _ htodo | recalled _ htodo =>
      rw [htodo]
      simp [Action.isInstall]
  | cleared _ htodo _ =>
      intro a ha
      rcases htodo a ha with rfl | ⟨o, rfl⟩ <;> rfl

/-- The pause is still to begin, or will not end before it has lasted its time. -/
def Pausing (timers : TimerConfig) (time : Nat) (c : Coordinator) : Prop :=
  (time ≤ c.clock ∧ ∃ before, c.main.todo = before ++ [.sleep timers.settleWindow]) ∨
    (c.main.todo = [] ∧ time + timers.settleWindow.nanos ≤ c.main.due)

/-- How far through the gates a coordinator is. -/
inductive Gated (cluster : ClusterConfig) (timers : TimerConfig) (log : List Moment)
    (c : Coordinator) : Prop
  | seeking (hpoint : c.main.point.isSeeking = true)
  | found (hpoint : c.main.point = .warming ∨ c.main.point = .waiting)
      (hfound : Found cluster c.slot log c.clock)
  | settling {time : Nat} (hpoint : c.main.point = .settling)
      (hwarmed : Warmed cluster c.slot log time) (hpausing : Pausing timers time c)
  | admitted (hlate : c.main.point.isEarly = false) (hshard : c.status.shardId = some c.slot)
      (hadmitted : Admitted cluster timers c.slot log c.clock)
  /-- Stopped on the way, or not seen in time. -/
  | turned (hclosing : c.main.point.isClosing = true) (hholds : c.registry.Holds none none)

section Step

variable {cluster : ClusterConfig} {timers : TimerConfig} {log : List Moment} {s : Step}
  {es : List Effect}

/-- While it looks for itself a coordinator comes to the first gate, or turns back. -/
theorem gated_of_seeking (hcluster : c.cluster = cluster) (hg : Gathering c)
    (hpoint : c.main.point.isSeeking = true) (h : Gathers c s c') :
    Gated cluster timers (⟨c, s, es⟩ :: log) c' := by
  have hretry : ∀ (attempt : Nat) (l : List Action),
      Gated cluster timers (⟨c, s, es⟩ :: log) (c.retry attempt l) := by
    intro attempt l
    unfold retry
    split
    · exact .seeking rfl
    · exact .turned rfl hg.holds
  have habsurd : ∀ {p : MainPoint}, c.main.point = p → p.isSeeking ≠ true → False := by
    intro p hp hnot
    exact hnot (hp ▸ hpoint)
  cases h with
  | @act a rest htodo =>
      obtain ⟨hsame, -⟩ := exec_gathering (hg.todo a (htodo ▸ List.mem_cons_self)) c rest
      exact .seeking (hsame ▸ hpoint)
  | @registration attempt a _ _ =>
      cases a with
      | error e => exact hretry _ _
      | ok members =>
          unfold onRegistration
          dsimp only
          split
          · next id hown =>
            obtain ⟨own, hfound, hslot, hlt⟩ := exists_own_of_ownSlot? (hcluster ▸ hown)
            exact .found (Or.inl rfl)
              ⟨_, List.mem_cons_self, ⟨members, own, rfl, hfound, hslot, hlt⟩, Nat.le_refl _⟩
          · exact hretry _ _
  | warmup _ hp | recount _ hp | enter _ hp _ => exact (habsurd hp nofun).elim
  | again => exact .seeking rfl
  | leave => exact .turned rfl hg.holds
  | stay hmain => exact .seeking (hmain ▸ hpoint)

/-- After the first gate it comes to the second, or turns back. -/
theorem gated_of_found (hcluster : c.cluster = cluster) (htimers : c.timers = timers)
    (hg : Gathering c) (hpoint : c.main.point = .warming ∨ c.main.point = .waiting)
    (hfound : Found cluster c.slot log c.clock) (h : Gathers c s c') :
    Gated cluster timers (⟨c, s, es⟩ :: log) c' := by
  have habsurd : ∀ {p : MainPoint}, c.main.point = p → p ≠ .warming → p ≠ .waiting → False := by
    rintro p rfl hnot hnot'
    exact hpoint.elim hnot hnot'
  cases h with
  | @act a rest htodo =>
      obtain ⟨hsame, -⟩ := exec_gathering (hg.todo a (htodo ▸ List.mem_cons_self)) c rest
      refine .found (hsame ▸ hpoint) ?_
      rw [slot_exec, (timers_exec _ _ _).2]
      exact hfound.cons (Nat.le_refl _) _
  | @warmup a _ _ =>
      cases a with
      | error e => exact .found (Or.inr rfl) (hfound.cons (Nat.le_refl _) _)
      | ok members =>
          unfold onWarmup
          dsimp only
          split
          · next henough =>
            rw [hcluster] at henough
            have hwarmed : Warmed cluster c.slot (⟨c, .answer .main (.ok members), es⟩ :: log)
                c.clock := ⟨[], _, log, rfl, ⟨members, rfl, henough⟩, rfl, hfound, by simp⟩
            exact .settling rfl hwarmed (Or.inl ⟨Nat.le_refl _, [_, _, _], by rw [htimers]; rfl⟩)
          · exact .found (Or.inr rfl) (hfound.cons (Nat.le_refl _) _)
  | recount => exact .found (Or.inl rfl) (hfound.cons (Nat.le_refl _) _)
  | registration _ hp | again _ hp | enter _ hp _ => exact (habsurd hp nofun nofun).elim
  | leave => exact .turned rfl hg.holds
  | stay hmain _ hslot _ hclock =>
      exact .found (hmain ▸ hpoint) (hslot ▸ hfound.cons hclock _)

/-- After the second gate it waits, or turns back. -/
theorem gated_of_settling (hnamed : Named c) (hg : Gathering c) {time : Nat}
    (hpoint : c.main.point = .settling) (hwarmed : Warmed cluster c.slot log time)
    (hpausing : Pausing timers time c) (h : Gathers c s c') :
    Gated cluster timers (⟨c, s, es⟩ :: log) c' := by
  cases h with
  | @act a rest htodo =>
      obtain ⟨hsame, hrest⟩ := exec_gathering (hg.todo a (htodo ▸ List.mem_cons_self)) c rest
      have hwarmed' : Warmed cluster c.slot (⟨c, .run .main, es⟩ :: log) time := hwarmed.cons nofun
      refine .settling (hsame.trans hpoint) (by rw [slot_exec]; exact hwarmed') ?_
      rcases hpausing with ⟨htime, before, hbefore⟩ | ⟨hnone, -⟩
      · rw [hbefore] at htodo
        cases before with
        | nil =>
            obtain ⟨rfl, rfl⟩ := List.cons.inj htodo
            exact Or.inr ⟨rfl, Nat.add_le_add_right htime _⟩
        | cons b before =>
            obtain ⟨rfl, rfl⟩ := List.cons.inj htodo
            refine Or.inl ⟨?_, before, hrest⟩
            rw [(timers_exec _ _ _).2]
            exact htime
      · cases hnone.symm.trans htodo
  | enter htodo _ hdue =>
      rcases hpausing with ⟨-, before, hbefore⟩ | ⟨-, hpause⟩
      · simp [htodo] at hbefore
      · exact .admitted rfl (hnamed.shardId_of_settling hpoint)
          (hwarmed.admitted rfl (hpause.trans hdue))
  | leave => exact .turned rfl hg.holds
  | stay hmain _ hslot _ hclock hunseen =>
      refine .settling (hmain ▸ hpoint) (hslot ▸ hwarmed.cons hunseen) ?_
      rcases hpausing with ⟨htime, before, hbefore⟩ | ⟨hnone, hpause⟩
      · exact Or.inl ⟨htime.trans hclock, before, hmain ▸ hbefore⟩
      · exact Or.inr ⟨hmain ▸ hnone, hmain ▸ hpause⟩
  | registration _ hp | warmup _ hp | again _ hp | recount _ hp => cases hpoint.symm.trans hp

/-- Whoever turned back installs nothing any more. -/
theorem gated_of_turned (hd : c.work.Disciplined) (hunwinding : Unwinding log c)
    (hholds : c.registry.Holds none none) (hm : Moves c s c' es) :
    Gated cluster timers (⟨c, s, es⟩ :: log) c' := by
  refine .turned (unwinding_of_moves hd hm hunwinding).closing ?_
  rcases moves_of_closing hd hm hunwinding.closing with ⟨a, rest, -, htodo, rfl⟩ | ⟨-, hsame, -⟩
  · exact holds_exec (hunwinding.isInstall a (htodo ▸ List.mem_cons_self)) .main hholds
  · rw [hsame]
    exact hholds

/-- **Every move leads to the next gate or back.** -/
theorem gated_of_moves (hd : c.work.Disciplined) (hcluster : c.cluster = cluster)
    (htimers : c.timers = timers) (hg : c.main.point.isEarly = true → Gathering c)
    (hnamed : Named c) (hunwinding : c.main.point.isClosing = true → Unwinding log c)
    (hm : Moves c s c' es) (h : Gated cluster timers log c) :
    Gated cluster timers (⟨c, s, es⟩ :: log) c' := by
  cases h with
  | seeking hpoint =>
      have hearly : c.main.point.isEarly = true := MainPoint.isEarly_of_isSeeking hpoint
      exact gated_of_seeking hcluster (hg hearly) hpoint (gathers_of_moves hd hm hearly)
  | found hpoint hfound =>
      have hearly : c.main.point.isEarly = true := by
        rcases hpoint with hp | hp <;> rw [hp] <;> rfl
      exact gated_of_found hcluster htimers (hg hearly) hpoint hfound
        (gathers_of_moves hd hm hearly)
  | settling hpoint hwarmed hpausing =>
      have hearly : c.main.point.isEarly = true := by rw [hpoint]; rfl
      exact gated_of_settling hnamed (hg hearly) hpoint hwarmed hpausing
        (gathers_of_moves hd hm hearly)
  | admitted hlate hshard hadmitted =>
      have hslot : c'.slot = c.slot := hnamed.slot_of_moves hm hlate
      refine .admitted (Bool.eq_false_iff.2 fun hearly => ?_) ?_ ?_
      · exact nomatch hlate.symm.trans (early_of_moves hm hearly)
      · rw [hslot]
        exact hnamed.shardId_of_moves hm hshard
      · rw [hslot]
        exact hadmitted.cons (timers_of_moves hm).2 _
  | turned hclosing hholds => exact gated_of_turned hd (hunwinding hclosing) hholds hm

end Step

section Started

variable {cluster : ClusterConfig} {timers : TimerConfig} {devices : List Device}
  {updates changes : Signal} {clock : Nat} {log : List Moment}

/-- Every coordinator is somewhere on its way through the gates, past them, or back. -/
theorem gated_of_run (hrun : Run (start cluster timers devices updates changes clock) log c) :
    Gated cluster timers log c := by
  induction hrun with
  | start => exact .seeking rfl
  | step hrun hstep ih =>
      have hd := disciplined_start cluster timers devices updates changes clock
      exact gated_of_moves (disciplined_of_run hrun hd) (cluster_of_run hrun) hrun.timers.1
        (gathering_of_run hrun) (named_of_run hrun) (unwinding_of_run hrun hd rfl).2
        (moves_of_step? hstep) ih

/-- **Nothing is collected before the gates have passed**, by the coordinator of the slot that the
status names; and the status never names another one. -/
theorem gates_before_collecting
    (hrun : Run (start cluster timers devices updates changes clock) log c) :
    (c.registry.selected ≠ [] →
      ∃ id, c.status.shardId = some id ∧ Admitted cluster timers id log c.clock) ∧
      ∀ m ∈ log, ∀ id, m.before.status.shardId = some id → c.status.shardId = some id := by
  refine ⟨fun hselected => ?_, shardId_of_run hrun⟩
  have hnone : ¬ c.registry.Holds none none := by
    intro hholds
    refine hselected (List.filter_eq_nil_iff.2 fun d _ hclaims => ?_)
    rcases (hholds.claims_iff d).1 hclaims with ⟨claim, hclaim, -⟩ | ⟨claim, hclaim, -⟩ <;>
      cases hclaim
  have hlate : c.main.point.isEarly ≠ true := fun hearly =>
    hnone (gathering_of_run hrun hearly).holds
  cases gated_of_run hrun with
  | seeking hpoint => exact absurd (MainPoint.isEarly_of_isSeeking hpoint) hlate
  | found hpoint => rcases hpoint with hp | hp <;> exact absurd (by rw [hp]; rfl) hlate
  | settling hpoint => exact absurd (by rw [hpoint]; rfl) hlate
  | admitted _ hshard hadmitted => exact ⟨c.slot, hshard, hadmitted⟩
  | turned _ hholds => exact absurd hholds hnone

/-- The second of two nodes collects its share as soon as the gates have passed. -/
theorem gates_before_collecting_of_two :
    ∃ log c, Run (ofTwo "b") log c ∧ c.registry.selected = devicesOfTwo.drop 1 ∧
      c.status.shardId = some 1 ∧
      Admitted { nodeAddress := "b", numberOfNodes := 2 } {} 1 log c.clock ∧
      ∀ m ∈ log, ∀ id, m.before.status.shardId = some id → id = 1 := by
  obtain ⟨log, c, hrun, hcheck⟩ := exists_run_of_follow (ofTwo "b") (failoverSteps.take 13)
    (fun _ c => c.registry.selected == devicesOfTwo.drop 1 && c.status.shardId == some 1)
    (by decide +kernel)
  simp only [Bool.and_eq_true, beq_iff_eq] at hcheck
  obtain ⟨hselected, hshard⟩ := hcheck
  obtain ⟨hgates, hstays⟩ := gates_before_collecting hrun
  obtain ⟨id, hid, hadmitted⟩ := hgates (by rw [hselected]; decide)
  obtain rfl : id = 1 := Option.some.inj (hid.symm.trans hshard)
  exact ⟨log, c, hrun, hselected, hshard, hadmitted, fun m hm id hid =>
    Option.some.inj ((hstays m hm id hid).symm.trans hshard)⟩

end Started

end Coordinator

end FleetSharding
