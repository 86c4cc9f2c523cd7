import FleetSharding.Proofs.Coordinator.Published

/-!
# Calls of the rebalance

Between its release and the moment when the main shard went in, a coordinator may be told to
rebalance any number of times.  What there is after such calls depends on the latest one that got an
answer, and on nothing that was before it.

* `rebalance?`: a call, from taking the ownership to giving it back.
* `exists_rebalance?`: every call comes to its end; what it leaves is `Standing.after`.
* `last_success_decides`: coordinators with different pasts agree after the same last success.
-/

namespace FleetSharding

/-- The members that the latest successful query of several told of. -/
def lastSuccess? (answers : List Answer) : Option (List Member) :=
  (answers.filterMap Except.toOption).getLast?

namespace Standing

variable {cluster cluster' : ClusterConfig} {slot : Nat} {members : List Member}
  {s s' : Standing}

/-- What a call of the rebalance leaves, by the answer that it gets. -/
def after (cluster : ClusterConfig) (slot : Nat) (s : Standing) : Answer → Standing
  | .ok members => s.rebalanced cluster slot members
  | .error _ => s.publish .discoveryFailed

/-- The same filters are in, the flag is the same, and the same is said of the decision. -/
structure Agrees (s s' : Standing) : Prop where
  filters : s.registry.filters = s'.registry.filters
  suspended : s.suspended = s'.suspended
  phase : s.status.phase = s'.status.phase
  healthy : s.status.healthyMembers = s'.status.healthyMembers
  failed : s.status.failedSlots = s'.status.failedSlots
  names : s.status.filters = s'.status.filters

theorem Agrees.trans {s'' : Standing} (h : s.Agrees s') (h' : s'.Agrees s'') : s.Agrees s'' where
  filters := h.filters.trans h'.filters
  suspended := h.suspended.trans h'.suspended
  phase := h.phase.trans h'.phase
  healthy := h.healthy.trans h'.healthy
  failed := h.failed.trans h'.failed
  names := h.names.trans h'.names

/-- The main filter is in unless collection is suspended, and the status names what is in. -/
structure Tended (slot nodes : Nat) (s : Standing) : Prop where
  poised : s.Poised slot nodes
  names : s.status.filters = s.registry.names

/-- A failed query changes nothing but what is said of the discovery. -/
theorem Tended.agrees_fail {nodes : Nat} (h : s.Tended slot nodes) :
    (s.publish .discoveryFailed).Agrees s :=
  ⟨rfl, rfl, rfl, rfl, rfl, h.names.symm⟩

/-- It leaves what was decided. -/
theorem Decided.fail (h : s.Decided cluster slot members) :
    (s.publish .discoveryFailed).Decided cluster slot members :=
  ⟨h.holds, h.suspended, h.phase, h.healthy, h.failed⟩

/-- What a call leaves is tended as before. -/
theorem Tended.after (h : s.Tended slot cluster.numberOfNodes) (a : Answer) :
    (s.after cluster slot a).Tended slot cluster.numberOfNodes := by
  cases a with
  | error e => exact ⟨h.poised, rfl⟩
  | ok members =>
      have hsettled : (s.rebalanced cluster slot members).Settled cluster slot
          (some (.rebalance members)) := decided_rebalanced h.poised
      exact ⟨hsettled.poised, (s.status_rebalanced cluster slot members).2.2⟩

/-- Two decisions on the same members agree, for one slot of clusters with the same settings. -/
theorem Decided.agrees (h : s.Decided cluster slot members) (h' : s'.Decided cluster' slot members)
    (hnodes : cluster.numberOfNodes = cluster'.numberOfNodes)
    (hminimum : cluster.minimumShards = cluster'.minimumShards)
    (hnames : s.status.filters = s.registry.names)
    (hnames' : s'.status.filters = s'.registry.names) : s.Agrees s' := by
  obtain ⟨hholds, hsuspended, hphase, hhealthy, hfailed⟩ := h
  obtain ⟨hholds', hsuspended', hphase', hhealthy', hfailed'⟩ := h'
  rw [hnodes, hminimum] at hholds
  have hfilters : s.registry.filters = s'.registry.filters := hholds.filters_eq hholds'
  refine ⟨hfilters, ?_, ?_, ?_, ?_, ?_⟩
  · rw [hsuspended, hsuspended', hminimum]
  · rw [hphase, hphase', hnodes, hminimum]
  · rw [hhealthy, hhealthy']
  · rw [hfailed, hfailed', hnodes]
  · rw [hnames, hnames', Registry.names, Registry.names, hfilters]

/-- **Calls in a row leave what the latest success decides**; without any, what was there before. -/
theorem foldl_after (h : s.Tended slot cluster.numberOfNodes) (answers : List Answer) :
    (answers.foldl (Standing.after cluster slot) s).Tended slot cluster.numberOfNodes ∧
      match lastSuccess? answers with
      | none => (answers.foldl (Standing.after cluster slot) s).Agrees s
      | some members =>
        (answers.foldl (Standing.after cluster slot) s).Decided cluster slot members := by
  induction answers using List.reverseRecOn with
  | nil => exact ⟨h, rfl, rfl, rfl, rfl, rfl, rfl⟩
  | append_singleton answers a ih =>
      obtain ⟨htended, hlast⟩ := ih
      rw [List.foldl_append, List.foldl_cons, List.foldl_nil]
      refine ⟨htended.after a, ?_⟩
      cases a with
      | ok members =>
          have hsuccess : lastSuccess? (answers ++ [.ok members]) = some members := by
            simp [lastSuccess?, Except.toOption]
          rw [hsuccess]
          exact decided_rebalanced htended.poised
      | error e =>
          have hsuccess : lastSuccess? (answers ++ [.error e]) = lastSuccess? answers := by
            simp [lastSuccess?, Except.toOption]
          rw [hsuccess]
          cases hbefore : lastSuccess? answers with
          | none =>
              rw [hbefore] at hlast
              exact htended.agrees_fail.trans hlast
          | some members =>
              rw [hbefore] at hlast
              exact Decided.fail hlast

end Standing

/-- Whether an action of the main strand is done with when it is done: it takes or gives no
ownership, waits for nothing, and leaves nothing else to do. -/
def Action.isPlain : Action → Bool
  | .dropMain | .dropExtra _ => false
  | a => a.isOrdinary

namespace Coordinator

variable {c c' : Coordinator}

/-- Nobody holds the ownership or waits for it, so no decision is being made. -/
structure Unowned (c : Coordinator) : Prop where
  owner : c.owner = none
  queue : c.queue = []

/-- All that decisions of the main strand depend on, apart from the standing, is as it was. -/
structure SameSeat (c c' : Coordinator) : Prop where
  cluster : c'.cluster = c.cluster
  slot : c'.slot = c.slot
  owner : c'.owner = c.owner
  queue : c'.queue = c.queue

theorem SameSeat.trans {c'' : Coordinator} (h : c.SameSeat c') (h' : c'.SameSeat c'') :
    c.SameSeat c'' where
  cluster := h'.cluster.trans h.cluster
  slot := h'.slot.trans h.slot
  owner := h'.owner.trans h.owner
  queue := h'.queue.trans h.queue

/-- The steps of a call: the ownership is taken, the members are asked for, and what follows from
the answer is done to the end. -/
def callSteps (c : Coordinator) (a : Answer) : List Step :=
  [.run .main, .run .main, .answer .main a] ++
    List.replicate (c.onRebalance a).main.todo.length (.run .main)

/-- The main strand is called to rebalance, as by a tick after a change. -/
def called (c : Coordinator) : Coordinator := { c with dirty := true }.tick

/-- A call of the rebalance, up to its end. -/
def rebalance? (c : Coordinator) (a : Answer) : Option Coordinator :=
  (c.called.follow [] (c.callSteps a)).map Prod.snd

/-- A call of the steady loop is a tick with something to act on. -/
theorem called_eq (c : Coordinator) :
    c.called = { c with dirty := true, tickDue := c.nextTick }.goMain .rebalancing
      [.acquire, .ask] :=
  tick_of_dirty rfl

/-- A plain action is done, and nothing else changes than what it writes. -/
theorem exec_plain {a : Action} (ha : a.isPlain = true) (c : Coordinator) (rest : List Action) :
    (exec .main a (c.setTodo .main rest)).1.main.todo = rest ∧
      c.SameSeat (exec .main a (c.setTodo .main rest)).1 ∧
      (exec .main a (c.setTodo .main rest)).1.standing =
        c.standing.write c.slot c.cluster.numberOfNodes a := by
  cases a with
  | acquire | unlock | ask | look | settle | startTicker | spawnDelayed | abortDelayed | finish
  | dropMain | dropExtra => cases ha
  | _ => exact ⟨rfl, ⟨rfl, rfl, rfl, rfl⟩, rfl⟩

/-- A plain action does not take the ownership. -/
theorem Action.ne_acquire_of_isPlain {a : Action} (ha : a.isPlain = true) : a ≠ .acquire := by
  rintro rfl
  cases ha

/-- The main strand does what comes next, unless it has to wait for the ownership. -/
theorem step?_run {a : Action} {rest : List Action} (htodo : c.main.todo = a :: rest)
    (hfree : c.isBlocked .main = false) :
    c.step? (.run .main) = some (exec .main a (c.setTodo .main rest)) := by
  have htodo' : c.todo .main = a :: rest := htodo
  simp only [step?, run?, htodo', hfree, if_neg Bool.false_ne_true]

/-- Only to take the ownership it may have to wait. -/
theorem isBlocked_of_ne_acquire {a : Action} {rest : List Action} (htodo : c.main.todo = a :: rest)
    (ha : a ≠ .acquire) : c.isBlocked .main = false := by
  have htodo' : c.todo .main = a :: rest := htodo
  unfold isBlocked
  rw [htodo']
  cases a <;> first | rfl | exact absurd rfl ha

/-- **Plain actions are all done, one after the other.** -/
theorem exists_follow_plain {l rest : List Action} (hl : ∀ a ∈ l, a.isPlain = true)
    (htodo : c.main.todo = l ++ rest) (log : List Moment) :
    ∃ log' d, c.follow log (List.replicate l.length (.run .main)) = some (log', d) ∧
      d.main.todo = rest ∧ c.SameSeat d ∧
      d.standing = c.standing.carryOut c.slot c.cluster.numberOfNodes l := by
  induction l generalizing c log with
  | nil => exact ⟨log, c, rfl, htodo, ⟨rfl, rfl, rfl, rfl⟩, rfl⟩
  | cons a l ih =>
      have ha : a.isPlain = true := hl a List.mem_cons_self
      have hacquire : a ≠ .acquire := Action.ne_acquire_of_isPlain ha
      have hstep := step?_run htodo (isBlocked_of_ne_acquire htodo hacquire)
      have hdone := exec_plain ha c (l ++ rest)
      generalize exec .main a (c.setTodo .main (l ++ rest)) = r at hstep hdone
      obtain ⟨next, es⟩ := r
      obtain ⟨htodo', hseat', hstanding'⟩ := hdone
      obtain ⟨log', d, hfollow, hrest, hseat, hstanding⟩ :=
        ih (fun b hb => hl b (List.mem_cons_of_mem _ hb)) htodo' (⟨c, .run .main, es⟩ :: log)
      refine ⟨log', d, ?_, hrest, hseat'.trans hseat, ?_⟩
      · rw [List.length_cons, List.replicate_succ, follow_cons hstep, hfollow]
      · rw [hstanding, hseat'.slot, hseat'.cluster, hstanding',
          Standing.carryOut_cons c.standing hacquire]

/-- What carries out a decision is plain. -/
theorem isPlain_of_ofDecision {a : Action} (ha : a.OfDecision) : a.isPlain = true := by
  cases ha <;> rfl

/-- Nobody waits for the ownership, so giving it back leaves it to nobody. -/
theorem exists_follow_unlock {rest : List Action} (htodo : c.main.todo = .unlock :: rest)
    (hqueue : c.queue = []) (hrest : rest = [] ∨ rest = [.settle]) (log : List Moment) :
    ∃ log' d, c.follow log (List.replicate (Action.unlock :: rest).length (.run .main)) =
        some (log', d) ∧
      d.Unowned ∧ d.cluster = c.cluster ∧ d.slot = c.slot ∧ d.standing = c.standing := by
  have hunlock := step?_run htodo (isBlocked_of_ne_acquire htodo (by nofun))
  have hfree : (c.setTodo .main rest).handOver = { c.setTodo .main rest with owner := none } := by
    rw [handOver_eq]
    simp [setTodo, hqueue]
  rw [List.length_cons, List.replicate_succ, follow_cons hunlock]
  simp only [hfree]
  rcases hrest with rfl | rfl
  · exact ⟨_, _, rfl, ⟨rfl, hqueue⟩, rfl, rfl, rfl⟩
  · exact ⟨_, _, rfl, ⟨rfl, hqueue⟩, rfl, rfl, rfl⟩

/-- What follows from an answer is done, and the ownership is given back. -/
theorem exists_follow_onRebalance (hqueue : c.queue = []) (a : Answer) (log : List Moment) :
    ∃ log' d, (c.onRebalance a).follow log
        (List.replicate (c.onRebalance a).main.todo.length (.run .main)) = some (log', d) ∧
      d.Unowned ∧ d.cluster = c.cluster ∧ d.slot = c.slot ∧
      d.standing = c.standing.after c.cluster c.slot a := by
  -- Both answers are followed by plain actions, and then by the end of the call.
  have hdone : ∀ {l rest : List Action}, (∀ a ∈ l, a.isPlain = true) →
      (rest = [] ∨ rest = [.settle]) →
      ∃ log' d, (c.goMain .steady (l ++ .unlock :: rest)).follow log
          (List.replicate (l ++ .unlock :: rest).length (.run .main)) = some (log', d) ∧
        d.Unowned ∧ d.cluster = c.cluster ∧ d.slot = c.slot ∧
        d.standing = c.standing.carryOut c.slot c.cluster.numberOfNodes l := by
    intro l rest hl hrest
    obtain ⟨log₁, c₁, hfollow₁, htodo₁, hseat₁, hstanding₁⟩ :=
      exists_follow_plain (c := c.goMain .steady (l ++ .unlock :: rest)) hl rfl log
    obtain ⟨log₂, d, hfollow₂, hfree, hcluster, hslot, hstanding₂⟩ :=
      exists_follow_unlock htodo₁ (hseat₁.queue.trans hqueue) hrest log₁
    refine ⟨log₂, d, ?_, hfree, hcluster.trans hseat₁.cluster, hslot.trans hseat₁.slot,
      hstanding₂.trans hstanding₁⟩
    rw [List.length_append, List.replicate_add, follow_append, hfollow₁]
    exact hfollow₂
  cases a with
  | ok members =>
      exact hdone (fun a ha => isPlain_of_ofDecision (ofDecision_of_mem_rebalanceActions ha))
        (Or.inr rfl)
  | error e =>
      exact hdone (l := [_, _, _, _]) (by simp [Action.isPlain, Action.isOrdinary]) (Or.inl rfl)

/-- The main strand holds the ownership, with work to do. -/
def holding (c : Coordinator) (todo : List Action) : Coordinator :=
  { c.setTodo .main todo with owner := some .main }

/-- Before that, the ownership is free to take, and the main strand asks and is answered. -/
theorem exists_follow_asked (htodo : c.main.todo = [.acquire, .ask])
    (hpoint : c.main.point = .rebalancing) (howner : c.owner = none) (a : Answer)
    (log : List Moment) (steps : List Step) :
    ∃ log', c.follow log ([.run .main, .run .main, .answer .main a] ++ steps) =
      ((c.holding []).onRebalance a).follow log' steps := by
  have hfree : c.isBlocked .main = false := by
    have htodo' : c.todo .main = [.acquire, .ask] := htodo
    simp [isBlocked, htodo', mayAcquire, howner]
  have hacquire : c.step? (.run .main) = some (c.holding [.ask], []) := step?_run htodo hfree
  have hask : (c.holding [.ask]).step? (.run .main) = some (c.holding [], [.asked .main]) :=
    step?_run (c := c.holding [.ask]) rfl rfl
  have hanswer : (c.holding []).step? (.answer .main a) =
      some ((c.holding []).onRebalance a, []) := by
    simp [step?, answerMain?, holding, setTodo, hpoint]
  exact ⟨_, (follow_cons hacquire _ _).trans
    ((follow_cons hask _ _).trans (follow_cons hanswer _ _))⟩

/-- **Every call comes to its end**, and leaves what the answer makes of the standing. -/
theorem exists_rebalance? (h : c.Unowned) (a : Answer) :
    ∃ d, c.rebalance? a = some d ∧ d.Unowned ∧ d.cluster = c.cluster ∧ d.slot = c.slot ∧
      d.standing = c.standing.after c.cluster c.slot a := by
  obtain ⟨log, hasked⟩ := exists_follow_asked (c := c.called) (by rw [called_eq]; rfl)
    (by rw [called_eq]; rfl) (by rw [called_eq]; exact h.owner) a []
    (List.replicate (c.onRebalance a).main.todo.length (.run .main))
  obtain ⟨log', d, hfollow, hd⟩ := exists_follow_onRebalance (c := c.called.holding [])
    (by rw [called_eq]; exact h.queue) a log
  have hlength : (c.onRebalance a).main.todo.length =
      ((c.called.holding []).onRebalance a).main.todo.length := by
    rw [called_eq]
    cases a <;> rfl
  refine ⟨d, ?_, ?_⟩
  · rw [rebalance?, callSteps, hasked, hlength, hfollow]
    rfl
  · rw [called_eq] at hd
    exact hd

/-- Several calls in a row come to their end, too. -/
theorem exists_foldlM_rebalance? (h : c.Unowned) (answers : List Answer) :
    ∃ d, answers.foldlM rebalance? c = some d ∧
      d.standing = answers.foldl (Standing.after c.cluster c.slot) c.standing := by
  induction answers generalizing c with
  | nil => exact ⟨c, rfl, rfl⟩
  | cons a answers ih =>
      obtain ⟨next, hcall, hfree, hcluster, hslot, hstanding⟩ := exists_rebalance? h a
      obtain ⟨d, hrest, hd⟩ := ih hfree
      refine ⟨d, ?_, ?_⟩
      · rw [List.foldlM_cons, hcall]
        exact hrest
      · rw [hd, hcluster, hslot, hstanding, List.foldl_cons]

/-- A call that a tick of a run makes is part of the run. -/
theorem run_rebalance? {c₀ d : Coordinator} {log : List Moment} {a : Answer} (hrun : Run c₀ log c)
    (htodo : c.main.todo = []) (hpoint : c.main.point = .steady) (hdue : c.tickDue ≤ c.clock)
    (hdirty : c.dirty = true) (hcall : c.rebalance? a = some d) : ∃ log', Run c₀ log' d := by
  have hcalled : c.called = c.tick := by
    rw [called, ← hdirty]
  have htick : c.step? .tick = some (c.called, []) := by
    simp [step?, htodo, hpoint, hdue, hcalled]
  obtain ⟨⟨log', d'⟩, hfollow, rfl⟩ := Option.map_eq_some_iff.1 hcall
  exact ⟨_, (hrun.step htick).trans (run_of_follow .start hfollow)⟩

/-- Apart from taking and giving it, no action has to do with the ownership. -/
theorem ownership_exec (t : Task) {a : Action} (hacquire : a ≠ .acquire) (hunlock : a ≠ .unlock)
    (c : Coordinator) :
    (exec t a c).1.owner = c.owner ∧ (exec t a c).1.queue = c.queue := by
  cases a with
  | acquire => exact absurd rfl hacquire
  | unlock => exact absurd rfl hunlock
  | look | startTicker =>
      simp only [exec]
      split <;> exact ⟨rfl, rfl⟩
  | dropExtra hadMain =>
      simp only [exec]
      split <;> cases t <;> exact ⟨rfl, rfl⟩
  | _ => cases t <;> exact ⟨rfl, rfl⟩

/-- Whoever waits for the ownership waits for somebody. -/
theorem queue_of_moves {s : Step} {es : List Effect} (hm : Moves c s c' es)
    (h : c.owner = none → c.queue = []) (hfree : c'.owner = none) : c'.queue = [] := by
  have hhandOver : ∀ {d : Coordinator}, d.handOver.owner = none → d.handOver.queue = [] := by
    intro d hnone
    rw [handOver_eq] at hnone ⊢
    rw [List.head?_eq_none_iff.1 hnone]
    rfl
  have hsame : ∀ {d : Coordinator}, d.owner = c.owner ∧ d.queue = c.queue → d.owner = none →
      d.queue = [] := by
    intro d hd hnone
    rw [hd.2]
    exact h (hd.1.symm.trans hnone)
  cases hm with
  | queue htodo hheld =>
      have hfree' : c.owner = none := hfree
      simp [mayAcquire, hfree'] at hheld
  | @act t a rest _ _ =>
      by_cases hacquire : a = .acquire
      · subst hacquire
        cases hfree
      · by_cases hunlock : a = .unlock
        · subst hunlock
          exact hhandOver hfree
        · have hexec := ownership_exec t hacquire hunlock (c.setTodo t rest)
          refine hsame ?_ hfree
          cases t <;> exact hexec
  | @registration attempt a _ _ =>
      obtain ⟨slot, p, l, hgo⟩ := exists_onRegistration_eq c attempt a
      rw [hgo] at hfree ⊢
      exact hsame ⟨rfl, rfl⟩ hfree
  | @warmup a _ _ =>
      obtain ⟨p, l, hgo⟩ := exists_onWarmup_eq c a
      rw [hgo] at hfree ⊢
      exact hsame ⟨rfl, rfl⟩ hfree
  | @rebalance a _ _ | @check a _ _ =>
      refine hsame ?_ hfree
      cases a <;> exact ⟨rfl, rfl⟩
  | cut =>
      unfold cutDelayed at hfree ⊢
      dsimp only at hfree ⊢
      split at hfree
      · next howner =>
        rw [if_pos howner]
        exact hhandOver hfree
      · next howner =>
        rw [if_neg howner]
        show c.queue.erase .delayed = []
        rw [h hfree]
        rfl
  | _ => exact hsame ⟨rfl, rfl⟩ hfree

/-- A coordinator that may be told to rebalance: the main shard has gone in, nothing is released
yet, and no decision is in progress. -/
structure Ready (cluster : ClusterConfig) (c : Coordinator) : Prop where
  exists_run : ∃ timers devices updates changes clock log,
    Run (start cluster timers devices updates changes clock) log c ∧ inProgress log c = false
  owner : c.owner = none
  phase : c.status.phase = .steady ∨ c.status.phase = .takenOver ∨ c.status.phase = .suspended

namespace Ready

variable {cluster cluster' : ClusterConfig}

/-- Nobody waits for the ownership either. -/
theorem unowned (h : Ready cluster c) : c.Unowned := by
  obtain ⟨⟨timers, devices, updates, changes, clock, log, hrun, -⟩, howner, -⟩ := h
  refine ⟨howner, ?_⟩
  have hqueue : c.owner = none → c.queue = [] := by
    clear howner
    induction hrun with
    | start => exact fun _ => rfl
    | step _ hstep ih => exact queue_of_moves (moves_of_step? hstep) ih
  exact hqueue howner

/-- It has adopted a slot, and what there is follows from its latest decision. -/
theorem exists_steadied (h : Ready cluster c) :
    c.cluster = cluster ∧ c.status.filters = c.registry.names ∧
      ∃ last, c.standing.Steadied cluster c.slot last := by
  obtain ⟨⟨timers, devices, updates, changes, clock, log, hrun, hidle⟩, -, hphase⟩ := h
  have hlate : c.main.point.isEarly = false := by
    rw [Bool.eq_false_iff]
    intro hearly
    rcases (gathering_of_run hrun hearly).phase with hp | hp | hp <;> simp [hp] at hphase
  have haccords := standing_accords hrun hidle hlate
  refine ⟨cluster_of_run hrun, haccords.filters, latestDecision log, ?_⟩
  have hat : c.standing.At cluster c.slot (latestDecision log) c.stage := haccords.stage
  have hphase' : c.standing.status.phase = .steady ∨ c.standing.status.phase = .takenOver ∨
      c.standing.status.phase = .suspended := hphase
  cases hg : c.stage <;> rw [hg] at hat
  case seeking =>
    obtain ⟨-, -, hp⟩ := hat
    simp [hp] at hphase'
  case gated =>
    obtain ⟨⟨-, -, hp⟩, -⟩ := hat
    rcases hp with hp | hp <;> simp [hp] at hphase'
  case aloft | stopping => exact hat
  case leaving =>
    refine hat.resolve_right fun hblank => ?_
    obtain ⟨-, -, hp⟩ := hblank
    rcases hp with hp | hp | hp <;> simp [hp] at hphase'
  case gone =>
    obtain ⟨-, hp⟩ := hat
    simp [hp] at hphase'

/-- The main filter is in unless collection is suspended, and the status names what is in. -/
theorem tended (h : Ready cluster c) : c.standing.Tended c.slot cluster.numberOfNodes := by
  obtain ⟨-, hnames, last, hsteadied⟩ := h.exists_steadied
  exact ⟨hsteadied.settled.poised, hnames⟩

/-- The published slot is the one that was adopted. -/
theorem shard (h : Ready cluster c) : c.status.shardId = some c.slot := by
  obtain ⟨-, -, last, hsteadied⟩ := h.exists_steadied
  exact hsteadied.shard

end Ready

/-- **The last success decides.**  Whatever there was before, after calls of the rebalance the
filters, the flag and what is published of the decision are those that the latest success alone
leads to, from any other state of a node with the same slot and settings.  Without a success they
are what they were. -/
theorem last_success_decides {cluster cluster' : ClusterConfig} (h : Ready cluster c)
    (h' : Ready cluster' c') (hnodes : cluster.numberOfNodes = cluster'.numberOfNodes)
    (hminimum : cluster.minimumShards = cluster'.minimumShards)
    (hshard : c.status.shardId = c'.status.shardId) (answers : List Answer) :
    ∃ d, answers.foldlM rebalance? c = some d ∧
      match lastSuccess? answers with
      | none => d.standing.Agrees c.standing
      | some members =>
        ∃ d', c'.rebalance? (.ok members) = some d' ∧ d.standing.Agrees d'.standing := by
  have hslot : c.slot = c'.slot := by
    rw [h.shard, h'.shard] at hshard
    exact Option.some.inj hshard
  obtain ⟨hcluster, -⟩ := h.exists_steadied
  obtain ⟨hcluster', -⟩ := h'.exists_steadied
  obtain ⟨d, hcalls, hd⟩ := exists_foldlM_rebalance? h.unowned answers
  obtain ⟨htended, hlast⟩ := Standing.foldl_after h.tended answers
  rw [hcluster] at hd
  rw [← hd] at htended hlast
  refine ⟨d, hcalls, ?_⟩
  cases hsuccess : lastSuccess? answers with
  | none =>
      rw [hsuccess] at hlast
      exact hlast
  | some members =>
      rw [hsuccess] at hlast
      obtain ⟨d', hcall, -, -, -, hd'⟩ := exists_rebalance? h'.unowned (.ok members)
      refine ⟨d', hcall, ?_⟩
      have htended' := h'.tended.after (.ok members)
      have hdecided' : (c'.standing.after cluster' c'.slot (.ok members)).Decided cluster' c'.slot
          members := Standing.decided_rebalanced h'.tended.poised
      rw [hcluster'] at hd'
      rw [← hd'] at htended' hdecided'
      rw [← hslot] at hdecided'
      exact Standing.Decided.agrees hlast hdecided' hnodes hminimum htended.names htended'.names

/-- The second of two nodes in a phase of the steady loop. -/
theorem exists_ready_of_two (steps : List Step) (phase : Phase)
    (hphase : phase = .steady ∨ phase = .takenOver ∨ phase = .suspended)
    (h : ((ofTwo "b").follow [] steps).any (fun r =>
      !inProgress r.1 r.2 && r.2.owner == none && r.2.status.shardId == some 1 &&
        r.2.status.phase == phase) = true) :
    ∃ c, Ready { nodeAddress := "b", numberOfNodes := 2 } c ∧ c.status.shardId = some 1 ∧
      c.status.phase = phase := by
  obtain ⟨⟨log, c⟩, hfollow, hcheck⟩ := (Option.any_eq_true _ _).1 h
  simp only [Bool.and_eq_true, beq_iff_eq, Bool.not_eq_true'] at hcheck
  obtain ⟨⟨⟨hidle, howner⟩, hshard⟩, hsame⟩ := hcheck
  refine ⟨c, ⟨⟨_, _, _, _, _, log, run_of_follow .start hfollow, hidle⟩, howner, ?_⟩, hshard,
    hsame⟩
  rw [hsame]
  exact hphase

/-- It makes no difference whether the second of two nodes has taken over the device of the first,
is told to take it over once more, and cannot ask, before it decides on both being healthy. -/
theorem last_success_decides_after_failover :
    ∃ c c' d d', Ready { nodeAddress := "b", numberOfNodes := 2 } c ∧
      Ready { nodeAddress := "b", numberOfNodes := 2 } c' ∧
      c.status.phase = .takenOver ∧ c'.status.phase = .steady ∧
      [.ok (membersOfTwo .critical), .error .unavailable, .ok (membersOfTwo .passing),
        .error .unavailable].foldlM rebalance? c = some d ∧
      c'.rebalance? (.ok (membersOfTwo .passing)) = some d' ∧ d.standing.Agrees d'.standing := by
  obtain ⟨c, hc, hshard, hphase⟩ :=
    exists_ready_of_two failoverSteps .takenOver (by simp) (by decide +kernel)
  obtain ⟨c', hc', hshard', hphase'⟩ :=
    exists_ready_of_two (failoverSteps.take 18) .steady (by simp) (by decide +kernel)
  obtain ⟨d, hcalls, d', hcall, hagrees⟩ :=
    last_success_decides hc hc' rfl rfl (hshard.trans hshard'.symm)
      [.ok (membersOfTwo .critical), .error .unavailable, .ok (membersOfTwo .passing),
        .error .unavailable]
  exact ⟨c, c', d, d', hc, hc', hphase, hphase', hcalls, hcall, hagrees⟩

end Coordinator

end FleetSharding
