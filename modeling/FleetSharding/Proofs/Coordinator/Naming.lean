import FleetSharding.Proofs.Coordinator.Published

/-!
# The slot that the status names

A coordinator finds itself among the members once.  It publishes the slot of its record next, and
no other one ever after.

* `Names`, `names_of_moves`: what each move does to the slot and to what is published of it.
* `Gathers`, `gathers_of_moves`: all that can happen before anything is collected.
* `Named`, `named_of_run`: the status names the adopted slot, or none yet.
* `shardId_of_run`: a slot that was published is published still.
-/

namespace FleetSharding

/-- Whether an action publishes the slot that was adopted. -/
def Action.isNaming : Action → Bool
  | .publish (.registered _) => true
  | _ => false

/-- Whether the main strand still looks for itself among the members. -/
def MainPoint.isSeeking : MainPoint → Bool
  | .registering _ | .retrying _ => true
  | _ => false

/-- Whether the main strand may be here without a slot. -/
def MainPoint.isUnnamed : MainPoint → Bool
  | .registering _ | .retrying _ | .releasing | .ended _ => true
  | _ => false

/-- Whoever still looks for its record has not begun to collect. -/
theorem MainPoint.isEarly_of_isSeeking {p : MainPoint} (h : p.isSeeking = true) :
    p.isEarly = true := by
  cases p <;> first | rfl | cases h

namespace Coordinator

variable {c c' : Coordinator}

/-- Neither strand is about to publish a slot. -/
structure Silent (c : Coordinator) : Prop where
  main : ∀ a ∈ c.main.todo, a.isNaming = false
  delayed : ∀ a ∈ c.delayed.todo, a.isNaming = false

/-- No action of either strand publishes a slot. -/
theorem Silent.todo (h : Silent c) : ∀ t, ∀ a ∈ c.todo t, a.isNaming = false
  | .main => h.main
  | .delayed => h.delayed

/-- It stays so when a strand is given other work. -/
theorem Silent.setTodo (h : Silent c) {t : Task} {l : List Action}
    (hl : ∀ a ∈ l, a.isNaming = false) : Silent (c.setTodo t l) := by
  cases t with
  | main => exact ⟨hl, h.delayed⟩
  | delayed => exact ⟨h.main, hl⟩

/-- It stays so when the main strand goes on to another point. -/
theorem Silent.goMain (h : Silent c) {p : MainPoint} {l : List Action}
    (hl : ∀ a ∈ l, a.isNaming = false) : Silent (c.goMain p l) :=
  ⟨hl, h.delayed⟩

/-- And when the delayed one does. -/
theorem Silent.goDelayed (h : Silent c) {q : DelayedPoint} {l : List Action}
    (hl : ∀ a ∈ l, a.isNaming = false) : Silent (c.goDelayed q l) :=
  ⟨h.main, hl⟩

/-- What an action leaves to do publishes no slot. -/
theorem Silent.exec (h : Silent c) (t : Task) (a : Action) :
    Silent (Coordinator.exec t a c).1 := by
  have hcons : ∀ {b : Action}, b.isNaming = false → ∀ a ∈ b :: c.todo t, a.isNaming = false :=
    fun hb => List.forall_mem_cons.2 ⟨hb, h.todo t⟩
  have hremoved : ∀ name, Silent { c with registry := c.registry.remove name } :=
    fun _ => ⟨h.main, h.delayed⟩
  cases a with
  | unlock =>
      simp only [Coordinator.exec, handOver_eq]
      exact ⟨h.main, h.delayed⟩
  | look =>
      simp only [Coordinator.exec]
      split
      · exact h.goDelayed (by simp [Action.isNaming])
      · exact h
  | dropMain => exact (hremoved _).setTodo (hcons rfl)
  | dropExtra =>
      simp only [Coordinator.exec]
      split
      · exact (hremoved _).setTodo (hcons rfl)
      · exact hremoved _
  | startTicker =>
      simp only [Coordinator.exec]
      split
      · exact ⟨by simp [Coordinator.goMain], h.delayed⟩
      · exact ⟨h.main, h.delayed⟩
  | spawnDelayed => exact h.goDelayed (by simp [Action.isNaming])
  | finish => exact ⟨by simp [Coordinator.exec, Coordinator.goMain], h.delayed⟩
  | sleep => cases t <;> exact ⟨h.main, h.delayed⟩
  | _ => exact ⟨h.main, h.delayed⟩

/-- Any other action leaves the published slot alone. -/
theorem shardId_exec {a : Action} (ha : a.isNaming = false) (t : Task) (c : Coordinator) :
    (exec t a c).1.status.shardId = c.status.shardId := by
  cases a with
  | publish u => cases u <;> first | rfl | cases ha
  | unlock =>
      simp only [exec, handOver_eq]
  | look | startTicker =>
      simp only [exec]
      split <;> rfl
  | dropExtra =>
      simp only [exec]
      cases t <;> split <;> rfl
  | _ => cases t <;> rfl

/-- What a move does to the slot: it leaves it alone, or the coordinator finds itself. -/
inductive Names (c : Coordinator) (s : Step) (c' : Coordinator) : Prop
  | keep (hsilent : Silent c') (hshard : c'.status.shardId = c.status.shardId)
      (hslot : c'.slot = c.slot)
      (hseeking : c'.main.point.isSeeking = true → c.main.point.isSeeking = true)
      (hunnamed : c.main.point.isUnnamed = true → c'.main.point.isUnnamed = true)
  | adopt {members : List Member} {e : Event} (hanswer : s = .answer .main (.ok members))
      (hseeking : c.main.point.isSeeking = true)
      (hown : ownSlot? c.cluster members = some c'.slot) (hpoint : c'.main.point = .warming)
      (htodo : c'.main.todo = [.report e, .publish (.registered c'.slot), .ask])
      (hdelayed : c'.delayed = c.delayed) (hstatus : c'.status = c.status)

/-- Looking once more, or giving up, leaves the slot alone. -/
theorem names_retry {s : Step} (h : Silent c) (hseeking : c.main.point.isSeeking = true)
    (attempt : Nat) {l : List Action} (hl : ∀ a ∈ l, a.isNaming = false) :
    Names c s (c.retry attempt l) := by
  unfold retry
  split
  · refine .keep (h.goMain ?_) rfl rfl (fun _ => hseeking) (fun _ => rfl)
    exact List.forall_mem_append.2 ⟨hl, by simp [Action.isNaming]⟩
  · refine .keep (h.goMain ?_) rfl rfl (fun _ => hseeking) (fun _ => rfl)
    exact List.forall_mem_append.2 ⟨hl, by simp [releaseActions, Action.isNaming]⟩

/-- Nothing that is decided publishes a slot. -/
theorem isNaming_of_ofDecision {a : Action} (ha : a.OfDecision) : a.isNaming = false := by
  cases ha <;> rfl

/-- **No move publishes another slot than that of the coordinator's own record.** -/
theorem names_of_moves {s : Step} {es : List Effect} (hm : Moves c s c' es) (h : Silent c) :
    Names c s c' := by
  have hstay : ∀ {d : Coordinator}, d.main = c.main → (∀ a ∈ d.delayed.todo, a.isNaming = false) →
      d.status = c.status → d.slot = c.slot → Names c s d := by
    intro d hmain hdelayed hstatus hslot
    exact .keep ⟨hmain ▸ h.main, hdelayed⟩ (hstatus ▸ rfl) hslot (hmain ▸ id) (hmain ▸ id)
  have hgo : ∀ {p : MainPoint} {l : List Action}, (∀ a ∈ l, a.isNaming = false) →
      (p.isSeeking = true → c.main.point.isSeeking = true) →
      (c.main.point.isUnnamed = true → p.isUnnamed = true) → Names c s (c.goMain p l) :=
    fun hl hseeking hunnamed => .keep (h.goMain hl) rfl rfl hseeking hunnamed
  have hsettled : false = true → c.main.point.isSeeking = true :=
    fun hs => absurd hs Bool.false_ne_true
  cases hm with
  | @act t a rest htodo _ =>
      have hhead := h.todo t
      rw [htodo, List.forall_mem_cons] at hhead
      have hpoint : (exec t a (c.setTodo t rest)).1.main.point = c.main.point ∨
          ∃ o, (exec t a (c.setTodo t rest)).1.main.point = .ended o := by
        rcases point_exec t a (c.setTodo t rest) with hsame | ⟨-, -, hend⟩ | ⟨o, -, hend⟩
        · exact Or.inl (by rw [hsame, setTodo_point])
        · exact Or.inr ⟨_, hend⟩
        · exact Or.inr ⟨o, hend⟩
      refine .keep ((h.setTodo hhead.2).exec t a) ?_ ?_ ?_ ?_
      · rw [shardId_exec hhead.1]
        cases t <;> rfl
      · rw [slot_exec]
        cases t <;> rfl
      · rcases hpoint with hsame | ⟨o, hend⟩
        · rw [hsame]
          exact id
        · rw [hend]
          exact hsettled
      · rcases hpoint with hsame | ⟨o, hend⟩
        · rw [hsame]
          exact id
        · rw [hend]
          exact fun _ => rfl
  | @registration attempt a _ hpoint =>
      have hseeking : c.main.point.isSeeking = true := by rw [hpoint]; rfl
      cases a with
      | error e => exact names_retry h hseeking attempt (by simp [Action.isNaming])
      | ok members =>
          unfold onRegistration
          dsimp only
          split
          · next slot hown => exact .adopt rfl hseeking hown rfl rfl rfl rfl
          · exact names_retry h hseeking attempt (by simp [Action.isNaming])
  | @warmup a _ hpoint =>
      have hunnamed : c.main.point.isUnnamed ≠ true := by rw [hpoint]; exact Bool.false_ne_true
      cases a with
      | error e => exact hgo (by simp [Action.isNaming]) hsettled fun hu => absurd hu hunnamed
      | ok members =>
          unfold onWarmup
          dsimp only
          split <;> exact hgo (by simp [Action.isNaming]) hsettled fun hu => absurd hu hunnamed
  | @rebalance a _ hpoint =>
      have hunnamed : c.main.point.isUnnamed ≠ true := by rw [hpoint]; exact Bool.false_ne_true
      cases a with
      | error e => exact hgo (by simp [Action.isNaming]) hsettled fun hu => absurd hu hunnamed
      | ok members =>
          refine hgo (List.forall_mem_append.2 ⟨?_, ?_⟩) hsettled fun hu => absurd hu hunnamed
          · exact fun a ha => isNaming_of_ofDecision (ofDecision_of_mem_rebalanceActions ha)
          · simp [Action.isNaming]
  | @check a _ _ =>
      cases a with
      | error e => exact hstay rfl (by simp [onDelayed, goDelayed, Action.isNaming]) rfl rfl
      | ok members =>
          refine hstay rfl (List.forall_mem_append.2 ⟨?_, ?_⟩) rfl rfl
          · exact fun a ha => isNaming_of_ofDecision (ofDecision_of_mem_delayedActions ha)
          · simp [Action.isNaming]
  | cut =>
      obtain ⟨owner, queue, hcut⟩ := exists_cutDelayed_eq c
      rw [hcut]
      exact hstay rfl (by simp [goDelayed]) rfl rfl
  | wakeRetrying _ hpoint =>
      exact hgo (by simp [Action.isNaming]) (fun _ => by rw [hpoint]; rfl) fun _ => rfl
  | wakeWaiting _ hpoint | enter _ hpoint _ | halt _ hpoint _ =>
      refine hgo (by simp [Action.isNaming]) hsettled fun hu => ?_
      rw [hpoint] at hu
      cases hu
  | tick _ hpoint _ =>
      refine .keep ⟨by simp [goMain, Action.isNaming], h.delayed⟩ rfl rfl hsettled fun hu => ?_
      rw [hpoint] at hu
      cases hu
  | leave | join => exact hgo (by simp [releaseActions, Action.isNaming]) hsettled fun _ => rfl
  | wakeDelayed => exact hstay rfl (by simp [goDelayed, Action.isNaming]) rfl rfl
  | stopDelayed => exact hstay rfl (by simp [goDelayed]) rfl rfl
  | queue | tickIdle | hear | hearEnd | pass | request | change | changesEnd =>
      exact hstay rfl h.delayed rfl rfl

/-- What can happen before anything is collected: only the main strand moves. -/
inductive Gathers (c : Coordinator) : Step → Coordinator → Prop
  | act {a : Action} {rest : List Action} (htodo : c.main.todo = a :: rest) :
      Gathers c (.run .main) (exec .main a (c.setTodo .main rest)).1
  | registration {attempt : Nat} {a : Answer} (htodo : c.main.todo = [])
      (hpoint : c.main.point = .registering attempt) :
      Gathers c (.answer .main a) (c.onRegistration attempt a)
  | warmup {a : Answer} (htodo : c.main.todo = []) (hpoint : c.main.point = .warming) :
      Gathers c (.answer .main a) (c.onWarmup a)
  | again {attempt : Nat} (htodo : c.main.todo = []) (hpoint : c.main.point = .retrying attempt) :
      Gathers c (.wake .main) (c.goMain (.registering (attempt + 1)) [.ask])
  | recount (htodo : c.main.todo = []) (hpoint : c.main.point = .waiting) :
      Gathers c (.wake .main) (c.goMain .warming [.ask])
  | enter (htodo : c.main.todo = []) (hpoint : c.main.point = .settling)
      (hdue : c.main.due ≤ c.clock) : Gathers c (.wake .main) c.enterSteady
  | leave (htodo : c.main.todo = []) : Gathers c (.stop .main) (c.release .completed [])
  /-- The shutdown is not seen as long as nothing of the coordinator changes. -/
  | stay {s : Step} {c' : Coordinator} (hmain : c'.main = c.main)
      (hdelayed : c'.delayed = c.delayed) (hslot : c'.slot = c.slot)
      (hstatus : c'.status = c.status) (hclock : c.clock ≤ c'.clock)
      (hunseen : ∀ t, s ≠ .stop t) : Gathers c s c'

/-- Nothing else can happen before anything is collected. -/
theorem gathers_of_moves {s : Step} {es : List Effect} (h : c.work.Disciplined)
    (hm : Moves c s c' es) (hearly : c.main.point.isEarly = true) : Gathers c s c' := by
  have hborn : c.delayed.point = .unborn := h.early hearly
  have hnone : c.delayed.todo = [] := h.unborn hborn
  cases hm with
  | @act t a rest htodo _ =>
      cases t with
      | main => exact .act htodo
      | delayed => cases hnone.symm.trans htodo
  | registration htodo hpoint => exact .registration htodo hpoint
  | warmup htodo hpoint => exact .warmup htodo hpoint
  | wakeRetrying htodo hpoint => exact .again htodo hpoint
  | wakeWaiting htodo hpoint => exact .recount htodo hpoint
  | enter htodo hpoint hdue => exact .enter htodo hpoint hdue
  | leave htodo => exact .leave htodo
  | check _ hpoint | wakeDelayed _ hpoint | stopDelayed _ hpoint _ =>
      cases hborn.symm.trans hpoint
  | cut hcut => simp [mayCut, delayedIsOver, hnone, hborn] at hcut
  | rebalance _ hpoint | halt _ hpoint _ | tick _ hpoint _ | tickIdle _ hpoint _
  | hear _ hpoint _ _ | hearEnd _ hpoint _ _ | join _ hpoint _ =>
      rw [hpoint] at hearly
      cases hearly
  | pass hclock => exact .stay rfl rfl rfl rfl hclock (by simp)
  | queue | request | change | changesEnd => exact .stay rfl rfl rfl rfl (Nat.le_refl _) (by simp)

/-- What the main strand does while it gathers leads nowhere else. -/
theorem exec_gathering {a : Action} (ha : a.isGathering = true) (c : Coordinator)
    (rest : List Action) :
    (exec .main a (c.setTodo .main rest)).1.main.point = c.main.point ∧
      (exec .main a (c.setTodo .main rest)).1.main.todo = rest := by
  cases a with
  | ask | report | measure | sleep | publish => exact ⟨rfl, rfl⟩
  | _ => cases ha

/-- Which slot the status names. -/
inductive Named (c : Coordinator) : Prop
  | blank (hpoint : c.main.point.isUnnamed = true) (hsilent : Silent c)
      (hshard : c.status.shardId = none)
  /-- A slot is adopted, and is about to be published. -/
  | adopting {l : List Action} (hpoint : c.main.point = .warming)
      (hl : ∀ a ∈ l, ∃ e, a = .report e)
      (htodo : c.main.todo = l ++ [.publish (.registered c.slot), .ask])
      (hdelayed : ∀ a ∈ c.delayed.todo, a.isNaming = false) (hshard : c.status.shardId = none)
  | named (hpoint : c.main.point.isSeeking = false) (hsilent : Silent c)
      (hshard : c.status.shardId = some c.slot)

/-- The slot that is adopted is published next. -/
theorem named_of_adopting {s : Step} {l : List Action} (h : Gathers c s c')
    (hpoint : c.main.point = .warming) (hl : ∀ a ∈ l, ∃ e, a = .report e)
    (htodo : c.main.todo = l ++ [.publish (.registered c.slot), .ask])
    (hdelayed : ∀ a ∈ c.delayed.todo, a.isNaming = false) (hshard : c.status.shardId = none) :
    Named c' := by
  cases h with
  | act hnext =>
      rw [htodo] at hnext
      cases l with
      | nil =>
          obtain ⟨rfl, rfl⟩ := List.cons.inj hnext
          refine .named ?_ ⟨by simp [exec, setTodo, publish, Action.isNaming], hdelayed⟩ rfl
          show c.main.point.isSeeking = false
          rw [hpoint]
          rfl
      | cons b l =>
          obtain ⟨rfl, rfl⟩ := List.cons.inj hnext
          obtain ⟨⟨e, rfl⟩, hrest⟩ := List.forall_mem_cons.1 hl
          exact .adopting hpoint hrest rfl hdelayed hshard
  | registration hnone | warmup hnone | again hnone | recount hnone | enter hnone | leave hnone =>
      simp [hnone] at htodo
  | stay hmain hdelayed' hslot hstatus =>
      refine .adopting (hmain ▸ hpoint) hl ?_ (hdelayed' ▸ hdelayed) (hstatus ▸ hshard)
      rw [hmain, hslot, htodo]

/-- The published slot stays named by moves. -/
theorem named_of_moves {s : Step} {es : List Effect} (hd : c.work.Disciplined)
    (hm : Moves c s c' es) (h : Named c) : Named c' := by
  cases h with
  | blank hpoint hsilent hshard =>
      cases names_of_moves hm hsilent with
      | keep hsilent' hshard' _ _ hunnamed =>
          exact .blank (hunnamed hpoint) hsilent' (hshard'.trans hshard)
      | adopt _ _ _ hwarming htodo hdelayed hstatus =>
          exact .adopting (l := [_]) hwarming (by simp) htodo (hdelayed ▸ hsilent.delayed)
            (hstatus ▸ hshard)
  | adopting hpoint hl htodo hdelayed hshard =>
      have hearly : c.main.point.isEarly = true := by rw [hpoint]; rfl
      exact named_of_adopting (gathers_of_moves hd hm hearly) hpoint hl htodo hdelayed hshard
  | named hpoint hsilent hshard =>
      cases names_of_moves hm hsilent with
      | keep hsilent' hshard' hslot hseeking _ =>
          refine .named (Bool.eq_false_iff.2 fun hs => ?_) hsilent' ?_
          · exact nomatch hpoint.symm.trans (hseeking hs)
          · rw [hshard', hshard, hslot]
      | adopt _ hseeking => exact nomatch hpoint.symm.trans hseeking

/-- **A slot that is published stays published.** -/
theorem Named.shardId_of_moves {s : Step} {es : List Effect} (h : Named c) (hm : Moves c s c' es)
    {id : Nat} (hid : c.status.shardId = some id) : c'.status.shardId = some id := by
  have hsilent : Silent c → c'.status.shardId = some id := by
    intro hsilent
    cases names_of_moves hm hsilent with
    | keep _ hshard => exact hshard.trans hid
    | adopt _ _ _ _ _ _ hstatus => rw [hstatus, hid]
  cases h with
  | blank _ h | named _ h => exact hsilent h
  | adopting _ _ _ _ hshard => exact nomatch hshard.symm.trans hid

/-- Once something has been collected the slot is not looked for again. -/
theorem Named.slot_of_moves {s : Step} {es : List Effect} (h : Named c) (hm : Moves c s c' es)
    (hlate : c.main.point.isEarly = false) : c'.slot = c.slot := by
  have hsilent : Silent c := by
    cases h with
    | blank _ hsilent | named _ hsilent => exact hsilent
    | adopting hpoint =>
        rw [hpoint] at hlate
        cases hlate
  cases names_of_moves hm hsilent with
  | keep _ _ hslot => exact hslot
  | adopt _ hseeking => exact nomatch hlate.symm.trans (MainPoint.isEarly_of_isSeeking hseeking)

/-- After the second gate the slot is published. -/
theorem Named.shardId_of_settling (h : Named c) (hpoint : c.main.point = .settling) :
    c.status.shardId = some c.slot := by
  cases h with
  | blank hunnamed =>
      rw [hpoint] at hunnamed
      cases hunnamed
  | adopting hwarming => cases hpoint.symm.trans hwarming
  | named _ _ hshard => exact hshard

section Started

variable {cluster : ClusterConfig} {timers : TimerConfig} {devices : List Device}
  {updates changes : Signal} {clock : Nat} {log : List Moment}

/-- The status names no other slot than the coordinator's, throughout a run. -/
theorem named_of_run (hrun : Run (start cluster timers devices updates changes clock) log c) :
    Named c := by
  induction hrun with
  | start => exact .blank rfl ⟨by simp [start, Action.isNaming], by simp [start]⟩ rfl
  | step hrun hstep ih =>
      exact named_of_moves (disciplined_of_run hrun (disciplined_start ..)) (moves_of_step? hstep)
        ih

/-- The slot that a status named once is the one that it names now. -/
theorem shardId_of_run (hrun : Run (start cluster timers devices updates changes clock) log c) :
    ∀ m ∈ log, ∀ id, m.before.status.shardId = some id → c.status.shardId = some id := by
  induction hrun with
  | start => simp
  | step hrun hstep ih =>
      intro m hm id hid
      refine (named_of_run hrun).shardId_of_moves (moves_of_step? hstep) ?_
      rcases List.mem_cons.1 hm with rfl | hm
      · exact hid
      · exact ih m hm id hid

end Started

end Coordinator

end FleetSharding
