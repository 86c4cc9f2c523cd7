import FleetSharding.Proofs.Coordinator.Attention
import FleetSharding.Proofs.Coordinator.Published

/-!
# The prospect of a coordinator

A decision of the delayed strand may be cut short, and then the published status stays behind what
was written.  The filters and the flag do not: all that the delayed strand ever writes of them is
one filter, at once.  So they are looked at apart from the status, as they will be when the main
strand has done what it began, and this is the *prospect*.

* `Standing.Chosen`: the filters and the flag are those that a list of members calls for.
* `decides_alone`, `decides_eq_false_of_awaits`: only one strand at a time has something left to
  decide, and none has while one of them waits for an answer.
* `Affects`, `affects_of_moves`: what each move does to the prospect and to what is left to decide.
-/

namespace FleetSharding

/-- Whether an action carries out part of a decision: it writes a filter or the flag, and not for
good. -/
def Action.isDecisive : Action → Bool
  | .installMain | .installExtra _ | .removeMain | .removeExtra | .setSuspended _ => true
  | _ => false

/-- What is part of a decision is a write. -/
theorem Action.isWrite_of_isDecisive {a : Action} (h : a.isDecisive = true) : a.isWrite = true := by
  cases a <;> first | rfl | cases h

/-- Whether the delayed strand may have to do an action at all. -/
def Action.mayDelay : Action → Bool
  | .acquire | .unlock | .look | .installExtra _ | .report _ | .measure _ | .requestRefresh
  | .publish _ | .sleep _ => true
  | _ => false

namespace Standing

/-- Two standings with the same filters and the same flag. -/
def SameFilters (s s' : Standing) : Prop :=
  s.registry = s'.registry ∧ s.suspended = s'.suspended

/-- Anything has the filters that it has. -/
theorem SameFilters.rfl {s : Standing} : s.SameFilters s := ⟨Eq.refl _, Eq.refl _⟩

section SameFilters

variable {slot nodes : Nat} {s s' : Standing}

/-- What is written to the filters does not look at the status. -/
theorem SameFilters.write (h : s.SameFilters s') (a : Action) :
    (s.write slot nodes a).SameFilters (s'.write slot nodes a) := by
  obtain ⟨hregistry, hsuspended⟩ := h
  cases a <;> simp [SameFilters, Standing.write, Standing.publish, hregistry, hsuspended]

/-- The same actions on the same filters lead to the same filters. -/
theorem SameFilters.carryOut (h : s.SameFilters s') (l : List Action) :
    (s.carryOut slot nodes l).SameFilters (s'.carryOut slot nodes l) := by
  induction l generalizing s s' with
  | nil => exact h
  | cons a l ih =>
      by_cases ha : a = .acquire
      · rw [ha, carryOut_acquire, carryOut_acquire]
        exact h
      · rw [carryOut_cons s ha, carryOut_cons s' ha]
        exact ih (h.write a)

end SameFilters

/-- The filters and the flag that a list of members calls for; without one, those with which the
steady loop begins. -/
def Chosen (cluster : ClusterConfig) (slot : Nat) (s : Standing) : Option (List Member) → Prop
  | none =>
    s.registry.Holds (some (mainShard slot cluster.numberOfNodes)) none ∧ s.suspended = false
  | some members =>
    s.registry.Holds
        (if cluster.minimumShards ≤ healthyCount members then
          some (mainShard slot cluster.numberOfNodes) else none)
        (if cluster.minimumShards ≤ healthyCount members then
          some ((SlotMap.ofMembers cluster.numberOfNodes members).takeover slot) else none) ∧
      s.suspended = decide (healthyCount members < cluster.minimumShards)

section Chosen

variable {cluster : ClusterConfig} {slot : Nat} {s s' : Standing} {choice : Option (List Member)}
  {members : List Member}

/-- What was chosen is seen in the filters alone. -/
theorem Chosen.congr (h : s.Chosen cluster slot choice) (hsame : s'.SameFilters s) :
    s'.Chosen cluster slot choice := by
  obtain ⟨hregistry, hsuspended⟩ := hsame
  cases choice <;> simpa only [Chosen, hregistry, hsuspended] using h

/-- What is chosen has the main filter unless collection is suspended. -/
theorem Chosen.poised (h : s.Chosen cluster slot choice) :
    s.Poised slot cluster.numberOfNodes := by
  cases choice with
  | none =>
      obtain ⟨hholds, hawake⟩ := h
      refine ⟨none, ?_⟩
      rw [hawake]
      exact hholds
  | some members =>
      obtain ⟨hholds, hsuspended⟩ := h
      rw [Poised, hsuspended]
      by_cases henough : cluster.minimumShards ≤ healthyCount members
      · rw [if_pos henough] at hholds
        rw [decide_eq_false (Nat.not_lt.2 henough)]
        exact ⟨_, hholds⟩
      · rw [if_neg henough] at hholds
        rw [decide_eq_true (Nat.not_le.1 henough)]
        exact ⟨_, hholds⟩

/-- A decision of the steady loop leaves what its list calls for. -/
theorem Chosen.rebalanced (h : s.Chosen cluster slot choice) :
    (s.rebalanced cluster slot members).Chosen cluster slot (some members) := by
  have hdecided : (s.rebalanced cluster slot members).Decided cluster slot members :=
    decided_rebalanced h.poised
  exact ⟨hdecided.holds, hdecided.suspended⟩

/-- So does the takeover by the delayed strand. -/
theorem Chosen.install (h : s.Chosen cluster slot choice) (hawake : s.suspended = false)
    (henough : cluster.minimumShards ≤ healthyCount members)
    (hregistry : s'.registry = s.registry.add extraFilter
      ((SlotMap.ofMembers cluster.numberOfNodes members).takeover slot))
    (hsuspended : s'.suspended = s.suspended) :
    s'.Chosen cluster slot (some members) := by
  obtain ⟨extra, hholds⟩ := h.poised
  rw [hawake] at hholds
  refine ⟨?_, ?_⟩
  · rw [if_pos henough, if_pos henough, hregistry]
    exact hholds.addExtra _
  · rw [hsuspended, hawake, decide_eq_false (Nat.not_lt.2 henough)]

/-- The main shard goes in where nothing was. -/
theorem Blank.entered (h : s.Blank) :
    (s.entered slot cluster.numberOfNodes).Chosen cluster slot none :=
  ⟨h.holds.addMain _, h.awake⟩

end Chosen

end Standing

namespace Coordinator

variable {c c' : Coordinator}

/-- A strand that has written all that it began has nothing left to decide. -/
theorem Orderly.not_decisive {t : Task} {holds : Prop} {p : MainPoint} {q : DelayedPoint}
    {l : List Action} (h : Orderly t holds p q l) (hfinished : unfinished l = false) :
    ∀ a ∈ l, a.isDecisive = false := by
  induction l with
  | nil => nofun
  | cons b l ih =>
      by_cases hb : b.isOrdinary = true
      · rw [orderly_cons hb] at h
        rw [unfinished_cons (Action.ne_acquire_of_isOrdinary hb), Bool.or_eq_false_iff] at hfinished
        intro a ha
        rcases List.mem_cons.1 ha with rfl | ha
        · rw [← Bool.not_eq_true]
          intro hdecisive
          exact Bool.false_ne_true (hfinished.1.symm.trans (Action.isWrite_of_isDecisive hdecisive))
        · exact ih h.2 hfinished.2 a ha
      · cases b with
        | acquire =>
            rcases h with ⟨-, -, rfl⟩ | ⟨-, -, rfl⟩ | ⟨-, -, o, -, hrelease⟩
            · simp [Action.isDecisive]
            · simp [Action.isDecisive]
            · rw [hrelease]
              simp [releaseActions, Action.isDecisive]
        | unlock =>
            obtain ⟨-, hrest⟩ := h
            rcases hrest with ⟨-, -, rfl | rfl⟩ | ⟨-, -, rfl⟩ | ⟨-, -, o, -, rfl⟩ <;>
              simp [Action.isDecisive]
        | ask | settle | startTicker | abortDelayed | look | finish | spawnDelayed =>
            simp_all [Orderly, Action.isDecisive]
        | _ => exact absurd rfl hb

/-- Whether a strand has part of a decision left to carry out. -/
def decides (c : Coordinator) (t : Task) : Bool := (c.todo t).any Action.isDecisive

/-- A strand has no decision to carry out if none of its actions is part of one. -/
theorem decides_eq_false_iff {t : Task} :
    c.decides t = false ↔ ∀ a ∈ c.todo t, a.isDecisive = false := by
  simp [decides]

/-- **Only one strand at a time has something left to decide.** -/
theorem decides_eq_false_of_owner (h : c.work.Disciplined) {t t' : Task}
    (howner : c.owner = some t) (hborn : c.delayed.point ≠ .unborn) (hne : t' ≠ t) :
    c.decides t' = false := by
  rw [decides_eq_false_iff]
  cases t' with
  | main =>
      have hdelayed : c.owner = some .delayed := by
        cases t with
        | main => exact absurd rfl hne
        | delayed => exact howner
      exact h.main.not_decisive (main_finished h hdelayed hborn)
  | delayed =>
      have hmain : c.owner = some .main := by
        cases t with
        | main => exact howner
        | delayed => exact absurd rfl hne
      exact h.delayed.not_decisive (delayed_finished h (Or.inl hmain))

/-- Whoever has something left to decide holds the ownership, unless the delayed strand is not born
yet. -/
theorem owner_of_decides (h : c.work.Disciplined) {t : Task} (hdecides : c.decides t = true) :
    c.owner = some t ∨ (t = .main ∧ c.delayed.point = .unborn) := by
  have hnot : ¬ ∀ a ∈ c.todo t, a.isDecisive = false := by
    rw [← decides_eq_false_iff, hdecides]
    nofun
  by_contra hfree
  rw [not_or] at hfree
  obtain ⟨howner, hunborn⟩ := hfree
  refine hnot ?_
  cases t with
  | main => exact h.main.not_decisive (h.main.finished howner fun _ hborn => hunborn ⟨rfl, hborn⟩)
  | delayed => exact h.delayed.not_decisive (h.delayed.finished howner fun ht => nomatch ht)

/-- While one strand has something left to decide, the other has not. -/
theorem decides_alone (h : c.work.Disciplined) {t t' : Task} (hdecides : c.decides t = true)
    (hne : t' ≠ t) : c.decides t' = false := by
  rcases owner_of_decides h hdecides with howner | ⟨rfl, hborn⟩
  · by_cases hborn : c.delayed.point = .unborn
    · have hnone : c.delayed.todo = [] := h.unborn hborn
      cases t' with
      | delayed => rw [decides, todo, hnone, List.any_nil]
      | main =>
          cases t with
          | main => exact absurd rfl hne
          | delayed => simp [decides, todo, hnone] at hdecides
    · exact decides_eq_false_of_owner h howner hborn hne
  · have hnone : c.delayed.todo = [] := h.unborn hborn
    cases t' with
    | main => exact absurd rfl hne
    | delayed => rw [decides, todo, hnone, List.any_nil]

/-- **While a strand waits for an answer, nothing is left to decide**, by either. -/
theorem decides_eq_false_of_awaits (h : c.work.Disciplined) {t : Task}
    (hawaits : c.awaits t = true) (t' : Task) : c.decides t' = false := by
  have hself : c.todo t = [] := by
    cases t <;> simp only [awaits, Bool.and_eq_true, List.isEmpty_iff] at hawaits <;>
      exact hawaits.1
  rw [← Bool.not_eq_true]
  intro hdecides
  by_cases hne : t' = t
  · subst hne
    simp [decides, hself] at hdecides
  · cases t with
    | delayed =>
        simp only [awaits, Bool.and_eq_true, List.isEmpty_iff, beq_iff_eq] at hawaits
        have howner : c.owner = some .delayed := h.owner_of_checking hawaits.2 hawaits.1
        have hborn : c.delayed.point ≠ .unborn := by
          simp [hawaits.2]
        rw [decides_eq_false_of_owner h howner hborn hne] at hdecides
        cases hdecides
    | main =>
        obtain rfl : t' = .delayed := by
          cases t' with
          | main => exact absurd rfl hne
          | delayed => rfl
        rcases owner_of_decides h hdecides with howner | ⟨ht, -⟩
        · have hborn : c.delayed.point ≠ .unborn := by
            intro hborn
            have hnone : c.delayed.todo = [] := h.unborn hborn
            simp [decides, todo, hnone] at hdecides
          simp only [awaits, Bool.and_eq_true] at hawaits
          cases hpoint : c.main.point with
          | registering | warming =>
              exact hborn (h.early (by rw [show c.work.point = _ from hpoint]; rfl))
          | rebalancing =>
              have hmine : c.owner = some .main := h.owner_of_rebalancing hpoint hself
              cases hmine.symm.trans howner
          | _ =>
              rw [hpoint] at hawaits
              cases hawaits.2
        · cases ht

/-- What the main strand does next leaves the delayed strand alone, unless it starts it. -/
theorem delayed_exec_main (h : c.work.Disciplined) {a : Action} {rest : List Action}
    (htodo : c.main.todo = a :: rest) (ha : a ≠ .spawnDelayed) :
    (exec .main a (c.setTodo .main rest)).1.delayed = c.delayed := by
  have hmain : Orderly .main (c.owner = some .main) c.main.point c.delayed.point (a :: rest) :=
    htodo ▸ h.main
  cases a with
  | spawnDelayed => exact absurd rfl ha
  | unlock =>
      simp only [exec, handOver_eq]
      rfl
  | look => cases hmain.1
  | startTicker | dropExtra =>
      simp only [exec]
      split <;> rfl
  | _ => rfl

/-- While the delayed strand waits for an answer, only the answer moves it, or the cut. -/
theorem awaits_delayed_of_moves {s : Step} {es : List Effect} (h : c.work.Disciplined)
    (hm : Moves c s c' es) (hawaits : c.awaits .delayed = true) (hs : ∀ a, s ≠ .answer .delayed a)
    (hcut : s ≠ .cut) : c'.awaits .delayed = true := by
  have hsame : ∀ {d : Coordinator}, d.delayed = c.delayed → d.awaits .delayed = true := by
    intro d hd
    simpa only [awaits, hd] using hawaits
  have hparts := hawaits
  simp only [awaits, Bool.and_eq_true, List.isEmpty_iff, beq_iff_eq] at hparts
  obtain ⟨hnone, hpoint⟩ := hparts
  have hborn : c.delayed.point ≠ .unborn := by
    simp [hpoint]
  cases hm with
  | @act t a rest htodo _ =>
      cases t with
      | main =>
          refine hsame (delayed_exec_main h htodo ?_)
          rintro rfl
          have hmain : Orderly .main (c.owner = some .main) c.main.point c.delayed.point
              (.spawnDelayed :: rest) := (show c.main.todo = _ from htodo) ▸ h.main
          exact hborn hmain.2.2.1
      | delayed =>
          have htodo' : c.delayed.todo = a :: rest := htodo
          rw [hnone] at htodo'
          cases htodo'
  | check => exact absurd rfl (hs _)
  | cut => exact absurd rfl hcut
  | registration _ hp | warmup _ hp =>
      exact absurd (h.early (by rw [show c.work.point = _ from hp]; rfl)) hborn
  | @rebalance a _ _ => cases a <;> exact hsame rfl
  | wakeDelayed _ hp | stopDelayed _ hp _ => cases hpoint.symm.trans hp
  | _ => exact hsame rfl

/-- The delayed strand has to do only what it may. -/
theorem mayDelay_of_moves {s : Step} {es : List Effect} (h : c.work.Disciplined)
    (hm : Moves c s c' es) (hall : ∀ a ∈ c.delayed.todo, a.mayDelay = true) :
    ∀ a ∈ c'.delayed.todo, a.mayDelay = true := by
  cases hm with
  | @act t a rest htodo _ =>
      cases t with
      | main =>
          by_cases ha : a = .spawnDelayed
          · subst ha
            simp [exec, goDelayed, Action.mayDelay]
          · rw [delayed_exec_main h htodo ha]
            exact hall
      | delayed =>
          have htodo' : c.delayed.todo = a :: rest := htodo
          rw [htodo'] at hall
          have ha : a.mayDelay = true := hall a List.mem_cons_self
          have hrest : ∀ b ∈ rest, b.mayDelay = true :=
            fun b hb => hall b (List.mem_cons_of_mem _ hb)
          cases a with
          | unlock =>
              simp only [exec, handOver_eq]
              exact hrest
          | look =>
              simp only [exec]
              split
              · simp [goDelayed, Action.mayDelay]
              · exact hrest
          | acquire | installExtra | report | measure | requestRefresh | publish | sleep =>
              exact hrest
          | _ => cases ha
  | registration =>
      obtain ⟨slot, p, l, hgo⟩ := exists_onRegistration_eq c _ _
      rw [hgo]
      exact hall
  | warmup =>
      obtain ⟨p, l, hgo⟩ := exists_onWarmup_eq c _
      rw [hgo]
      exact hall
  | @rebalance a _ _ => cases a <;> exact hall
  | @check a _ _ =>
      cases a with
      | error e => simp [onDelayed, goDelayed, Action.mayDelay]
      | ok members =>
          simp only [onDelayed, goDelayed, delayedActions, takeoverActions]
          grind [Action.mayDelay]
  | wakeDelayed => simp [goDelayed, Action.mayDelay]
  | stopDelayed => simp [goDelayed]
  | cut =>
      obtain ⟨owner, queue, hcut⟩ := exists_cutDelayed_eq c
      rw [hcut]
      simp [goDelayed]
  | _ => exact hall

/-- What the filters and the flag will be once the main strand has done what it began. -/
def prospect (c : Coordinator) : Standing :=
  c.standing.carryOut c.slot c.cluster.numberOfNodes c.main.todo

/-- Where the main strand has nothing to do there is nothing to wait for. -/
theorem prospect_of_todo (htodo : c.main.todo = []) : c.prospect = c.standing := by
  rw [prospect, htodo, Standing.carryOut_nil]

/-- When the main strand has nothing left to write, the prospect is what there is. -/
theorem prospect_of_finished (hmain : unfinished c.main.todo = false) :
    c.prospect = c.standing :=
  Standing.carryOut_of_finished _ hmain

/-- Whether a coordinator is between the moment when its main shard goes in and its release. -/
def isCollecting (c : Coordinator) : Bool :=
  match c.stage with
  | .aloft | .stopping => true
  | .leaving => c.delayed.point != .unborn
  | _ => false

/-- A coordinator collects while it is aloft. -/
theorem isCollecting_of_aloft (hstage : c.stage = .aloft) : c.isCollecting = true := by
  rw [isCollecting, hstage]

/-- It still does while it stops. -/
theorem isCollecting_of_stopping (hstage : c.stage = .stopping) : c.isCollecting = true := by
  rw [isCollecting, hstage]

/-- It does no more when it is gone. -/
theorem isCollecting_of_gone (hstage : c.stage = .gone) : c.isCollecting = false := by
  rw [isCollecting, hstage]

/-- Before the steady loop nothing is collected, nor is it when the coordinator leaves from
there. -/
theorem isCollecting_eq_false (hborn : c.delayed.point = .unborn)
    (hpoint : c.main.point.isEarly = true ∨ c.main.point = .releasing) :
    c.isCollecting = false := by
  unfold isCollecting stage
  rcases hpoint with hpoint | hpoint
  · cases hp : c.main.point with
    | registering | retrying | warming | waiting | settling => rfl
    | _ =>
        rw [hp] at hpoint
        cases hpoint
  · rw [hpoint, hborn]
    unfold Stage.ofPoint
    dsimp only
    split <;> rename_i hstage <;> split at hstage <;> first | rfl | cases hstage

/-- What the main strand does leaves the prospect alone, up to where it takes the ownership. -/
theorem prospect_exec_main (h : c.work.Disciplined) {a : Action} {rest : List Action}
    (htodo : c.main.todo = a :: rest) (ha : a ≠ .acquire) :
    (exec .main a (c.setTodo .main rest)).1.prospect = c.prospect := by
  have hmain : Orderly .main (c.owner = some .main) c.main.point c.delayed.point (a :: rest) :=
    htodo ▸ h.main
  cases a with
  | acquire => exact absurd rfl ha
  | unlock =>
      simp only [exec, handOver_eq, prospect, htodo]
      rfl
  | look => cases hmain.1
  | startTicker =>
      obtain ⟨-, -, rfl⟩ := hmain
      simp only [exec]
      split <;> simp only [prospect, htodo] <;> rfl
  | finish o =>
      obtain ⟨-, -, -, rfl⟩ := hmain
      simp only [prospect, htodo]
      rfl
  | dropExtra hadMain =>
      simp only [exec]
      split <;> simp only [prospect, htodo] <;> rfl
  | _ =>
      simp only [prospect, htodo]
      rfl

/-- What the main strand does does not begin to collect. -/
theorem isCollecting_exec_main (h : c.work.Disciplined) {a : Action} {rest : List Action}
    (htodo : c.main.todo = a :: rest) (ha : a ≠ .acquire)
    (hafter : (exec .main a (c.setTodo .main rest)).1.isCollecting = true) :
    c.isCollecting = true := by
  by_cases hspawn : a = .spawnDelayed
  · subst hspawn
    have hmain : Orderly .main (c.owner = some .main) c.main.point c.delayed.point
        (.spawnDelayed :: rest) := htodo ▸ h.main
    obtain ⟨-, hpoint, -⟩ := hmain
    refine isCollecting_of_aloft ?_
    rw [stage, hpoint]
    rfl
  · rwa [isCollecting, stage_exec_main h htodo ha, delayed_exec_main h htodo hspawn] at hafter

/-- The next action of the main strand takes its decisions with it, and no others. -/
theorem decides_exec_main (h : c.work.Disciplined) {a : Action} {rest : List Action}
    (htodo : c.main.todo = a :: rest) :
    (exec .main a (c.setTodo .main rest)).1.decides .main = rest.any Action.isDecisive := by
  have hmain : Orderly .main (c.owner = some .main) c.main.point c.delayed.point (a :: rest) :=
    htodo ▸ h.main
  cases a with
  | unlock =>
      simp only [exec, handOver_eq]
      rfl
  | look => cases hmain.1
  | startTicker =>
      obtain ⟨-, -, rfl⟩ := hmain
      simp only [exec]
      split <;> rfl
  | finish o =>
      obtain ⟨-, -, -, rfl⟩ := hmain
      rfl
  | dropExtra hadMain =>
      simp only [exec]
      split <;> rfl
  | _ => rfl

/-- Whether the next action of a strand carries out part of a decision. -/
def lands (c : Coordinator) (t : Task) : Bool :=
  match c.todo t with
  | [] => false
  | a :: _ => a.isDecisive

/-- Whether part of a decision lands is up to the next action alone. -/
theorem lands_of_todo {t : Task} {a : Action} {rest : List Action} (htodo : c.todo t = a :: rest) :
    c.lands t = a.isDecisive := by
  rw [lands, htodo]

/-- A strand whose next action is part of a decision has one to carry out. -/
theorem decides_of_lands {t : Task} (h : c.lands t = true) : c.decides t = true := by
  unfold lands at h
  split at h
  · cases h
  · next a rest htodo => rw [decides, htodo, List.any_cons, h, Bool.true_or]

/-- What a step does to the filters and the flag, and to what is left to decide. -/
inductive Affects (c : Coordinator) : Step → Coordinator → Prop
  /-- Nothing is decided, and no part of a decision is carried out; a decision of the delayed strand
  may be dropped. -/
  | keep {s : Step} {c' : Coordinator} (hlands : ∀ t, s = .run t → c.lands t = false)
      (hdecision : c.decision? s = none) (hmain : c'.decides .main = c.decides .main)
      (hdelayed : ∀ a ∈ c'.delayed.todo, a.isDecisive = true → a ∈ c.delayed.todo)
      (hsuspended : c'.suspended = c.suspended)
      (hprospect : c'.isCollecting = true →
        c.isCollecting = true ∧ c'.slot = c.slot ∧ c'.prospect.SameFilters c.prospect) :
      Affects c s c'
  | enter (htodo : c.main.todo = []) (hpoint : c.main.point = .settling) :
      Affects c (.wake .main) c.enterSteady
  | rebalance {members : List Member} (htodo : c.main.todo = [])
      (hpoint : c.main.point = .rebalancing) :
      Affects c (.answer .main (.ok members)) (c.onRebalance (.ok members))
  | takeover {members : List Member} (htodo : c.delayed.todo = [])
      (hpoint : c.delayed.point = .checking)
      (hfailed : (SlotMap.ofMembers c.cluster.numberOfNodes members).allPassing = false)
      (henough : c.cluster.minimumShards ≤ healthyCount members) :
      Affects c (.answer .delayed (.ok members)) (c.onDelayed (.ok members))
  /-- The main strand carries out part of a decision. -/
  | land {a : Action} {rest : List Action} {c' : Coordinator} (htodo : c.main.todo = a :: rest)
      (ha : a.isDecisive = true) (hmain : c'.decides .main = rest.any Action.isDecisive)
      (hdelayed : c'.delayed = c.delayed)
      (hprospect : c'.isCollecting = true →
        c.isCollecting = true ∧ c'.slot = c.slot ∧ c'.prospect.SameFilters c.prospect) :
      Affects c (.run .main) c'
  /-- The delayed strand installs its filter. -/
  | install {slots : SlotMap} {rest : List Action}
      (htodo : c.delayed.todo = .installExtra slots :: rest) :
      Affects c (.run .delayed) (exec .delayed (.installExtra slots) (c.setTodo .delayed rest)).1

/-- With the strands' work, the slot, the filters and the flag as they were, nothing is affected. -/
theorem Affects.same {s : Step} (hlands : ∀ t, s ≠ .run t) (hdecision : c.decision? s = none)
    (htodo : c'.main.todo = c.main.todo) (hpoint : c'.main.point = c.main.point)
    (hdelayed : ∀ a ∈ c'.delayed.todo, a.isDecisive = true → a ∈ c.delayed.todo)
    (hborn : c.delayed.point = .unborn → c'.delayed.point = .unborn)
    (hstanding : c'.standing = c.standing) (hslot : c'.slot = c.slot)
    (hcluster : c'.cluster = c.cluster) : Affects c s c' := by
  refine .keep (fun t hs => absurd hs (hlands t)) hdecision ?_ hdelayed
    (congrArg Standing.suspended hstanding) ?_
  · simp only [decides, todo, htodo]
  · intro hcollects
    refine ⟨?_, hslot, ?_⟩
    · have hstage : c'.stage = c.stage := by rw [stage, stage, hpoint, htodo]
      unfold isCollecting at hcollects ⊢
      rw [hstage] at hcollects
      cases hg : c.stage <;> rw [hg] at hcollects <;> try exact hcollects
      case leaving =>
        simp only [bne_iff_ne, ne_eq] at hcollects ⊢
        exact fun hunborn => hcollects (hborn hunborn)
    · rw [prospect, prospect, hstanding, hslot, hcluster, htodo]
      exact .rfl

/-- The main strand goes where nothing is collected. -/
theorem Affects.gather {s : Step} (hlands : ∀ t, s ≠ .run t) (hdecision : c.decision? s = none)
    (htodo : c.main.todo = []) (hdecides : c'.decides .main = false)
    (hdelayed : c'.delayed = c.delayed) (hsuspended : c'.suspended = c.suspended)
    (hcollects : c'.isCollecting = false) : Affects c s c' := by
  refine .keep (fun t hs => absurd hs (hlands t)) hdecision ?_ ?_ hsuspended ?_
  · rw [hdecides, decides, todo, htodo, List.any_nil]
  · rw [hdelayed]
    exact fun a ha _ => ha
  · simp [hcollects]

/-- The main strand goes on collecting, and writes no more than the status. -/
theorem Affects.stay {s : Step} (hlands : ∀ t, s ≠ .run t) (hdecision : c.decision? s = none)
    (htodo : c.main.todo = []) (hcollects : c.isCollecting = true)
    (hdecides : c'.decides .main = false) (hdelayed : c'.delayed = c.delayed)
    (hsuspended : c'.suspended = c.suspended) (hslot : c'.slot = c.slot)
    (hprospect : c'.prospect.SameFilters c.standing) : Affects c s c' := by
  refine .keep (fun t hs => absurd hs (hlands t)) hdecision ?_ ?_ hsuspended ?_
  · rw [hdecides, decides, todo, htodo, List.any_nil]
  · rw [hdelayed]
    exact fun a ha _ => ha
  · intro _
    rw [prospect_of_todo htodo]
    exact ⟨hcollects, hslot, hprospect⟩

/-- What is left to do for the release decides nothing. -/
theorem any_isDecisive_release {l : List Action} (hl : l.any Action.isDecisive = false)
    (o : Outcome) : (l ++ releaseActions o).any Action.isDecisive = false := by
  rw [List.any_append, hl]
  rfl

/-- Nothing is collected by a coordinator that looks for itself once more, or gives up. -/
theorem affects_retry (h : c.work.Disciplined) (htodo : c.main.todo = [])
    (hearly : c.main.point.isEarly = true) {s : Step} (hlands : ∀ t, s ≠ .run t)
    (hdecision : c.decision? s = none) {attempt : Nat} {l : List Action}
    (hl : l.any Action.isDecisive = false) : Affects c s (c.retry attempt l) := by
  have hborn : c.delayed.point = .unborn := h.early hearly
  unfold retry
  split
  · refine .gather hlands hdecision htodo ?_ rfl rfl (isCollecting_eq_false hborn (Or.inl rfl))
    show (l ++ _).any Action.isDecisive = false
    rw [List.any_append, hl]
    rfl
  · exact .gather hlands hdecision htodo (any_isDecisive_release hl _) rfl rfl
      (isCollecting_eq_false hborn (Or.inr rfl))

/-- An answer while the coordinator looks for itself affects nothing. -/
theorem affects_registration (h : c.work.Disciplined) (htodo : c.main.todo = []) {attempt : Nat}
    (hpoint : c.main.point = .registering attempt) (a : Answer) :
    Affects c (.answer .main a) (c.onRegistration attempt a) := by
  have hearly : c.main.point.isEarly = true := by rw [hpoint]; rfl
  have hdecision : c.decision? (.answer .main a) = none :=
    decision?_eq_none (by rw [hpoint]; nofun)
  have hborn : c.delayed.point = .unborn := h.early hearly
  cases a with
  | error e =>
      rw [onRegistration]
      exact affects_retry (s := .answer .main (.error e)) (l := [_, _]) h htodo hearly nofun
        hdecision rfl
  | ok members =>
      unfold onRegistration
      dsimp only
      split
      · exact .gather nofun hdecision htodo rfl rfl rfl
          (isCollecting_eq_false hborn (Or.inl rfl))
      · exact affects_retry (s := .answer .main (.ok members)) h htodo hearly nofun hdecision
          (by simp [Action.isDecisive])

/-- Nor does one while it waits for enough members. -/
theorem affects_warmup (h : c.work.Disciplined) (htodo : c.main.todo = [])
    (hpoint : c.main.point = .warming) (a : Answer) :
    Affects c (.answer .main a) (c.onWarmup a) := by
  have hborn : c.delayed.point = .unborn := h.early (by rw [show c.work.point = _ from hpoint]; rfl)
  have hdecision : c.decision? (.answer .main a) = none :=
    decision?_eq_none (by rw [hpoint]; nofun)
  cases a with
  | error e =>
      exact .gather nofun hdecision htodo rfl rfl rfl (isCollecting_eq_false hborn (Or.inl rfl))
  | ok members =>
      unfold onWarmup
      dsimp only
      split <;>
        exact .gather nofun hdecision htodo rfl rfl rfl
          (isCollecting_eq_false hborn (Or.inl rfl))

/-- An answer to the delayed strand decides if there is something to take over. -/
theorem affects_check (htodo : c.delayed.todo = [])
    (hpoint : c.delayed.point = .checking) (a : Answer) :
    Affects c (.answer .delayed a) (c.onDelayed a) := by
  have hborn : c.delayed.point ≠ .unborn := by rw [hpoint]; nofun
  have hsame : ∀ {l : List Action}, c.decision? (.answer .delayed a) = none →
      (∀ b ∈ l, b.isDecisive = false) → Affects c (.answer .delayed a) (c.goDelayed .ended l) := by
    intro l hdecision hl
    refine .same nofun hdecision rfl rfl ?_ (fun hunborn => absurd hunborn hborn) rfl rfl rfl
    intro b hb hdecisive
    rw [hl b hb] at hdecisive
    cases hdecisive
  cases a with
  | error e => exact hsame rfl (by simp [Action.isDecisive])
  | ok members =>
      by_cases hidle : (SlotMap.ofMembers c.cluster.numberOfNodes members).allPassing = true ∨
          healthyCount members < c.cluster.minimumShards
      · have hnothing : delayedActions c.cluster c.slot members =
            [.measure (.membership (healthyCount members)
              (SlotMap.ofMembers c.cluster.numberOfNodes members).failed.length)] := by
          rw [delayedActions, if_pos hidle]
        rw [onDelayed, hnothing]
        exact hsame (if_pos hidle) (by simp [Action.isDecisive])
      · rw [not_or, Bool.not_eq_true, Nat.not_lt] at hidle
        exact .takeover htodo hpoint hidle.1 hidle.2

/-- The main strand does its next action. -/
theorem affects_exec_main (h : c.work.Disciplined) {a : Action} {rest : List Action}
    (htodo : c.main.todo = a :: rest) :
    Affects c (.run .main) (exec .main a (c.setTodo .main rest)).1 := by
  have hmain : Orderly .main (c.owner = some .main) c.main.point c.delayed.point (a :: rest) :=
    htodo ▸ h.main
  have hslot : (exec .main a (c.setTodo .main rest)).1.slot = c.slot := slot_exec ..
  by_cases ha : a.isDecisive = true
  · have hne : a ≠ .acquire := by rintro rfl; cases ha
    refine .land htodo ha (decides_exec_main h htodo)
      (delayed_exec_main h htodo (by rintro rfl; cases ha)) ?_
    intro hafter
    refine ⟨isCollecting_exec_main h htodo hne hafter, hslot, ?_⟩
    rw [prospect_exec_main h htodo hne]
    exact .rfl
  · rw [Bool.not_eq_true] at ha
    have hlands : ∀ t, Step.run .main = .run t → c.lands t = false := by
      intro t ht
      cases ht
      rw [lands_of_todo (t := .main) htodo, ha]
    refine .keep hlands rfl ?_ ?_ ?_ ?_
    · rw [decides_exec_main h htodo, decides, todo, htodo, List.any_cons, ha, Bool.false_or]
    · by_cases hspawn : a = .spawnDelayed
      · subst hspawn
        simp [exec, goDelayed, Action.isDecisive]
      · rw [delayed_exec_main h htodo hspawn]
        exact fun b hb _ => hb
    · cases a with
      | setSuspended => cases ha
      | unlock =>
          simp only [exec, handOver_eq]
          rfl
      | look => cases hmain.1
      | startTicker | dropExtra =>
          simp only [exec]
          split <;> rfl
      | _ => rfl
    · intro hafter
      by_cases hacquire : a = .acquire
      · subst hacquire
        rcases hmain with ⟨-, hpoint, rfl⟩ | ⟨ht, -⟩ | ⟨-, hpoint, o, -, hrelease⟩
        · refine ⟨isCollecting_of_aloft (by rw [stage, hpoint]; rfl), rfl, ?_⟩
          rw [prospect, prospect, htodo]
          exact .rfl
        · cases ht
        · obtain rfl := (List.cons.inj hrelease).2
          have hgone : (exec .main .acquire (c.setTodo .main (releaseActions o).tail)).1.stage =
              .gone := by
            show Stage.ofPoint c.main.point _ = _
            rw [hpoint]
            rfl
          cases hafter.symm.trans (isCollecting_of_gone hgone)
      · refine ⟨isCollecting_exec_main h htodo hacquire hafter, hslot, ?_⟩
        rw [prospect_exec_main h htodo hacquire]
        exact .rfl

/-- The delayed strand does its next action. -/
theorem affects_exec_delayed (h : c.work.Disciplined) {a : Action} {rest : List Action}
    (htodo : c.delayed.todo = a :: rest) (ha : a.mayDelay = true) :
    Affects c (.run .delayed) (exec .delayed a (c.setTodo .delayed rest)).1 := by
  have hdecisive : ∀ b ∈ rest, b.isDecisive = true → b ∈ c.delayed.todo := by
    intro b hb _
    rw [htodo]
    exact List.mem_cons_of_mem _ hb
  have hborn : c.delayed.point ≠ .unborn := h.born htodo
  -- Whatever it does but for its filter, the main strand, the filters and the flag stay.
  have hkeep : ∀ {c'' : Coordinator}, a.isDecisive = false → c''.main = c.main →
      (∀ b ∈ c''.delayed.todo, b.isDecisive = true → b ∈ c.delayed.todo) →
      c''.standing.SameFilters c.standing → c''.slot = c.slot → c''.cluster = c.cluster →
      Affects c (.run .delayed) c'' := by
    intro c'' hnot hmain htodo'' hsame hslot hcluster
    refine .keep ?_ rfl ?_ htodo'' hsame.2 ?_
    · intro t ht
      cases ht
      rw [lands_of_todo (t := .delayed) htodo, hnot]
    · simp only [decides, todo, hmain]
    · intro hafter
      refine ⟨?_, hslot, ?_⟩
      · have hstage : c''.stage = c.stage := by rw [stage, stage, hmain]
        unfold isCollecting at hafter ⊢
        rw [hstage] at hafter
        cases hg : c.stage <;> rw [hg] at hafter <;> try exact hafter
        case leaving => exact bne_iff_ne.2 hborn
      · rw [prospect, prospect, hmain, hslot, hcluster]
        exact hsame.carryOut _
  cases a with
  | installExtra slots => exact .install htodo
  | unlock =>
      simp only [exec, handOver_eq]
      exact hkeep rfl rfl hdecisive .rfl rfl rfl
  | look =>
      simp only [exec]
      split
      · exact hkeep rfl rfl (by simp [goDelayed, Action.isDecisive]) .rfl rfl rfl
      · exact hkeep rfl rfl hdecisive .rfl rfl rfl
  | acquire | report | measure | requestRefresh | sleep =>
      exact hkeep rfl rfl hdecisive .rfl rfl rfl
  | publish u => exact hkeep rfl rfl hdecisive ⟨rfl, rfl⟩ rfl rfl
  | _ => cases ha

/-- **Every move affects the filters in one of these ways.** -/
theorem affects_of_moves {s : Step} {es : List Effect} (h : c.work.Disciplined)
    (hall : ∀ a ∈ c.delayed.todo, a.mayDelay = true) (hm : Moves c s c' es) : Affects c s c' := by
  cases hm with
  | @queue t rest htodo _ =>
      refine .keep ?_ rfl rfl (fun a ha _ => ha) rfl (fun hcollects => ⟨hcollects, rfl, .rfl⟩)
      intro t' ht
      cases ht
      rw [lands_of_todo htodo]
      rfl
  | @act t a rest htodo _ =>
      cases t with
      | main => exact affects_exec_main h htodo
      | delayed =>
          have htodo' : c.delayed.todo = a :: rest := htodo
          rw [htodo'] at hall
          exact affects_exec_delayed h htodo' (hall a List.mem_cons_self)
  | registration htodo hpoint => exact affects_registration h htodo hpoint _
  | warmup htodo hpoint => exact affects_warmup h htodo hpoint _
  | @rebalance a htodo hpoint =>
      cases a with
      | ok members => exact .rebalance htodo hpoint
      | error e =>
          have hstage : c.stage = .aloft := by rw [stage, hpoint]; rfl
          exact .stay (by simp) rfl htodo (isCollecting_of_aloft hstage) rfl rfl rfl rfl ⟨rfl, rfl⟩
  | check htodo hpoint => exact affects_check htodo hpoint _
  | wakeRetrying htodo hpoint | wakeWaiting htodo hpoint =>
      have hborn : c.delayed.point = .unborn :=
        h.early (by rw [show c.work.point = _ from hpoint]; rfl)
      exact .gather (by simp) rfl htodo rfl rfl rfl (isCollecting_eq_false hborn (Or.inl rfl))
  | enter htodo hpoint _ => exact .enter htodo hpoint
  | wakeDelayed htodo hpoint | stopDelayed htodo hpoint _ =>
      exact .same (by simp) rfl rfl rfl (by simp [goDelayed, Action.isDecisive])
        (fun hborn => by cases hborn.symm.trans hpoint) rfl rfl rfl
  | leave htodo hpoint hpause _ =>
      have hearly : c.work.point.isEarly = true := by
        rw [show c.work.point = _ from hpoint]
        rcases hpause with rfl | rfl | ⟨attempt, rfl⟩ <;> rfl
      exact .gather (by simp) rfl htodo rfl rfl rfl
        (isCollecting_eq_false (h.early hearly) (Or.inr rfl))
  | halt htodo hpoint _ | tick htodo hpoint _ =>
      have hstage : c.stage = .aloft := by rw [stage, hpoint]; rfl
      exact .stay (by simp) rfl htodo (isCollecting_of_aloft hstage) rfl rfl rfl rfl .rfl
  | join htodo hpoint _ =>
      have hstage : c.stage = .stopping := by rw [stage, hpoint]; rfl
      exact .stay (by simp) rfl htodo (isCollecting_of_stopping hstage) rfl rfl rfl rfl .rfl
  | cut hcut =>
      have hborn : c.delayed.point ≠ .unborn := born_of_mayCut h hcut
      obtain ⟨owner, queue, hafter⟩ := exists_cutDelayed_eq c
      rw [hafter]
      exact .same (by simp) rfl rfl rfl (by simp [goDelayed])
        (fun hunborn => absurd hunborn hborn) rfl rfl rfl
  | tickIdle | hear | hearEnd | pass | request | change | changesEnd =>
      exact .same (by simp) rfl rfl rfl (fun a ha _ => ha) id rfl rfl rfl

end Coordinator

end FleetSharding
