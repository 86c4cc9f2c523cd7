import FleetSharding.Proofs.Coordinator.Prospect
import FleetSharding.Proofs.Reachable

/-!
# Decisions are made on snapshots in the order in which these were taken

A query takes its snapshot of the members at one moment and returns it at any later one.  The two
strands query and decide side by side, and still no decision on an old snapshot is carried out after
one on a newer snapshot: a strand holds the ownership from its query on, so whoever decides next
queries after all that was decided before is written.

* `Querying.act?`: a coordinator with the snapshots on their way, and a record of what each part of
  a decision that was carried out was based on.
* `Querying.Fresh`, `fresh_of_act`: what is on its way is newer than all that was carried out.
* `Querying.stale_never_lands`: the record is in order, and the filters and the flag are those of
  the latest snapshot in it.
-/

namespace FleetSharding

/-- The members as a query found them; the snapshots are numbered as they are taken. -/
structure Snapshot where
  number : Nat
  members : List Member
  deriving DecidableEq

/-- A coordinator, and what becomes of the snapshots that its queries take. -/
structure Querying where
  core : Coordinator
  /-- How many snapshots were taken. -/
  taken : Nat
  /-- The snapshots on their way. -/
  held : Task → Option Snapshot
  /-- The snapshots that the strands decided on last. -/
  basis : Task → Option Snapshot
  /-- What the parts of decisions that were carried out are based on, the latest first. -/
  landed : List Snapshot

/-- Something that happens to a coordinator that queries. -/
inductive Occurrence where
  /-- A query takes its snapshot. -/
  | take (t : Task) (members : List Member)
  /-- A query returns what it took. -/
  | deliver (t : Task)
  /-- Any other step; of answers only failures. -/
  | step (s : Step)

namespace Querying

def start (cluster : ClusterConfig) (timers : TimerConfig) (devices : List Device)
    (updates changes : Signal) (clock : Nat) : Querying where
  core := .start cluster timers devices updates changes clock
  taken := 0
  held := fun _ => none
  basis := fun _ => none
  landed := []

/-- The snapshots decided on last after a step, which answers with a given one or with none. -/
def decidedOn (q : Querying) (s : Step) (snapshot : Option Snapshot) : Task → Option Snapshot :=
  match s with
  | .answer t _ =>
    if (q.core.decision? s).isSome then Function.update q.basis t snapshot else q.basis
  | _ => q.basis

/-- What the part of a decision that a step carries out is based on.  The entry into the steady loop
is based on none. -/
def carriedOut (q : Querying) : Step → List Snapshot
  | .run t => if q.core.lands t then (q.basis t).toList else []
  | _ => []

/-- What there is after a step that led to a given coordinator. -/
def after (q : Querying) (s : Step) (snapshot : Option Snapshot) (core : Coordinator) :
    Querying :=
  { q with
    core
    held := stillHeld q.held s
    basis := q.decidedOn s snapshot
    landed := q.carriedOut s ++ q.landed }

/-- The coordinator takes a step. -/
def advance (q : Querying) (s : Step) (snapshot : Option Snapshot) : Option Querying :=
  (q.core.step? s).map fun r => q.after s snapshot r.1

/-- What there is after something has happened, if it can. -/
def act? (q : Querying) : Occurrence → Option Querying
  | .take t members =>
    if q.core.awaits t then
      some
        { q with
          taken := q.taken + 1
          held := Function.update q.held t (some ⟨q.taken + 1, members⟩) }
    else none
  | .deliver t => (q.held t).bind fun x => q.advance (.answer t (.ok x.members)) (some x)
  | .step (.answer _ (.ok _)) => none
  | .step s => q.advance s none

/-- The snapshot that the filters and the flag are about to be those of, or are. -/
def choice (q : Querying) : Option Snapshot :=
  if q.core.decides .main then q.basis .main else q.landed.head?

/-- A snapshot is among the latest that were carried out, or later. -/
def Leads (q : Querying) (x : Snapshot) : Prop := ∀ y ∈ q.landed, y = x ∨ y.number < x.number

/-- What is on its way, and what is decided on and not carried out yet, is not stale. -/
structure Fresh (q : Querying) : Prop where
  disciplined : q.core.work.Disciplined
  delays : ∀ a ∈ q.core.delayed.todo, a.mayDelay = true
  landed : ∀ y ∈ q.landed, y.number ≤ q.taken
  sorted : q.landed.Pairwise fun later sooner => later = sooner ∨ sooner.number < later.number
  held : ∀ t x, q.held t = some x →
    q.core.awaits t = true ∧ x.number ≤ q.taken ∧ ∀ y ∈ q.landed, y.number < x.number
  early : q.core.main.point.isEarly = true → q.basis .main = none ∧ q.landed = []
  basis : ∀ t, q.core.decides t = true →
    (q.basis t = none → q.landed = []) ∧ ∀ x, q.basis t = some x → x.number ≤ q.taken ∧ q.Leads x
  /-- The delayed strand installs its filter only while collection is not suspended. -/
  delayed : ∀ a ∈ q.core.delayed.todo, a.isDecisive = true → ∃ x, q.basis .delayed = some x ∧
    a = .installExtra (SlotMap.ofMembers q.core.cluster.numberOfNodes x.members) ∧
      q.core.cluster.minimumShards ≤ healthyCount x.members ∧ q.core.suspended = false
  chosen : q.core.isCollecting = true →
    q.core.prospect.Chosen q.core.cluster q.core.slot (q.choice.map Snapshot.members)

variable {q q' : Querying}

/-- While nothing is left to decide, nothing is carried out. -/
theorem carriedOut_eq_nil (h : ∀ t, q.core.decides t = false) (s : Step) :
    q.carriedOut s = [] := by
  cases s with
  | run t =>
      refine if_neg ?_
      intro hlands
      exact nomatch (h t).symm.trans (Coordinator.decides_of_lands hlands)
  | _ => rfl

/-- What lands is carried out on the snapshot that it was decided on. -/
theorem carriedOut_of_lands {t : Task} (h : q.core.lands t = true) :
    q.carriedOut (.run t) = (q.basis t).toList := if_pos h

/-- A snapshot on its way stays so, and newer than all that is carried out, unless its query
returns it or is cut off. -/
theorem Fresh.held_after (h : q.Fresh) {s : Step} {core : Coordinator} {es : List Effect}
    (hm : q.core.Moves s core es) {t : Task} {x : Snapshot}
    (hkept : stillHeld q.held s t = some x) :
    core.awaits t = true ∧ x.number ≤ q.taken ∧
      ∀ y ∈ q.carriedOut s ++ q.landed, y.number < x.number := by
  obtain ⟨hheld, hanswer, hcut⟩ := held_of_stillHeld hkept
  obtain ⟨hawaits, htaken, hnewer⟩ := h.held t x hheld
  refine ⟨?_, htaken, ?_⟩
  · cases t with
    | main => exact Coordinator.awaits_of_moves h.disciplined hm hawaits hanswer
    | delayed =>
        exact Coordinator.awaits_delayed_of_moves h.disciplined hm hawaits hanswer (hcut rfl)
  · rw [carriedOut_eq_nil (Coordinator.decides_eq_false_of_awaits h.disciplined hawaits)]
    exact hnewer

/-- Before the steady loop nothing is decided, and nothing carried out. -/
theorem Fresh.early_after (h : q.Fresh) {s : Step} (snapshot : Option Snapshot)
    {core : Coordinator} {es : List Effect} (hm : q.core.Moves s core es)
    (hearly : core.main.point.isEarly = true) :
    q.decidedOn s snapshot .main = none ∧ q.carriedOut s ++ q.landed = [] := by
  have hbefore : q.core.main.point.isEarly = true := Coordinator.early_of_moves hm hearly
  obtain ⟨hbasis, hlanded⟩ := h.early hbefore
  have hborn : q.core.delayed.point = .unborn := h.disciplined.early hbefore
  constructor
  · unfold decidedOn
    split
    · next t a =>
      split
      · next hdecision =>
        cases t with
        | delayed =>
            cases hm with
            | check _ hpoint => exact nomatch hborn.symm.trans hpoint
        | main =>
            rw [Coordinator.decision?_eq_none] at hdecision
            · cases hdecision
            · intro hpoint
              rw [hpoint] at hbefore
              cases hbefore
      · exact hbasis
    · exact hbasis
  · rw [hlanded, List.append_nil]
    unfold carriedOut
    split
    · next t =>
      cases t with
      | main => rw [hbasis, Option.toList_none, ite_self]
      | delayed =>
          have hnone : q.core.delayed.todo = [] := h.disciplined.unborn hborn
          rw [Coordinator.lands, show q.core.todo .delayed = [] from hnone]
          rfl
    · rfl

/-- What stays the same in all steps that carry nothing out. -/
theorem Fresh.quiet (h : q.Fresh) {s : Step} {snapshot : Option Snapshot} {core : Coordinator}
    {es : List Effect} (hm : q.core.Moves s core es) (hcarried : q.carriedOut s = [])
    (hbasis : ∀ t, core.decides t = true → (q.decidedOn s snapshot t = none → q.landed = []) ∧
      ∀ x, q.decidedOn s snapshot t = some x → x.number ≤ q.taken ∧ q.Leads x)
    (hdelayed : ∀ a ∈ core.delayed.todo, a.isDecisive = true →
      ∃ x, q.decidedOn s snapshot .delayed = some x ∧
        a = .installExtra (SlotMap.ofMembers core.cluster.numberOfNodes x.members) ∧
          core.cluster.minimumShards ≤ healthyCount x.members ∧ core.suspended = false)
    (hchosen : core.isCollecting = true → core.prospect.Chosen core.cluster core.slot
      ((if core.decides .main then q.decidedOn s snapshot .main else q.landed.head?).map
        Snapshot.members)) :
    (q.after s snapshot core).Fresh where
  disciplined := Coordinator.disciplined_of_moves hm h.disciplined
  delays := Coordinator.mayDelay_of_moves h.disciplined hm h.delays
  landed := by
    show ∀ y ∈ q.carriedOut s ++ q.landed, _
    rw [hcarried]
    exact h.landed
  sorted := by
    show (q.carriedOut s ++ q.landed).Pairwise _
    rw [hcarried]
    exact h.sorted
  held := fun _ _ => h.held_after hm
  early := h.early_after snapshot hm
  basis := by
    simp only [after, Leads, hcarried]
    exact hbasis
  delayed := hdelayed
  chosen := by
    simp only [after, choice, hcarried]
    exact hchosen

/-- Where nothing is decided, the snapshots decided on stay. -/
theorem decidedOn_of_decision?_eq_none {s : Step} (h : q.core.decision? s = none)
    (snapshot : Option Snapshot) : q.decidedOn s snapshot = q.basis := by
  unfold decidedOn
  split
  · rw [h]
    exact if_neg Bool.false_ne_true
  · rfl

/-- A decision is based on the snapshot that its strand has got. -/
theorem decidedOn_of_decision? {t : Task} {a : Answer} {d : Decision}
    (h : q.core.decision? (.answer t a) = some d) (snapshot : Option Snapshot) :
    q.decidedOn (.answer t a) snapshot = Function.update q.basis t snapshot := by
  unfold decidedOn
  rw [h]
  exact if_pos rfl

/-- A step that neither decides nor carries anything out. -/
theorem Fresh.keep (h : q.Fresh) {s : Step} {snapshot : Option Snapshot} {core : Coordinator}
    {es : List Effect} (hm : q.core.Moves s core es)
    (hlands : ∀ t, s = .run t → q.core.lands t = false) (hdecision : q.core.decision? s = none)
    (hmain : core.decides .main = q.core.decides .main)
    (hdelayed : ∀ a ∈ core.delayed.todo, a.isDecisive = true → a ∈ q.core.delayed.todo)
    (hsuspended : core.suspended = q.core.suspended)
    (hprospect : core.isCollecting = true → q.core.isCollecting = true ∧
      core.slot = q.core.slot ∧ core.prospect.SameFilters q.core.prospect) :
    (q.after s snapshot core).Fresh := by
  have hcluster : core.cluster = q.core.cluster := (Coordinator.write_of_moves hm).1
  have hcarried : q.carriedOut s = [] := by
    unfold carriedOut
    split
    · next t => exact if_neg (by rw [hlands t rfl]; nofun)
    · rfl
  refine h.quiet hm hcarried ?_ ?_ ?_
  · rw [decidedOn_of_decision?_eq_none hdecision]
    intro t hdecides
    refine h.basis t ?_
    cases t with
    | main => exact hmain.symm.trans hdecides
    | delayed =>
        obtain ⟨a, ha, hdecisive⟩ := List.any_eq_true.1 hdecides
        exact List.any_eq_true.2 ⟨a, hdelayed a ha hdecisive, hdecisive⟩
  · rw [decidedOn_of_decision?_eq_none hdecision, hcluster, hsuspended]
    exact fun a ha hdecisive => h.delayed a (hdelayed a ha hdecisive) hdecisive
  · rw [decidedOn_of_decision?_eq_none hdecision, hcluster, hmain]
    intro hcollects
    obtain ⟨hbefore, hslot, hsame⟩ := hprospect hcollects
    rw [hslot]
    exact (h.chosen hbefore).congr hsame

/-- The main shard goes in, on no snapshot. -/
theorem Fresh.enter (h : q.Fresh) {snapshot : Option Snapshot} {es : List Effect}
    (hm : q.core.Moves (.wake .main) q.core.enterSteady es)
    (hpoint : q.core.main.point = .settling)
    (hblank : q.core.standing.Blank) :
    (q.after (.wake .main) snapshot q.core.enterSteady).Fresh := by
  have hearly : q.core.main.point.isEarly = true := by
    rw [hpoint]
    rfl
  obtain ⟨hbasis, hlanded⟩ := h.early hearly
  have hborn : q.core.delayed.point = .unborn := h.disciplined.early hearly
  have hnone : q.core.delayed.todo = [] := h.disciplined.unborn hborn
  refine h.quiet hm rfl ?_ ?_ ?_
  · intro t hdecides
    cases t with
    | main => exact ⟨fun _ => hlanded, fun x hx => nomatch hbasis.symm.trans hx⟩
    | delayed =>
        have hdecides' : q.core.delayed.todo.any Action.isDecisive = true := hdecides
        rw [hnone] at hdecides'
        cases hdecides'
  · intro a ha
    have ha' : a ∈ q.core.delayed.todo := ha
    rw [hnone] at ha'
    cases ha'
  · intro _
    have hnothing : q.decidedOn (.wake .main) snapshot .main = none := hbasis
    rw [hnothing, hlanded, List.head?_nil, ite_self]
    exact hblank.entered

/-- Every decision of the steady loop has a part that is carried out. -/
theorem any_isDecisive_rebalanceActions (cluster : ClusterConfig) (slot : Nat) (suspended : Bool)
    (members : List Member) :
    (rebalanceActions cluster slot suspended members).any Action.isDecisive = true := by
  unfold rebalanceActions takeoverActions suspendActions
  dsimp only
  split <;> simp [Action.isDecisive]

/-- The main strand decides on a snapshot, and this is the latest. -/
theorem Fresh.rebalance (h : q.Fresh) {x : Snapshot} {es : List Effect}
    (hm : q.core.Moves (.answer .main (.ok x.members)) (q.core.onRebalance (.ok x.members)) es)
    (htodo : q.core.main.todo = []) (hpoint : q.core.main.point = .rebalancing)
    (hheld : q.held .main = some x) :
    (q.after (.answer .main (.ok x.members)) (some x)
      (q.core.onRebalance (.ok x.members))).Fresh := by
  obtain ⟨hawaits, htaken, hnewer⟩ := h.held .main x hheld
  have hidle := Coordinator.decides_eq_false_of_awaits h.disciplined hawaits
  have hdecision : q.core.decision? (.answer .main (.ok x.members)) =
      some (.rebalance x.members) := if_pos hpoint
  have hdecidedOn := decidedOn_of_decision? hdecision (some x)
  have hdelayed := Coordinator.decides_eq_false_iff.1 (hidle .delayed)
  have hdecides : (q.core.onRebalance (.ok x.members)).decides .main = true := by
    show (rebalanceActions _ _ _ _ ++ [Action.unlock, .settle]).any Action.isDecisive = true
    rw [List.any_append, any_isDecisive_rebalanceActions, Bool.true_or]
  refine h.quiet hm rfl ?_ ?_ ?_
  · rw [hdecidedOn]
    intro t hdecides'
    cases t with
    | main =>
        rw [Function.update_self]
        refine ⟨nofun, ?_⟩
        intro y hy
        cases hy
        exact ⟨htaken, fun y hy => Or.inr (hnewer y hy)⟩
    | delayed => exact nomatch (hidle .delayed).symm.trans hdecides'
  · intro a ha hdecisive
    exact nomatch (hdelayed a ha).symm.trans hdecisive
  · intro _
    have hcollects : q.core.isCollecting = true :=
      Coordinator.isCollecting_of_aloft (by rw [Coordinator.stage, hpoint]; rfl)
    have hchosen := h.chosen hcollects
    rw [Coordinator.prospect_of_todo htodo] at hchosen
    have hprospect : (q.core.onRebalance (.ok x.members)).prospect =
        q.core.standing.rebalanced q.core.cluster q.core.slot x.members :=
      Standing.carryOut_append _ (fun a => Coordinator.isOrdinary_of_mem_rebalanceActions) _
    rw [hdecides, if_pos rfl, hdecidedOn, Function.update_self, hprospect]
    exact hchosen.rebalanced

/-- The one thing that the delayed strand writes to the filters is what it takes over. -/
theorem eq_installExtra_of_mem_delayedActions {cluster : ClusterConfig} {slot : Nat}
    {members : List Member} {a : Action} (ha : a ∈ delayedActions cluster slot members)
    (hdecisive : a.isDecisive = true) :
    a = .installExtra (SlotMap.ofMembers cluster.numberOfNodes members) := by
  unfold delayedActions takeoverActions at ha
  grind [Action.isDecisive]

/-- The delayed strand decides on a snapshot, and this is the latest. -/
theorem Fresh.takeover (h : q.Fresh) {x : Snapshot} {es : List Effect}
    (hm : q.core.Moves (.answer .delayed (.ok x.members)) (q.core.onDelayed (.ok x.members)) es)
    (htodo : q.core.delayed.todo = []) (hpoint : q.core.delayed.point = .checking)
    (hfailed : (SlotMap.ofMembers q.core.cluster.numberOfNodes x.members).allPassing = false)
    (henough : q.core.cluster.minimumShards ≤ healthyCount x.members)
    (hheld : q.held .delayed = some x) :
    (q.after (.answer .delayed (.ok x.members)) (some x)
      (q.core.onDelayed (.ok x.members))).Fresh := by
  obtain ⟨hawaits, htaken, hnewer⟩ := h.held .delayed x hheld
  have hidle := Coordinator.decides_eq_false_of_awaits h.disciplined hawaits
  have hdecision : q.core.decision? (.answer .delayed (.ok x.members)) =
      some (.takeover x.members) := by
    refine if_neg ?_
    rw [hfailed, not_or]
    exact ⟨nofun, Nat.not_lt.2 henough⟩
  have hdecidedOn := decidedOn_of_decision? hdecision (some x)
  have hbasis : q.decidedOn (.answer .delayed (.ok x.members)) (some x) .main = q.basis .main := by
    rw [hdecidedOn]
    rfl
  have hawake : q.core.suspended = false := h.disciplined.looked hpoint htodo
  refine h.quiet hm rfl ?_ ?_ ?_
  · rw [hdecidedOn]
    intro t hdecides
    cases t with
    | main => exact nomatch (hidle .main).symm.trans hdecides
    | delayed =>
        rw [Function.update_self]
        refine ⟨nofun, ?_⟩
        intro y hy
        cases hy
        exact ⟨htaken, fun y hy => Or.inr (hnewer y hy)⟩
  · rw [hdecidedOn, Function.update_self]
    intro a ha hdecisive
    refine ⟨x, rfl, ?_, henough, hawake⟩
    rcases List.mem_append.1 ha with ha | ha
    · exact eq_installExtra_of_mem_delayedActions ha hdecisive
    · obtain rfl := List.mem_singleton.1 ha
      cases hdecisive
  · intro _
    have hborn : q.core.delayed.point ≠ .unborn := by
      rw [hpoint]
      nofun
    have hcollects : q.core.isCollecting = true := by
      rcases Coordinator.stage_of_alive h.disciplined hborn (by rw [hpoint]; nofun) with hg | hg
      · exact Coordinator.isCollecting_of_aloft hg
      · exact Coordinator.isCollecting_of_stopping hg
    rw [hbasis]
    exact h.chosen hcollects

/-- A step that carries out part of a decision: what this is based on is as late as all that was
carried out before. -/
theorem Fresh.carry (h : q.Fresh) {t : Task} {snapshot : Option Snapshot} {core : Coordinator}
    {es : List Effect} (hm : q.core.Moves (.run t) core es) (hlands : q.core.lands t = true)
    (halone : ∀ t', core.decides t' = true → t' = t)
    (hdelayed : ∀ a ∈ core.delayed.todo, a.isDecisive = true →
      ∃ x, q.basis .delayed = some x ∧
        a = .installExtra (SlotMap.ofMembers core.cluster.numberOfNodes x.members) ∧
          core.cluster.minimumShards ≤ healthyCount x.members ∧ core.suspended = false)
    (hchosen : core.isCollecting = true → core.prospect.Chosen core.cluster core.slot
      ((if core.decides .main then q.basis .main
        else ((q.basis t).toList ++ q.landed).head?).map Snapshot.members)) :
    (q.after (.run t) snapshot core).Fresh := by
  have hcarried : q.carriedOut (.run t) = (q.basis t).toList := carriedOut_of_lands hlands
  obtain ⟨hnone, hsome⟩ := h.basis t (Coordinator.decides_of_lands hlands)
  refine ⟨Coordinator.disciplined_of_moves hm h.disciplined,
    Coordinator.mayDelay_of_moves h.disciplined hm h.delays, ?_, ?_, fun _ _ => h.held_after hm,
    h.early_after snapshot hm, ?_, hdelayed, ?_⟩
  · show ∀ y ∈ q.carriedOut (.run t) ++ q.landed, y.number ≤ q.taken
    rw [hcarried]
    intro y hy
    rcases List.mem_append.1 hy with hy | hy
    · exact (hsome y (Option.mem_toList.1 hy)).1
    · exact h.landed y hy
  · show (q.carriedOut (.run t) ++ q.landed).Pairwise _
    rw [hcarried]
    cases hbasis : q.basis t with
    | none => exact h.sorted
    | some x =>
        refine List.pairwise_cons.2 ⟨?_, h.sorted⟩
        intro y hy
        rcases (hsome x hbasis).2 y hy with rfl | hless
        · exact Or.inl rfl
        · exact Or.inr hless
  · intro t' hdecides
    obtain rfl := halone t' hdecides
    show (q.basis t' = none → q.carriedOut (.run t') ++ q.landed = []) ∧
      ∀ x, q.basis t' = some x → x.number ≤ q.taken ∧
        ∀ y ∈ q.carriedOut (.run t') ++ q.landed, y = x ∨ y.number < x.number
    rw [hcarried]
    constructor
    · intro hbasis
      rw [hbasis, hnone hbasis]
      rfl
    · intro x hbasis
      obtain ⟨htaken, hleads⟩ := hsome x hbasis
      refine ⟨htaken, ?_⟩
      intro y hy
      rw [hbasis] at hy
      rcases List.mem_cons.1 hy with rfl | hy
      · exact Or.inl rfl
      · exact hleads y hy
  · simp only [after, choice, hcarried]
    exact hchosen

/-- The main strand carries out part of what it decided. -/
theorem Fresh.land (h : q.Fresh) {snapshot : Option Snapshot} {core : Coordinator}
    {es : List Effect} (hm : q.core.Moves (.run .main) core es) {a : Action}
    {rest : List Action} (htodo : q.core.main.todo = a :: rest) (ha : a.isDecisive = true)
    (hdelayed : core.delayed = q.core.delayed)
    (hprospect : core.isCollecting = true → q.core.isCollecting = true ∧
      core.slot = q.core.slot ∧ core.prospect.SameFilters q.core.prospect) :
    (q.after (.run .main) snapshot core).Fresh := by
  have hlands : q.core.lands .main = true := by
    rw [Coordinator.lands_of_todo (t := .main) htodo, ha]
  have hdecides : q.core.decides .main = true := Coordinator.decides_of_lands hlands
  have hother : q.core.decides .delayed = false :=
    Coordinator.decides_alone h.disciplined hdecides (by simp)
  refine h.carry hm hlands ?_ ?_ ?_
  · intro t' hdecides'
    cases t' with
    | main => rfl
    | delayed =>
        rw [Coordinator.decides, Coordinator.todo, hdelayed] at hdecides'
        cases hother.symm.trans hdecides'
  · rw [hdelayed]
    intro b hb hdecisive
    cases (Coordinator.decides_eq_false_iff.1 hother b hb).symm.trans hdecisive
  · intro hcollects
    obtain ⟨hbefore, hslot, hsame⟩ := hprospect hcollects
    have hchosen := (h.chosen hbefore).congr hsame
    rw [choice, hdecides, if_pos rfl] at hchosen
    -- What the record begins with is what the main strand decided on, also when it is none.
    have hhead : ((q.basis .main).toList ++ q.landed).head? = q.basis .main := by
      cases hbasis : q.basis .main with
      | none =>
          rw [(h.basis .main hdecides).1 hbasis, Option.toList_none, List.nil_append,
            List.head?_nil]
      | some x => rfl
    rw [hhead, ite_self, (Coordinator.write_of_moves hm).1, hslot]
    exact hchosen

/-- The delayed strand installs its filter, and collection is not suspended. -/
theorem Fresh.install (h : q.Fresh) {snapshot : Option Snapshot} {core : Coordinator}
    {slots : SlotMap} {rest : List Action} {es : List Effect}
    (hm : q.core.Moves (.run .delayed) core es)
    (hcore : core =
      (Coordinator.exec .delayed (.installExtra slots) (q.core.setTodo .delayed rest)).1)
    (htodo : q.core.delayed.todo = .installExtra slots :: rest) :
    (q.after (.run .delayed) snapshot core).Fresh := by
  have hlands : q.core.lands .delayed = true := by
    rw [Coordinator.lands_of_todo (t := .delayed) htodo]
    rfl
  have hdecides : q.core.decides .delayed = true := Coordinator.decides_of_lands hlands
  have hother : q.core.decides .main = false :=
    Coordinator.decides_alone h.disciplined hdecides (by simp)
  have hmain : core.main = q.core.main := by
    rw [hcore]
    rfl
  have hdelayed : core.delayed.todo = rest := by
    rw [hcore]
    rfl
  have hsame : core.cluster = q.core.cluster ∧ core.slot = q.core.slot ∧
      core.suspended = q.core.suspended ∧ core.isCollecting = q.core.isCollecting := by
    rw [hcore]
    exact ⟨rfl, rfl, rfl, rfl⟩
  obtain ⟨hcluster, hslot, hsuspended, hcollecting⟩ := hsame
  refine h.carry hm hlands ?_ ?_ ?_
  · intro t' hdecides'
    cases t' with
    | main =>
        rw [Coordinator.decides, Coordinator.todo, hmain] at hdecides'
        cases hother.symm.trans hdecides'
    | delayed => rfl
  · rw [hdelayed, hcluster, hsuspended]
    intro a ha hdecisive
    refine h.delayed a ?_ hdecisive
    rw [htodo]
    exact List.mem_cons_of_mem _ ha
  · rw [hcollecting, hcluster, hslot]
    intro hcollects
    obtain ⟨x, hbasis, hslots, henough, hawake⟩ :=
      h.delayed (.installExtra slots) (by rw [htodo]; exact List.mem_cons_self) rfl
    have hborn : q.core.delayed.point ≠ .unborn := h.disciplined.born htodo
    have howner : q.core.owner = some .delayed :=
      (Coordinator.owner_of_decides h.disciplined hdecides).resolve_right
        fun hmain => by cases hmain.1
    have hfinished : unfinished q.core.main.todo = false :=
      Coordinator.main_finished h.disciplined howner hborn
    have hchosen := h.chosen hcollects
    rw [Coordinator.prospect_of_finished hfinished] at hchosen
    have hafter : core.decides .main = false := by
      rw [Coordinator.decides, Coordinator.todo, hmain]
      exact hother
    rw [Coordinator.prospect_of_finished (by rw [hmain]; exact hfinished), hafter, hbasis]
    refine hchosen.install hawake henough ?_ hsuspended
    rw [← Action.installExtra.inj hslots, hcore]
    rfl

/-- A step of the coordinator, with an answer that is on its way. -/
theorem Fresh.advance (h : q.Fresh) {s : Step} {snapshot : Option Snapshot}
    (hblank : q.core.main.point = .settling → q.core.main.todo = [] → q.core.standing.Blank)
    (hsnapshot : ∀ t members, s = .answer t (.ok members) →
      ∃ x, snapshot = some x ∧ q.held t = some x ∧ members = x.members)
    (hadvance : q.advance s snapshot = some q') : q'.Fresh := by
  obtain ⟨⟨core, es⟩, hstep, rfl⟩ := Option.map_eq_some_iff.1 hadvance
  have hm : q.core.Moves s core es := Coordinator.moves_of_step? hstep
  dsimp only
  cases Coordinator.affects_of_moves h.disciplined h.delays hm with
  | keep hlands hdecision hmain hdelayed hsuspended hprospect =>
      exact h.keep hm hlands hdecision hmain hdelayed hsuspended hprospect
  | enter htodo hpoint => exact h.enter hm hpoint (hblank hpoint htodo)
  | rebalance htodo hpoint =>
      obtain ⟨x, rfl, hheld, rfl⟩ := hsnapshot _ _ rfl
      exact h.rebalance hm htodo hpoint hheld
  | takeover htodo hpoint hfailed henough =>
      obtain ⟨x, rfl, hheld, rfl⟩ := hsnapshot _ _ rfl
      exact h.takeover hm htodo hpoint hfailed henough hheld
  | land htodo ha _ hdelayed hprospect => exact h.land hm htodo ha hdelayed hprospect
  | install htodo => exact h.install hm rfl htodo

/-- A snapshot is taken, or the coordinator takes a step, with an answer only if it was on its
way. -/
theorem act?_cases {o : Occurrence} (hact : q.act? o = some q') :
    (∃ t members, q.core.awaits t = true ∧
        q' = { q with
          taken := q.taken + 1
          held := Function.update q.held t (some ⟨q.taken + 1, members⟩) }) ∨
      ∃ s snapshot, q.advance s snapshot = some q' ∧
        ∀ t members, s = .answer t (.ok members) →
          ∃ x, snapshot = some x ∧ q.held t = some x ∧ members = x.members := by
  cases o with
  | take t members =>
      simp only [act?] at hact
      split at hact
      · next hawaits =>
        cases hact
        exact Or.inl ⟨t, members, hawaits, rfl⟩
      · cases hact
  | deliver t =>
      obtain ⟨x, hheld, hadvance⟩ := Option.bind_eq_some_iff.1 hact
      refine Or.inr ⟨_, _, hadvance, ?_⟩
      intro t' members hs
      cases hs
      exact ⟨x, rfl, hheld, rfl⟩
  | step s =>
      refine Or.inr ⟨s, none, ?_⟩
      cases s with
      | answer t a =>
          cases a with
          | ok members => cases hact
          | error e => exact ⟨hact, nofun⟩
      | _ => exact ⟨hact, nofun⟩

/-- A snapshot that is taken is newer than all that was carried out. -/
theorem Fresh.take (h : q.Fresh) {t : Task} (hawaits : q.core.awaits t = true)
    (members : List Member) :
    Fresh { q with
      taken := q.taken + 1
      held := Function.update q.held t (some ⟨q.taken + 1, members⟩) } := by
  have hidle := Coordinator.decides_eq_false_of_awaits h.disciplined hawaits
  refine ⟨h.disciplined, h.delays, ?_, h.sorted, ?_, h.early, ?_, h.delayed, h.chosen⟩
  · intro y hy
    exact Nat.le_succ_of_le (h.landed y hy)
  · intro t' x hx
    by_cases ht : t' = t
    · subst ht
      simp only [Function.update_self, Option.some.injEq] at hx
      subst hx
      exact ⟨hawaits, Nat.le_refl _, fun y hy => Nat.lt_succ_of_le (h.landed y hy)⟩
    · simp only [Function.update_of_ne ht] at hx
      obtain ⟨hawaits', htaken, hnewer⟩ := h.held t' x hx
      exact ⟨hawaits', Nat.le_succ_of_le htaken, hnewer⟩
  · intro t' hdecides
    exact nomatch (hidle t').symm.trans hdecides

/-- **Whatever happens, nothing stale is on its way or about to be carried out.** -/
theorem fresh_of_act {o : Occurrence} (h : q.Fresh)
    (hblank : q.core.main.point = .settling → q.core.main.todo = [] → q.core.standing.Blank)
    (hact : q.act? o = some q') : q'.Fresh := by
  rcases act?_cases hact with ⟨t, members, hawaits, rfl⟩ | ⟨s, snapshot, hadvance, hsnapshot⟩
  · exact h.take hawaits members
  · exact h.advance hblank hsnapshot hadvance

section Started

variable {cluster : ClusterConfig} {timers : TimerConfig} {devices : List Device}
  {updates changes : Signal} {clock : Nat}

/-- Until the main shard goes in, there are no filters and nothing was suspended. -/
theorem blank_of_settling {log : List Moment} {c : Coordinator}
    (hrun : Run (.start cluster timers devices updates changes clock) log c)
    (hpoint : c.main.point = .settling) (htodo : c.main.todo = []) : c.standing.Blank := by
  have hstage : c.stage = .gated := by
    rw [Coordinator.stage, hpoint]
    rfl
  obtain ⟨haccords, hlast⟩ := Coordinator.accords_of_run hrun
  have hwhole : wasInterrupted log = false := by
    rw [Bool.eq_false_iff]
    intro hint
    have hisLast := hlast hint
    rw [hstage] at hisLast
    cases hisLast
  have hdisciplined : c.work.Disciplined :=
    Coordinator.disciplined_of_run hrun (Coordinator.disciplined_start ..)
  have hdelayed : unfinished c.delayed.todo = false :=
    Coordinator.delayed_finished_of_early hdisciplined (by rw [hpoint]; rfl)
  have hat := (haccords (Or.inl hwhole)).stage
  rw [Coordinator.picture_of_idle htodo hdelayed, hpoint] at hat
  exact hat.1.2.1

/-- Whatever happens, the coordinator runs. -/
theorem exists_run_of_act {c₀ : Coordinator} {o : Occurrence}
    (hrun : ∃ log, Run c₀ log q.core) (hact : q.act? o = some q') :
    ∃ log, Run c₀ log q'.core := by
  rcases act?_cases hact with ⟨t, members, -, rfl⟩ | ⟨s, snapshot, hadvance, -⟩
  · exact hrun
  · obtain ⟨log, hrun⟩ := hrun
    obtain ⟨⟨core, es⟩, hstep, rfl⟩ := Option.map_eq_some_iff.1 hadvance
    exact ⟨_, hrun.step hstep⟩

/-- A started coordinator has nothing stale on its way. -/
theorem fresh_of_reachable
    (hreach : Reachable act? (start cluster timers devices updates changes clock) q) :
    q.Fresh ∧ ∃ log, Run (.start cluster timers devices updates changes clock) log q.core := by
  induction hreach with
  | start =>
      refine ⟨⟨Coordinator.disciplined_start .., nofun, nofun, .nil, nofun, fun _ => ⟨rfl, rfl⟩, ?_,
        nofun, nofun⟩, _, .start⟩
      intro t hdecides
      cases t <;> cases hdecides
  | act _ hact ih =>
      obtain ⟨hfresh, log, hrun⟩ := ih
      exact ⟨fresh_of_act hfresh (blank_of_settling hrun) hact, exists_run_of_act ⟨log, hrun⟩ hact⟩

/-- **A stale snapshot never lands after a newer decision.**  What the parts of decisions carried
out so far are based on was taken in the order in which they were carried out.  So between the
installation of the main shard and the release, while nothing is left to decide, the filters and the
flag are those that the latest of these snapshots calls for, or those with which the steady loop
began if there is none; and the delayed strand installs its filter only while collection is not
suspended. -/
theorem stale_never_lands
    (hreach : Reachable act? (start cluster timers devices updates changes clock) q) :
    (q.landed.Pairwise fun later sooner => later = sooner ∨ sooner.number < later.number) ∧
      (q.core.isCollecting = true → q.core.isDeciding = false →
        (q.landed = [] → q.core.standing.Chosen cluster q.core.slot none) ∧
          ∀ x ∈ q.landed, (∀ y ∈ q.landed, y.number ≤ x.number) →
            q.core.standing.Chosen cluster q.core.slot (some x.members)) ∧
      ∀ slots rest, q.core.delayed.todo = .installExtra slots :: rest →
        q.core.suspended = false := by
  obtain ⟨hfresh, log, hrun⟩ := fresh_of_reachable hreach
  have hcluster : q.core.cluster = cluster := Coordinator.cluster_of_run hrun
  refine ⟨hfresh.sorted, ?_, ?_⟩
  · intro hcollects hidle
    have hlate : q.core.main.point.isEarly = false := by
      rw [Bool.eq_false_iff]
      intro hearly
      have hborn : q.core.delayed.point = .unborn := hfresh.disciplined.early hearly
      exact nomatch hcollects.symm.trans
        (Coordinator.isCollecting_eq_false hborn (Or.inl hearly))
    rw [Coordinator.isDeciding, hlate, Bool.not_false, Bool.true_and, Bool.or_eq_false_iff]
      at hidle
    have hnone : q.core.decides .main = false :=
      Coordinator.decides_eq_false_iff.2 (hfresh.disciplined.main.not_decisive hidle.1)
    have hchosen := hfresh.chosen hcollects
    rw [Coordinator.prospect_of_finished hidle.1, hcluster, choice, hnone,
      if_neg Bool.false_ne_true] at hchosen
    constructor
    · intro hlanded
      rwa [hlanded] at hchosen
    · intro x hx hlatest
      have hsorted := hfresh.sorted
      cases hlanded : q.landed with
      | nil =>
          rw [hlanded] at hx
          cases hx
      | cons y rest =>
          rw [hlanded] at hx hlatest hchosen hsorted
          -- The record is in order, so what it begins with is the latest.
          have hhead : x = y := by
            rcases List.mem_cons.1 hx with rfl | hx
            · rfl
            · rcases (List.pairwise_cons.1 hsorted).1 x hx with heq | hless
              · exact heq.symm
              · exact absurd (hlatest y List.mem_cons_self) (Nat.not_le.2 hless)
          rw [hhead]
          exact hchosen
  · intro slots rest htodo
    obtain ⟨-, -, -, -, hawake⟩ :=
      hfresh.delayed (.installExtra slots) (by rw [htodo]; exact List.mem_cons_self) rfl
    exact hawake

end Started

/-- The second of two nodes. -/
def startOfSecond : Querying :=
  start { nodeAddress := "b", numberOfNodes := 2 } {} Coordinator.devicesOfTwo (.ofCapacity 1)
    (.ofCapacity 1) 0

/-- The second of two nodes queries with its delayed strand while a tick comes: the steady loop has
to wait, and queries when the delayed strand has taken over.  By then there are no members left. -/
def queriesInTurn : List Occurrence :=
  let acts (t : Task) (k : Nat) : List Occurrence := List.replicate k (.step (.run t))
  let query (t : Task) (members : List Member) : List Occurrence := [.take t members, .deliver t]
  acts .main 1 ++ query .main (Coordinator.membersOfTwo .passing) ++
    acts .main 3 ++ query .main (Coordinator.membersOfTwo .passing) ++
    acts .main 4 ++ [.step (.pass 35000000000), .step (.wake .main)] ++
    acts .main 6 ++ acts .delayed 1 ++
    [.step .change, .step .hear, .step (.pass 70000000000), .step (.wake .delayed)] ++
    acts .delayed 2 ++
    [.take .delayed (Coordinator.membersOfTwo .critical), .step .tick] ++ acts .main 1 ++
    [.deliver .delayed] ++ acts .delayed 7 ++
    acts .main 2 ++ query .main [] ++ acts .main 11

/-- The takeover lands first and then the suspension, on the snapshot that was taken last. -/
theorem stale_never_lands_in_turn :
    ∃ q, Reachable act? startOfSecond q ∧
      q.landed = [⟨4, []⟩, ⟨4, []⟩, ⟨4, []⟩, ⟨3, Coordinator.membersOfTwo .critical⟩] ∧
      q.core.isCollecting = true ∧ q.core.isDeciding = false ∧
      q.core.standing.Chosen { nodeAddress := "b", numberOfNodes := 2 } q.core.slot (some []) := by
  obtain ⟨q, hreach, hcheck⟩ := exists_reachable act? startOfSecond queriesInTurn
    (fun q =>
      q.landed == [⟨4, []⟩, ⟨4, []⟩, ⟨4, []⟩, ⟨3, Coordinator.membersOfTwo .critical⟩] &&
        q.core.isCollecting && !q.core.isDeciding)
    (by decide +kernel)
  simp only [Bool.and_eq_true, beq_iff_eq, Bool.not_eq_true'] at hcheck
  obtain ⟨⟨hlanded, hcollects⟩, hidle⟩ := hcheck
  refine ⟨q, hreach, hlanded, hcollects, hidle, ?_⟩
  refine ((stale_never_lands hreach).2.1 hcollects hidle).2 ⟨4, []⟩ ?_ ?_
  · rw [hlanded]
    exact List.mem_cons_self
  · rw [hlanded]
    intro y hy
    simp only [List.mem_cons, List.not_mem_nil, or_false] at hy
    rcases hy with rfl | rfl | rfl | rfl <;> decide

end Querying

end FleetSharding
