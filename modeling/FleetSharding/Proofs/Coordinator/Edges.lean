import FleetSharding.Proofs.Coordinator.Prospect
import FleetSharding.Proofs.Coordinator.Threshold
import FleetSharding.Proofs.Metrics

/-!
# Suspension is told on its edges

A decision of the steady loop that suspends collection, or resumes it, tells so by an event and by a
gauge; one that leaves it as it was tells nothing.  Where the suspension stands is kept three times:
as a flag, as the gauge and as the published phase.  They are written one after the other, and the
delayed strand writes the phase, too.

* `Speaks`, `speaks_of_moves`: what each move tells and leaves to be told; only a decision of the
  steady loop adds to it.
* `Picture.Frank`, `Meek`: the phase goes with the flag, and the delayed strand does not disturb
  this, even if it is cut off.
* `suspension_is_told_on_edges`: what is told alternates, and while no decision is in progress the
  phase and the gauge are what was told last.
-/

namespace FleetSharding

/-- The two ways of telling where the suspension stands. -/
inductive Voice where
  | event
  | gauge
  deriving DecidableEq, Repr

/-- What an event says of the suspension. -/
def Event.edge? : Event → Option Bool
  | .suspended .. => some true
  | .unsuspended .. => some false
  | _ => none

/-- What an effect tells of the suspension. -/
def Effect.says? : Voice → Effect → Option Bool
  | .event, .report e => e.edge?
  | .gauge, .measure m => m.suspends?
  | _, _ => none

/-- What an action tells of it. -/
def Action.says? : Voice → Action → Option Bool
  | .event, .report e => e.edge?
  | .gauge, .measure m => m.suspends?
  | _, _ => none

/-- All effects in a log, the first one first. -/
def history (log : List Moment) : List Effect := log.reverse.flatMap Moment.effects

/-- What a moment has told comes behind what was told before. -/
theorem history_cons (m : Moment) (log : List Moment) :
    history (m :: log) = history log ++ m.effects := by
  rw [history, List.reverse_cons, List.flatMap_append, List.flatMap_singleton]
  rfl

/-- What was told of the suspension. -/
def said (v : Voice) (log : List Moment) : List Bool := (history log).filterMap (Effect.says? v)

/-- What is left to be told in a list of actions. -/
def unsaid (v : Voice) (l : List Action) : List Bool := l.filterMap (Action.says? v)

/-- Who has nothing to do has nothing to say. -/
@[simp] theorem unsaid_nil (v : Voice) : unsaid v [] = [] := rfl

/-- What is said first comes first. -/
theorem unsaid_append (v : Voice) (l l' : List Action) :
    unsaid v (l ++ l') = unsaid v l ++ unsaid v l' :=
  List.filterMap_append

/-- An action is heard before those behind it. -/
theorem unsaid_cons (v : Voice) (a : Action) (l : List Action) :
    unsaid v (a :: l) = (a.says? v).toList ++ unsaid v l := by
  unfold unsaid
  cases ha : a.says? v with
  | none => exact List.filterMap_cons_none ha
  | some on => exact List.filterMap_cons_some ha

/-- Places of the suspension that alternate, the first one being up: each is another one than the
place before, which was down at first. -/
def Alternates (l : List Bool) : Prop := (false :: l).IsChain (· ≠ ·)

/-! ### What decisions tell -/

/-- A list of members that does not fit together says nothing of the suspension. -/
theorem edge?_of_mem_inconsistencies {nodes : Nat} {seen : List Nat} {members : List Member}
    {e : Event} (he : e ∈ inconsistencies nodes seen members) : e.edge? = none := by
  induction members generalizing seen with
  | nil => cases he
  | cons m ms ih =>
      rw [inconsistencies] at he
      split at he
      · split at he
        · rcases List.mem_cons.1 he with rfl | he
          · rfl
          · exact ih he
        · split at he
          · rcases List.mem_cons.1 he with rfl | he
            · rfl
            · exact ih he
          · exact ih he
      · rcases List.mem_cons.1 he with rfl | he
        · rfl
        · exact ih he

/-- Warnings about the members tell nothing. -/
theorem unsaid_warnings (v : Voice) (nodes : Nat) (members : List Member) :
    unsaid v ((snapshotWarnings nodes members).map .report) = [] := by
  rw [unsaid, List.filterMap_eq_nil_iff]
  intro a ha
  obtain ⟨e, he, rfl⟩ := List.mem_map.1 ha
  cases v with
  | event => exact edge?_of_mem_inconsistencies he
  | gauge => rfl

/-- Whoever takes over does not say anything of the suspension. -/
theorem unsaid_takeoverActions (v : Voice) (slot : Nat) (slots : SlotMap) (source : String) :
    unsaid v (takeoverActions slot slots source) = [] := by
  unfold takeoverActions
  split <;> cases v <;> rfl

/-- The suspension is said when it begins, and only then. -/
theorem unsaid_suspendActions (v : Voice) (suspended : Bool) (healthy minimum : Nat) :
    unsaid v (suspendActions suspended healthy minimum) = if suspended then [] else [true] := by
  cases suspended <;> cases v <;> rfl

/-- So is its end. -/
theorem unsaid_unsuspendActions (v : Voice) (suspended : Bool) (healthy minimum : Nat) :
    unsaid v (unsuspendActions suspended healthy minimum) = if suspended then [false] else [] := by
  cases suspended <;> cases v <;> rfl

/-- Whether a list of members is too short to go on collecting. -/
def isTooFew (cluster : ClusterConfig) (members : List Member) : Bool :=
  decide (healthyCount members < cluster.minimumShards)

/-- The place of the suspension that a decision calls for; the delayed strand leaves it alone. -/
def Decision.ruling? (cluster : ClusterConfig) : Decision → Option Bool
  | .rebalance members => some (isTooFew cluster members)
  | .takeover _ => none

/-- **A decision of the steady loop tells of the suspension exactly if it changes it.** -/
theorem unsaid_rebalanceActions (v : Voice) (cluster : ClusterConfig) (slot : Nat)
    (suspended : Bool) (members : List Member) :
    unsaid v (rebalanceActions cluster slot suspended members) =
      if suspended = isTooFew cluster members then [] else [isTooFew cluster members] := by
  have hlast : ∀ u, unsaid v [.measure (.rebalance "ok"), .requestRefresh, .publish u] = [] := by
    cases v <;> exact fun _ => rfl
  have hfirst : ∀ m n, unsaid v [.measure (.membership m n)] = [] := by
    cases v <;> exact fun _ _ => rfl
  unfold rebalanceActions isTooFew
  dsimp only
  rw [unsaid_append, unsaid_append, unsaid_append, unsaid_warnings, hfirst, hlast, List.nil_append,
    List.nil_append, List.append_nil]
  by_cases henough : cluster.minimumShards ≤ healthyCount members
  · rw [if_pos henough, unsaid_append, unsaid_takeoverActions, List.append_nil,
      unsaid_unsuspendActions, decide_eq_false (Nat.not_lt.2 henough)]
    cases suspended <;> rfl
  · rw [if_neg henough, unsaid_suspendActions, decide_eq_true (Nat.not_le.1 henough)]

/-- Effects tell what the action tells that has them. -/
theorem says?_exec (v : Voice) (t : Task) (a : Action) (c : Coordinator) :
    (Coordinator.exec t a c).2.filterMap (Effect.says? v) = (a.says? v).toList := by
  cases a with
  | report e =>
      cases v with
      | event => cases he : e.edge? <;> simp [Coordinator.exec, Effect.says?, Action.says?, he]
      | gauge => rfl
  | measure m =>
      cases v with
      | event => rfl
      | gauge => cases hm : m.suspends? <;> simp [Coordinator.exec, Effect.says?, Action.says?, hm]
  | requestRefresh =>
      simp only [Coordinator.exec, Coordinator.dropped]
      split <;> cases v <;> rfl
  | look | startTicker | dropExtra =>
      simp only [Coordinator.exec]
      split <;> cases v <;> rfl
  | _ => cases v <;> rfl

/-- What the delayed strand may have to do tells nothing of the suspension, leaves the flag alone,
and publishes no phase that speaks of it. -/
def Action.isTame : Action → Bool
  | .acquire | .unlock | .look | .installExtra _ | .requestRefresh | .sleep _
  | .publish .discoveryFailed => true
  | .report e => e.edge?.isNone
  | .measure m => m.suspends?.isNone
  | .publish (.decided p _ _) => p != .suspended
  | _ => false

/-- A tame action says nothing. -/
theorem Action.says?_of_isTame {a : Action} (ha : a.isTame = true) (v : Voice) :
    a.says? v = none := by
  cases v <;> cases a <;>
    first | rfl | exact Option.isNone_iff_eq_none.1 ha

namespace Coordinator

variable {c c' : Coordinator}

/-- The place of the suspension that a step decides on. -/
def ruling? (c : Coordinator) (s : Step) : Option Bool :=
  (c.decision? s).bind (Decision.ruling? c.cluster)

/-- What a step tells, and what it leaves the main strand to tell. -/
inductive Speaks (c : Coordinator) : Step → Coordinator → List Effect → Prop
  /-- Nothing is told, and what the main strand has to do stays. -/
  | quiet {s : Step} {c' : Coordinator} {es : List Effect}
      (hstep : c.ruling? s = none) (hes : ∀ v, es.filterMap (Effect.says? v) = [])
      (htodo : c'.main.todo = c.main.todo) :
      Speaks c s c' es
  /-- The main strand goes on to something else, and neither before nor after has to tell. -/
  | turn {s : Step} {c' : Coordinator} {es : List Effect}
      (hstep : c.ruling? s = none) (hes : ∀ v, es.filterMap (Effect.says? v) = [])
      (hbefore : ∀ v, unsaid v c.main.todo = []) (hafter : ∀ v, unsaid v c'.main.todo = []) :
      Speaks c s c' es
  /-- What was left to tell first is told; what is left to do before the rest tells nothing. -/
  | speak {a : Action} {l rest : List Action} {c' : Coordinator} {es : List Effect}
      (hes : ∀ v, es.filterMap (Effect.says? v) = (a.says? v).toList)
      (htodo : c.main.todo = a :: rest)
      (hl : ∀ b ∈ l, b.isOrdinary = true ∧ ∀ v, b.says? v = none)
      (hafter : c'.main.todo = l ++ rest) : Speaks c (.run .main) c' es
  | rebalance {members : List Member} (htodo : c.main.todo = [])
      (hpoint : c.main.point = .rebalancing) :
      Speaks c (.answer .main (.ok members)) (c.onRebalance (.ok members)) []

/-- The main strand does its next action. -/
theorem speaks_exec_main (h : c.work.Disciplined) {a : Action} {rest : List Action}
    (htodo : c.main.todo = a :: rest) :
    Speaks c (.run .main) (exec .main a (c.setTodo .main rest)).1
      (exec .main a (c.setTodo .main rest)).2 := by
  have hmain : Orderly .main (c.owner = some .main) c.main.point c.delayed.point (a :: rest) :=
    htodo ▸ h.main
  have hes : ∀ v, (exec .main a (c.setTodo .main rest)).2.filterMap (Effect.says? v) =
      (a.says? v).toList := fun v => says?_exec v .main a _
  have hstay : (exec .main a (c.setTodo .main rest)).1.main.todo = rest →
      Speaks c (.run .main) (exec .main a (c.setTodo .main rest)).1
        (exec .main a (c.setTodo .main rest)).2 :=
    fun hafter => .speak (l := []) hes htodo (by nofun) hafter
  have hnext : ∀ {b : Action}, b.isOrdinary = true → (∀ v, b.says? v = none) →
      (exec .main a (c.setTodo .main rest)).1.main.todo = b :: rest →
      Speaks c (.run .main) (exec .main a (c.setTodo .main rest)).1
        (exec .main a (c.setTodo .main rest)).2 := by
    intro b hord hsays hafter
    refine .speak (l := [b]) hes htodo ?_ hafter
    intro x hx
    rw [List.mem_singleton.1 hx]
    exact ⟨hord, hsays⟩
  cases a with
  | unlock =>
      refine hstay ?_
      simp only [exec, handOver_eq]
      rfl
  | look => cases hmain.1
  | startTicker =>
      obtain ⟨-, -, rfl⟩ := hmain
      refine hstay ?_
      simp only [exec]
      split <;> rfl
  | finish o =>
      obtain ⟨-, -, -, rfl⟩ := hmain
      exact hstay rfl
  | dropMain =>
      exact hnext (b := .dropExtra (c.registry.has mainFilter)) rfl (by simp [Action.says?]) rfl
  | dropExtra hadMain =>
      have hafter : (exec .main (.dropExtra hadMain) (c.setTodo .main rest)).1.main.todo = rest ∨
          (exec .main (.dropExtra hadMain) (c.setTodo .main rest)).1.main.todo =
            .requestRefresh :: rest := by
        simp only [exec]
        split
        · exact Or.inr rfl
        · exact Or.inl rfl
      rcases hafter with hafter | hafter
      · exact hstay hafter
      · exact hnext rfl (by simp [Action.says?]) hafter
  | _ => exact hstay rfl

/-- The main strand begins something that tells nothing. -/
theorem Speaks.begin {s : Step} (hstep : c.ruling? s = none)
    (htodo : c.main.todo = []) (hafter : ∀ v, unsaid v c'.main.todo = []) : Speaks c s c' [] :=
  .turn hstep (fun _ => rfl) (fun v => by rw [htodo, unsaid_nil]) hafter

/-- Whoever looks for its own record says nothing of the suspension. -/
theorem unsaid_ownSlotWarning (v : Voice) (cluster : ClusterConfig) (members : List Member) :
    unsaid v ((ownSlotWarning cluster members).map .report) = [] := by
  unfold ownSlotWarning
  split
  · split
    · rfl
    · cases v <;> rfl
  · rfl

/-- Looking once more, or giving up, tells nothing. -/
theorem unsaid_retry {attempt : Nat} {l : List Action} (v : Voice) (hl : unsaid v l = []) :
    unsaid v (c.retry attempt l).main.todo = [] := by
  unfold retry
  split
  · show unsaid v (l ++ _) = []
    rw [unsaid_append, hl]
    cases v <;> rfl
  · show unsaid v (l ++ _) = []
    rw [unsaid_append, hl]
    cases v <;> rfl

/-- An answer to the main strand while it looks for itself, or waits for enough members, leaves
nothing to tell. -/
theorem unsaid_onRegistration (v : Voice) (attempt : Nat) (a : Answer) :
    unsaid v (c.onRegistration attempt a).main.todo = [] := by
  cases a with
  | error e => exact unsaid_retry v (by cases v <;> rfl)
  | ok members =>
      unfold onRegistration
      dsimp only
      split
      · cases v <;> rfl
      · exact unsaid_retry v (unsaid_ownSlotWarning v c.cluster members)

/-- Nor does whoever waits for enough members. -/
theorem unsaid_onWarmup (v : Voice) (a : Answer) : unsaid v (c.onWarmup a).main.todo = [] := by
  cases a with
  | error e => cases v <;> rfl
  | ok members =>
      unfold onWarmup
      dsimp only
      split <;> cases v <;> rfl

/-- The delayed strand decides nothing of the suspension. -/
theorem ruling?_delayed (a : Answer) : c.ruling? (.answer .delayed a) = none := by
  cases a with
  | error e => rfl
  | ok members =>
      unfold ruling? decision?
      dsimp only
      split <;> rfl

/-- Only an answer to the steady loop decides anything of the suspension. -/
theorem ruling?_eq_none (hpoint : c.main.point ≠ .rebalancing) (s : Step) :
    c.ruling? s = none := by
  cases s with
  | answer t a =>
      cases t with
      | main =>
          rw [ruling?, decision?_eq_none hpoint]
          rfl
      | delayed => exact ruling?_delayed a
  | _ => rfl

/-- **What is told of the suspension was left to tell by a decision of the steady loop.** -/
theorem speaks_of_moves {s : Step} {es : List Effect} (h : c.work.Disciplined)
    (htame : ∀ a ∈ c.delayed.todo, a.isTame = true) (hm : Moves c s c' es) : Speaks c s c' es := by
  have hdropped : ∀ (name : String) (signal : Signal) (v : Voice),
      (dropped name signal).filterMap (Effect.says? v) = [] := by
    intro name signal v
    unfold dropped
    split <;> cases v <;> rfl
  cases hm with
  | @act t a rest htodo _ =>
      cases t with
      | main => exact speaks_exec_main h htodo
      | delayed =>
          have htodo' : c.delayed.todo = a :: rest := htodo
          have ha : a.isTame = true := htame a (by rw [htodo']; exact List.mem_cons_self)
          refine .quiet rfl (fun v => ?_) (congrArg Strand.todo (exec_delayed_frame h htodo').1)
          rw [says?_exec, Action.says?_of_isTame ha]
          rfl
  | registration htodo hpoint =>
      exact .begin (ruling?_eq_none (by rw [hpoint]; nofun) _) htodo
        fun v => unsaid_onRegistration v _ _
  | warmup htodo hpoint =>
      exact .begin (ruling?_eq_none (by rw [hpoint]; nofun) _) htodo fun v => unsaid_onWarmup v _
  | @rebalance a htodo hpoint =>
      cases a with
      | ok members => exact .rebalance htodo hpoint
      | error e => exact .begin rfl htodo fun v => by cases v <;> rfl
  | @check a _ _ =>
      refine .quiet (ruling?_delayed a) (fun _ => rfl) ?_
      cases a <;> rfl
  | wakeRetrying htodo _ | wakeWaiting htodo _ | enter htodo _ _ | leave htodo _ _ _
  | halt htodo _ _ | tick htodo _ _ | join htodo _ _ =>
      exact .begin rfl htodo fun v => by cases v <;> rfl
  | hearEnd => exact .quiet rfl (fun v => by cases v <;> rfl) rfl
  | change => exact .quiet rfl (hdropped _ _) rfl
  | cut =>
      obtain ⟨owner, queue, hcut⟩ := exists_cutDelayed_eq c
      rw [hcut]
      exact .quiet rfl (fun _ => rfl) rfl
  | _ => exact .quiet rfl (fun _ => rfl) rfl

/-- What was told of the suspension, and what is left to be told. -/
def foretold (c : Coordinator) (v : Voice) (log : List Moment) : List Bool :=
  said v log ++ unsaid v c.main.todo

/-- What a step changes of the suspension. -/
def edge (c : Coordinator) (s : Step) : List Bool :=
  match c.ruling? s with
  | some on => if c.outlook.suspended = on then [] else [on]
  | none => []

/-- Where nothing is decided there is no edge. -/
theorem edge_eq_nil {s : Step} (hstep : c.ruling? s = none) : c.edge s = [] := by
  rw [edge, hstep]

/-- **What is foretold grows by what is decided.** -/
theorem Speaks.foretold_eq {s : Step} {es : List Effect} (h : Speaks c s c' es)
    (hd : c.work.Disciplined) (v : Voice) (log : List Moment) :
    c'.foretold v (⟨c, s, es⟩ :: log) = c.foretold v log ++ c.edge s := by
  have hsaid : said v (⟨c, s, es⟩ :: log) = said v log ++ es.filterMap (Effect.says? v) := by
    rw [said, history_cons, List.filterMap_append]
    rfl
  rw [foretold, foretold, hsaid, List.append_assoc, List.append_assoc]
  cases h with
  | quiet hstep hes htodo => rw [hes, htodo, edge_eq_nil hstep, List.append_nil, List.nil_append]
  | turn hstep hes hbefore hafter => rw [hes, hbefore, hafter, edge_eq_nil hstep]
  | @speak a l rest _ _ hes htodo hl hafter =>
      have hnothing : unsaid v l = [] :=
        List.filterMap_eq_nil_iff.2 fun b hb => (hl b hb).2 v
      rw [hes, htodo, hafter, unsaid_append, hnothing, List.nil_append, unsaid_cons,
        edge_eq_nil (s := .run .main) rfl, List.append_nil]
  | @rebalance members htodo hpoint =>
      have hruling : c.ruling? (.answer .main (.ok members)) =
          some (isTooFew c.cluster members) := by
        rw [ruling?, show c.decision? (.answer .main (.ok members)) = some (.rebalance members)
          from if_pos hpoint]
        rfl
      have hafter : unsaid v (c.onRebalance (.ok members)).main.todo =
          unsaid v (rebalanceActions c.cluster c.slot c.suspended members) := by
        show unsaid v (_ ++ [.unlock, .settle]) = _
        rw [unsaid_append, show unsaid v [.unlock, .settle] = [] by cases v <;> rfl,
          List.append_nil]
      have houtlook : c.outlook = c.standing :=
        outlook_of_finished (by rw [htodo]; rfl)
          (delayed_finished hd (Or.inl (hd.owner_of_rebalancing hpoint htodo)))
      rw [hafter, unsaid_rebalanceActions, htodo, edge, hruling, houtlook]
      rfl

/-- Whatever is left to tell is followed by the publication of what was decided. -/
def Concluding (l : List Action) : Prop :=
  (∀ v, unsaid v l = []) ∨
    ∃ xs u, (∀ a ∈ xs, a.isOrdinary = true) ∧ l = xs ++ [.publish u, .unlock, .settle]

/-- Once all is written, nothing is left to tell. -/
theorem Concluding.unsaid_eq_nil {l : List Action} (h : Concluding l)
    (hfinished : unfinished l = false) (v : Voice) : unsaid v l = [] := by
  rcases h with hnothing | ⟨xs, u, hxs, rfl⟩
  · exact hnothing v
  · exfalso
    induction xs with
    | nil => cases hfinished
    | cons a xs ih =>
        have ha := Action.ne_acquire_of_isOrdinary (hxs a List.mem_cons_self)
        rw [List.cons_append, unfinished_cons ha, Bool.or_eq_false_iff] at hfinished
        exact ih (fun b hb => hxs b (List.mem_cons_of_mem _ hb)) hfinished.2

/-- What is left to tell goes on to be followed by the publication of what was decided. -/
theorem Speaks.concluding {s : Step} {es : List Effect} (h : Speaks c s c' es)
    (hbefore : Concluding c.main.todo) : Concluding c'.main.todo := by
  cases h with
  | quiet _ _ htodo => rwa [htodo]
  | turn _ _ _ hafter => exact Or.inl hafter
  | @speak a l rest _ _ _ htodo hl hafter =>
      have hnothing : ∀ v, unsaid v l = [] :=
        fun v => List.filterMap_eq_nil_iff.2 fun b hb => (hl b hb).2 v
      rw [htodo] at hbefore
      rw [hafter]
      rcases hbefore with hsilent | ⟨xs, u, hxs, htail⟩
      · left
        intro v
        have hrest := hsilent v
        rw [unsaid_cons, List.append_eq_nil_iff] at hrest
        rw [unsaid_append, hnothing, hrest.2]
        rfl
      · cases xs with
        | nil =>
            left
            intro v
            rw [unsaid_append, hnothing, (List.cons.inj htail).2]
            cases v <;> rfl
        | cons x xs =>
            refine Or.inr ⟨l ++ xs, u, ?_, ?_⟩
            · intro b hb
              rcases List.mem_append.1 hb with hb | hb
              · exact (hl b hb).1
              · exact hxs b (List.mem_cons_of_mem _ hb)
            · rw [(List.cons.inj htail).2, List.append_assoc]
              rfl
  | @rebalance members _ _ =>
      have hshape : ∃ xs u, rebalanceActions c.cluster c.slot c.suspended members =
          xs ++ [.publish u] :=
        ⟨_ ++ [_, _], _, (List.append_assoc _ [_, _] [_]).symm⟩
      obtain ⟨xs, u, hxs⟩ := hshape
      refine Or.inr ⟨xs, u, fun a ha => ?_, ?_⟩
      · have hmem : a ∈ rebalanceActions c.cluster c.slot c.suspended members := by
          rw [hxs]
          exact List.mem_append_left _ ha
        exact isOrdinary_of_mem_rebalanceActions hmem
      · show rebalanceActions c.cluster c.slot c.suspended members ++ [.unlock, .settle] = _
        rw [hxs, List.append_assoc]
        rfl

end Coordinator

/-! ### The phase goes with the flag -/

namespace Standing

variable (cluster : ClusterConfig) (slot : Nat) (members : List Member) (s : Standing)

/-- Collection is suspended by a decision exactly if there are too few members. -/
theorem suspended_rebalanced :
    (s.rebalanced cluster slot members).suspended = isTooFew cluster members := by
  rw [rebalanced_eq, isTooFew]
  by_cases henough : cluster.minimumShards ≤ healthyCount members
  · rw [decide_eq_false (Nat.not_lt.2 henough)]
    simp [publish, henough]
  · rw [decide_eq_true (Nat.not_le.1 henough)]
    simp [publish, henough]

/-- A decision publishes the phase that the members call for. -/
theorem phase_rebalanced : (s.rebalanced cluster slot members).status.phase =
    decidedPhase (SlotMap.ofMembers cluster.numberOfNodes members) (healthyCount members)
      cluster.minimumShards := by
  rw [rebalanced_eq]
  rfl

end Standing

namespace Picture

variable {cluster : ClusterConfig} {v v' : Picture} {s : Step} {d : Option Decision}

/-- The published phase says that collection is suspended exactly if the flag is up, and before the
steady loop it is down. -/
structure Frank (v : Picture) : Prop where
  phase : v.stage ≠ .gone → (v.outlook.status.phase = .suspended ↔ v.outlook.suspended = true)
  awake : v.stage = .seeking ∨ v.stage = .gated → v.outlook.suspended = false

/-- Only a decision of the steady loop changes the flag. -/
theorem suspended_of_turn (hturn : Turn cluster v s d v') :
    v'.outlook.suspended =
      (d.bind (Decision.ruling? cluster)).getD v.outlook.suspended := by
  cases hturn with
  | rebalance => exact Standing.suspended_rebalanced _ _ _ _
  | takeOver _ _ hfailed henough =>
      rw [Standing.takenOver_eq hfailed henough]
      rfl
  | _ => rfl

/-- **Turns keep the phase with the flag.** -/
theorem frank_of_turn (hturn : Turn cluster v s d v') (h : v.Frank) : v'.Frank := by
  obtain ⟨hphase, hawake⟩ := h
  -- A phase of its own is published only while the flag is down.
  have hother : ∀ {g : Stage} {slot : Nat} {o : Standing}, o.status.phase ≠ .suspended →
      o.suspended = false → Frank ⟨g, slot, o⟩ := by
    intro g slot o hp ho
    refine ⟨fun _ => ?_, fun _ => ho⟩
    rw [ho]
    exact ⟨fun heq => absurd heq hp, nofun⟩
  cases hturn with
  | quiet => exact ⟨hphase, hawake⟩
  | adopt => exact hother nofun (hawake (Or.inl rfl))
  | wait => exact ⟨hphase, hawake⟩
  | settle => exact hother nofun (hawake (Or.inr rfl))
  | enter => exact hother nofun (hawake (Or.inr rfl))
  | fail => exact ⟨hphase, hawake⟩
  | @rebalance slot o members =>
      refine ⟨fun _ => ?_, fun hg => by rcases hg with hg | hg <;> cases hg⟩
      show (o.rebalanced cluster slot members).status.phase = _ ↔
        (o.rebalanced cluster slot members).suspended = _
      rw [Standing.suspended_rebalanced, Standing.phase_rebalanced,
        decidedPhase_eq_suspended_iff, isTooFew, decide_eq_true_iff]
  | takeOver _ hsuspended hfailed henough =>
      refine hother ?_ ?_ <;> rw [Standing.takenOver_eq hfailed henough]
      · nofun
      · exact hsuspended
  | halt => exact ⟨fun _ => hphase nofun, fun hg => by rcases hg with hg | hg <;> cases hg⟩
  | leave hg =>
      refine ⟨fun _ => hphase ?_, fun hg => by rcases hg with hg | hg <;> cases hg⟩
      rcases hg with rfl | rfl | rfl <;> nofun
  | release => exact ⟨fun hg => absurd rfl hg, fun hg => by rcases hg with hg | hg <;> cases hg⟩

end Picture

namespace Coordinator

variable {c c' : Coordinator}

/-- The delayed strand does nothing to the suspension, and writes only while nothing is
suspended. -/
structure Meek (c : Coordinator) : Prop where
  tame : ∀ a ∈ c.delayed.todo, a.isTame = true
  awake : unfinished c.delayed.todo = true → c.suspended = false ∧ c.status.phase ≠ .suspended

/-- Without anything to write, being tame is enough. -/
theorem Meek.of_finished (htame : ∀ a ∈ c.delayed.todo, a.isTame = true)
    (hfinished : unfinished c.delayed.todo = false) : Meek c :=
  ⟨htame, fun h => nomatch hfinished.symm.trans h⟩

/-- With the delayed strand, the flag and the status as they were, it stays so. -/
theorem Meek.same (h : Meek c) (hdelayed : c'.delayed = c.delayed)
    (hstanding : unfinished c.delayed.todo = true → c'.standing = c.standing) : Meek c' := by
  refine ⟨hdelayed ▸ h.tame, fun hleft => ?_⟩
  rw [hdelayed] at hleft
  have hsame := hstanding hleft
  rw [show c'.suspended = c.suspended from congrArg Standing.suspended hsame,
    show c'.status = c.status from congrArg Standing.status hsame]
  exact h.awake hleft

/-- While the delayed strand has something left to write, the main strand has not. -/
theorem main_finished_of_unfinished (h : c.work.Disciplined)
    (hdelayed : unfinished c.delayed.todo = true) : unfinished c.main.todo = false := by
  have hborn : c.delayed.point ≠ .unborn := by
    intro hborn
    rw [show c.delayed.todo = [] from h.unborn hborn] at hdelayed
    cases hdelayed
  refine main_finished h ?_ hborn
  by_contra hfree
  exact nomatch hdelayed.symm.trans (h.delayed.finished hfree fun ht => nomatch ht)

/-- While the delayed strand has something left to write, the main strand changes neither filters
nor the flag nor the status. -/
theorem standing_exec_main_of_unfinished (h : c.work.Disciplined)
    (hdelayed : unfinished c.delayed.todo = true) {a : Action} {rest : List Action}
    (htodo : c.main.todo = a :: rest) :
    (exec .main a (c.setTodo .main rest)).1.standing = c.standing := by
  have hmain : unfinished c.main.todo = false := main_finished_of_unfinished h hdelayed
  have hwrite : a.isWrite = false := by
    by_cases hacquire : a = .acquire
    · rw [hacquire]
      rfl
    · rw [htodo, unfinished_cons hacquire, Bool.or_eq_false_iff] at hmain
      exact hmain.1
  rw [standing_exec .main (by rintro rfl; cases hwrite), Standing.write_of_not_isWrite _ hwrite]
  rfl

/-- What the delayed strand does next leaves it meek. -/
theorem Meek.exec_delayed (hmeek : Meek c) (h : c.work.Disciplined) {a : Action}
    {rest : List Action} (htodo : c.delayed.todo = a :: rest) :
    Meek (exec .delayed a (c.setTodo .delayed rest)).1 := by
  obtain ⟨htame, hawake⟩ := hmeek
  rw [htodo] at htame hawake
  have hdelayed : Orderly .delayed (c.owner = some .delayed) c.main.point c.delayed.point
      (a :: rest) := htodo ▸ h.delayed
  have ha : a.isTame = true := htame a List.mem_cons_self
  have hrest : ∀ b ∈ rest, b.isTame = true := fun b hb => htame b (List.mem_cons_of_mem _ hb)
  have hleft : a ≠ .acquire → unfinished rest = true →
      c.suspended = false ∧ c.status.phase ≠ .suspended := by
    intro hacquire hmore
    refine hawake ?_
    rw [unfinished_cons hacquire, hmore, Bool.or_true]
  cases a with
  | acquire =>
      rcases hdelayed with ⟨ht, -⟩ | ⟨-, -, rfl⟩ | ⟨ht, -⟩
      · cases ht
      · exact .of_finished hrest rfl
      · cases ht
  | unlock =>
      rcases hdelayed with ⟨-, ⟨ht, -⟩ | ⟨-, -, rfl⟩ | ⟨ht, -⟩⟩
      · cases ht
      · refine .of_finished ?_ ?_ <;> simp only [exec, handOver_eq]
        · exact hrest
        · rfl
      · cases ht
  | look =>
      obtain ⟨-, -, -, rfl⟩ := hdelayed
      simp only [exec]
      split
      · exact .of_finished (by simp [goDelayed, Action.isTame]) rfl
      · exact .of_finished hrest rfl
  | installExtra | report | measure | requestRefresh | sleep =>
      exact ⟨hrest, hleft (by rintro ⟨⟩)⟩
  | publish u =>
      cases u with
      | discoveryFailed => exact ⟨hrest, hleft (by rintro ⟨⟩)⟩
      | decided p healthy failed =>
          exact ⟨hrest, fun hmore => ⟨(hleft (by rintro ⟨⟩) hmore).1, bne_iff_ne.1 ha⟩⟩
      | _ => cases ha
  | _ => cases ha

/-- **The delayed strand stays meek.**  It asks only while nothing is suspended, and then nobody
else writes until it has written what followed. -/
theorem meek_of_moves {s : Step} {es : List Effect} (h : c.work.Disciplined)
    (hfrank : c.picture.Frank) (hmeek : Meek c) (hm : Moves c s c' es) : Meek c' := by
  cases hm with
  | @act t a rest htodo _ =>
      cases t with
      | main =>
          by_cases hspawn : a = .spawnDelayed
          · subst hspawn
            exact .of_finished (by simp [exec, goDelayed, Action.isTame]) rfl
          · exact hmeek.same (delayed_exec_main h htodo hspawn)
              fun hleft => standing_exec_main_of_unfinished h hleft htodo
      | delayed => exact hmeek.exec_delayed h htodo
  | registration =>
      obtain ⟨slot, p, l, hgo⟩ := exists_onRegistration_eq c _ _
      rw [hgo]
      exact hmeek.same rfl fun _ => rfl
  | warmup =>
      obtain ⟨p, l, hgo⟩ := exists_onWarmup_eq c _
      rw [hgo]
      exact hmeek.same rfl fun _ => rfl
  | @rebalance a _ _ => cases a <;> exact hmeek.same rfl fun _ => rfl
  | @check a htodo hpoint =>
      have hborn : c.delayed.point ≠ .unborn := by
        rw [hpoint]
        rintro ⟨⟩
      have hmain : unfinished c.main.todo = false :=
        main_finished h (h.owner_of_checking hpoint htodo) hborn
      have houtlook : c.outlook = c.standing := outlook_of_finished hmain (by rw [htodo]; rfl)
      have hawake : c.suspended = false := h.looked hpoint htodo
      have hphase : c.status.phase ≠ .suspended := by
        intro hp
        have hstage : c.stage ≠ .gone := by
          rcases stage_of_alive h hborn (by rw [hpoint]; rintro ⟨⟩) with hg | hg <;>
            rw [hg] <;> rintro ⟨⟩
        have hflag := hfrank.phase hstage
        rw [show c.picture.outlook = c.standing from houtlook] at hflag
        cases hawake.symm.trans (hflag.1 hp)
      cases a with
      | error e =>
          refine ⟨?_, fun _ => ⟨hawake, hphase⟩⟩
          simp [onDelayed, goDelayed, Action.isTame, queryFailed, Measurement.suspends?,
            Event.edge?]
      | ok members =>
          refine ⟨?_, fun _ => ⟨hawake, hphase⟩⟩
          simp only [onDelayed, goDelayed, delayedActions, takeoverActions]
          grind [Action.isTame, Measurement.suspends?, Event.edge?]
  | wakeDelayed => exact .of_finished (by simp [goDelayed, Action.isTame]) rfl
  | stopDelayed => exact .of_finished (List.forall_mem_nil _) rfl
  | cut =>
      obtain ⟨owner, queue, hcut⟩ := exists_cutDelayed_eq c
      rw [hcut]
      exact .of_finished (List.forall_mem_nil _) rfl
  | _ => exact hmeek.same rfl fun _ => rfl

end Coordinator

/-- What is tame leaves the flag alone. -/
theorem Standing.suspended_carryOut_of_tame {slot nodes : Nat} {l : List Action}
    (hl : ∀ a ∈ l, a.isTame = true) (s : Standing) :
    (s.carryOut slot nodes l).suspended = s.suspended := by
  induction l generalizing s with
  | nil => rfl
  | cons a l ih =>
      have ha : a.isTame = true := hl a List.mem_cons_self
      by_cases hacquire : a = .acquire
      · rw [hacquire, carryOut_acquire]
      · rw [carryOut_cons s hacquire, ih fun b hb => hl b (List.mem_cons_of_mem _ hb)]
        cases a with
        | setSuspended => cases ha
        | _ => rfl

/-- A place that differs from the last one prolongs an alternation, and is the last one then. -/
theorem Alternates.append {l : List Bool} {last on : Bool} (h : Alternates l)
    (hlast : l.getLastD false = last) :
    Alternates (l ++ if last = on then [] else [on]) ∧
      (l ++ if last = on then [] else [on]).getLastD false = on := by
  by_cases hsame : last = on
  · rw [if_pos hsame, List.append_nil]
    exact ⟨h, hlast.trans hsame⟩
  · rw [if_neg hsame]
    refine ⟨List.IsChain.append h (.singleton _) ?_, List.getLastD_concat⟩
    intro x hx y hy
    rw [List.getLast?_cons, ← List.getLastD_eq_getLast?, hlast, Option.mem_some_iff] at hx
    rw [List.head?_cons, Option.mem_some_iff] at hy
    rwa [← hx, ← hy]

/-- What alternates has alternated all along. -/
theorem Alternates.of_append {l l' : List Bool} (h : Alternates (l ++ l')) : Alternates l :=
  List.IsChain.left_of_append h

namespace Coordinator

variable {c c' : Coordinator}

/-- What is foretold of the suspension alternates and ends where the flag will be, in both ways of
telling it. -/
structure Voiced (log : List Moment) (c : Coordinator) : Prop where
  frank : c.picture.Frank
  meek : Meek c
  concluding : Concluding c.main.todo
  same : c.foretold .gauge log = c.foretold .event log
  alternates : Alternates (c.foretold .event log)
  last : (c.foretold .event log).getLastD false = c.outlook.suspended
  early : c.main.point.isEarly = true → c.foretold .event log = []

/-- Cut off with something left to write, the delayed strand leaves the flag and the phase down. -/
theorem frank_cutDelayed (h : c.work.Disciplined) (hmeek : Meek c) (hcut : c.mayCut = true)
    (hleft : unfinished c.delayed.todo = true) :
    c.cutDelayed.picture.Frank ∧ c.cutDelayed.outlook.suspended = c.outlook.suspended := by
  have hmain : unfinished c.main.todo = false := main_finished_of_unfinished h hleft
  have hstage : c.cutDelayed.stage = .stopping := stage_of_cut h hcut
  have houtlook : c.cutDelayed.outlook = c.standing := by
    obtain ⟨owner, queue, hafter⟩ := exists_cutDelayed_eq c
    rw [hafter]
    exact outlook_of_finished hmain rfl
  obtain ⟨hawake, hphase⟩ := hmeek.awake hleft
  refine ⟨⟨fun _ => ?_, fun hg => ?_⟩, ?_⟩
  · rw [show c.cutDelayed.picture.outlook = c.standing from houtlook]
    exact ⟨fun hp => absurd hp hphase, fun hs => nomatch hawake.symm.trans hs⟩
  · rw [show c.cutDelayed.picture.stage = .stopping from hstage] at hg
    rcases hg with hg | hg <;> cases hg
  · rw [houtlook, outlook, Standing.carryOut_of_finished _ hmain,
      Standing.suspended_carryOut_of_tame hmeek.tame]

/-- Every move keeps the phase with the flag, and the flag where it was unless it is decided on. -/
theorem frank_of_moves {s : Step} {es : List Effect} (h : c.work.Disciplined)
    (hfrank : c.picture.Frank) (hmeek : Meek c) (hm : Moves c s c' es) :
    c'.picture.Frank ∧ c'.outlook.suspended = (c.ruling? s).getD c.outlook.suspended := by
  by_cases hint : c.interrupts s = true
  · cases hm with
    | cut hcut => exact frank_cutDelayed h hmeek hcut hint
    | _ => cases hint
  · have hturn := turn_of_moves h hm (Bool.eq_false_iff.2 hint)
    exact ⟨Picture.frank_of_turn hturn hfrank, Picture.suspended_of_turn hturn⟩

/-- **Every move leaves the suspension as it was foretold.** -/
theorem voiced_of_moves {log : List Moment} {s : Step} {es : List Effect}
    (h : c.work.Disciplined) (hv : Voiced log c) (hm : Moves c s c' es) :
    Voiced (⟨c, s, es⟩ :: log) c' := by
  obtain ⟨hfrank, hmeek, hconcluding, hsame, halternates, hlast, hearly⟩ := hv
  have hspeaks : Speaks c s c' es := speaks_of_moves h hmeek.tame hm
  obtain ⟨hfrank', hsuspended⟩ := frank_of_moves h hfrank hmeek hm
  have hgrows := fun v => hspeaks.foretold_eq h v log
  have hgrown : Alternates (c'.foretold .event (⟨c, s, es⟩ :: log)) ∧
      (c'.foretold .event (⟨c, s, es⟩ :: log)).getLastD false = c'.outlook.suspended := by
    rw [hgrows, hsuspended, edge]
    cases c.ruling? s with
    | none =>
        rw [List.append_nil]
        exact ⟨halternates, hlast⟩
    | some on => exact halternates.append hlast
  refine ⟨hfrank', meek_of_moves h hfrank hmeek hm, hspeaks.concluding hconcluding, ?_, hgrown.1,
    hgrown.2, ?_⟩
  · rw [hgrows, hgrows, hsame]
  · intro hearly'
    have hbefore : c.main.point.isEarly = true := early_of_moves hm hearly'
    have hpoint : c.main.point ≠ .rebalancing := by
      intro hp
      rw [hp] at hbefore
      cases hbefore
    rw [hgrows, hearly hbefore, edge_eq_nil (ruling?_eq_none hpoint s)]
    rfl

section Started

variable {cluster : ClusterConfig} {timers : TimerConfig} {devices : List Device}
  {updates changes : Signal} {clock : Nat} {log : List Moment}

/-- **What is foretold of the suspension alternates throughout a run**, and ends where the flag will
be. -/
theorem voiced_of_run (hrun : Run (start cluster timers devices updates changes clock) log c) :
    Voiced log c := by
  induction hrun with
  | start =>
      refine ⟨⟨fun _ => ⟨nofun, nofun⟩, fun _ => rfl⟩, .of_finished nofun rfl, Or.inl ?_, rfl,
        .singleton _, rfl, fun _ => rfl⟩
      intro v
      cases v <;> rfl
  | step hrun hstep ih =>
      exact voiced_of_moves (disciplined_of_run hrun (disciplined_start ..)) ih
        (moves_of_step? hstep)

/-- The series that a log leads to. -/
def measured (log : List Moment) : Metrics :=
  Metrics.empty.recordAll ((history log).filterMap Effect.measured?)

/-- The gauge shows what was told last. -/
theorem get?_suspended_measured (log : List Moment) :
    (measured log).gauges.get? Metrics.suspended =
      (said .gauge log).getLast?.map fun on => if on then 1 else 0 := by
  have hsaid : ((history log).filterMap Effect.measured?).filterMap Measurement.suspends? =
      said .gauge log := by
    rw [said, List.filterMap_filterMap]
    refine List.filterMap_congr fun e _ => ?_
    cases e <;> rfl
  rw [measured, Metrics.get?_suspended_recordAll, hsaid]
  exact Option.or_none

/-- **Suspension is told on its edges.**  In every run of a coordinator the events of suspension and
resumption alternate, the first one being of a suspension.  While no decision is in progress, the
published phase says that collection is suspended exactly if the last event does, until all is
released, and the gauge shows what the last event says, and nothing before the first. -/
theorem suspension_is_told_on_edges
    (hrun : Run (start cluster timers devices updates changes clock) log c) :
    Alternates (said .event log) ∧
      (c.isDeciding = false →
        (c.status.phase ≠ .stopped →
          (c.status.phase = .suspended ↔ (said .event log).getLast? = some true)) ∧
        (measured log).gauges.get? Metrics.suspended =
          (said .event log).getLast?.map fun on => if on then 1 else 0) := by
  obtain ⟨hfrank, -, hconcluding, hsame, halternates, hlast, hsilent⟩ := voiced_of_run hrun
  refine ⟨halternates.of_append, fun hidle => ?_⟩
  rw [get?_suspended_measured]
  cases hearly : c.main.point.isEarly with
  | true =>
      have hnone : said .event log = [] := (List.append_eq_nil_iff.1 (hsilent hearly)).1
      have hnone' : said .gauge log = [] :=
        (List.append_eq_nil_iff.1 (hsame.trans (hsilent hearly))).1
      rw [hnone, hnone']
      refine ⟨fun _ => ⟨fun hp => ?_, nofun⟩, rfl⟩
      rcases (gathering_of_run hrun hearly).phase with h | h | h <;> cases h.symm.trans hp
  | false =>
      rw [isDeciding, hearly, Bool.not_false, Bool.true_and, Bool.or_eq_false_iff] at hidle
      obtain ⟨hmain, hdelayed⟩ := hidle
      have hall : ∀ v, c.foretold v log = said v log := by
        intro v
        rw [foretold, hconcluding.unsaid_eq_nil hmain, List.append_nil]
      have houtlook : c.outlook = c.standing := outlook_of_finished hmain hdelayed
      rw [hall, hall] at hsame
      rw [hall, houtlook] at hlast
      rw [hsame]
      refine ⟨fun hheld => ?_, rfl⟩
      have hstage : c.stage ≠ .gone := by
        intro hgone
        obtain ⟨-, -, hat⟩ := (accords_of_run hrun).1 (Or.inr hgone)
        rw [show c.picture.stage = .gone from hgone,
          show c.picture.outlook = c.standing from houtlook] at hat
        exact hheld hat.2
      have hflag := hfrank.phase hstage
      rw [show c.picture.outlook = c.standing from houtlook] at hflag
      rw [show c.status.phase = .suspended ↔ c.suspended = true from hflag,
        show c.suspended = _ from hlast.symm, List.getLastD_eq_getLast?]
      cases (said .event log).getLast? with
      | none => simp
      | some on => simp

/-- The next tick decides on a list of members. -/
def redecisionSteps (clock : Nat) (suspended : Bool) (members : List Member) : List Step :=
  [.change, .hear, .pass clock, .tick] ++ List.replicate 2 (.run .main) ++
    [.answer .main (.ok members)] ++
    List.replicate ((rebalanceActions bothOfTwo 0 suspended members).length + 2) (.run .main)

/-- With the other of two nodes failed, back, failed and failed still, collection is suspended,
resumed and suspended again, and the last decision tells nothing. -/
theorem suspension_is_told_on_edges_of_two :
    ∃ log c, Run (start bothOfTwo {} devicesOfTwo (.ofCapacity 1) (.ofCapacity 1) 0) log c ∧
      said .event log = [true, false, true] ∧ c.status.phase = .suspended ∧
      (measured log).gauges.get? Metrics.suspended = some 1 := by
  obtain ⟨log, c, hrun, hcheck⟩ := exists_run_of_follow
    (start bothOfTwo {} devicesOfTwo (.ofCapacity 1) (.ofCapacity 1) 0)
    (decisionSteps (membersOfTwo .critical) ++
      redecisionSteps 95000000000 true (membersOfTwo .passing) ++
      redecisionSteps 125000000000 false (membersOfTwo .critical) ++
      redecisionSteps 155000000000 true (membersOfTwo .critical))
    (fun log c => said .event log == [true, false, true] && !c.isDeciding &&
      c.status.phase != .stopped)
    (by decide +kernel)
  simp only [Bool.and_eq_true, beq_iff_eq, Bool.not_eq_true', bne_iff_ne] at hcheck
  obtain ⟨⟨hsaid, hidle⟩, hheld⟩ := hcheck
  obtain ⟨hphase, hgauge⟩ := (suspension_is_told_on_edges hrun).2 hidle
  rw [hsaid] at hphase hgauge
  exact ⟨log, c, hrun, hsaid, (hphase hheld).2 rfl, hgauge⟩

end Started

end Coordinator

end FleetSharding
