import FleetSharding.Proofs.Coordinator.Outlook

/-!
# The turns of a coordinator

Seen through its outlook a coordinator is a small machine.  It is at a stage of its life, has
adopted a slot, and its filters, flag and status are those of the last thing it decided.  Almost all
steps leave this picture alone; the others are the turns below.

* `Turn`: the turns, with all that must be so before each.
* `turn_of_moves`: every move of a coordinator that keeps to the discipline is a turn, unless the
  delayed strand is cut off with something left to write.
-/

namespace FleetSharding

/-- Where a coordinator is in its life. -/
inductive Stage where
  /-- Looking for itself among the members. -/
  | seeking
  /-- A slot is adopted; the gates before collecting have not passed. -/
  | gated
  /-- Decisions are made. -/
  | aloft
  /-- No more ticks are waited for, but the delayed strand may still decide. -/
  | stopping
  /-- About to take the ownership for the release. -/
  | leaving
  | gone
  deriving DecidableEq, Repr

def Action.isAcquire : Action → Bool
  | .acquire => true
  | _ => false

/-- The stage at a point, with work to do before. -/
def Stage.ofPoint (p : MainPoint) (todo : List Action) : Stage :=
  match p with
  | .registering _ | .retrying _ => .seeking
  | .warming | .waiting | .settling => .gated
  | .steady | .rebalancing | .ended .crashed => .aloft
  | .stopping => .stopping
  | .releasing => if todo.any Action.isAcquire then .leaving else .gone
  | .ended _ => .gone

/-- Only taking the ownership makes a difference to the stage. -/
theorem Stage.ofPoint_cons {p : MainPoint} {a : Action} (ha : a ≠ .acquire)
    (rest : List Action) : ofPoint p (a :: rest) = ofPoint p rest := by
  have hnot : a.isAcquire = false := by
    cases a <;> first | rfl | exact absurd rfl ha
  cases p <;> simp [ofPoint, hnot]

/-- A decision on a list of members that leads to a write. -/
inductive Decision where
  | rebalance (members : List Member)
  | takeover (members : List Member)
  deriving DecidableEq

/-- The members that a decision is based on. -/
def Decision.members : Decision → List Member
  | .rebalance members | .takeover members => members

namespace Standing

/-- The main shard goes in. -/
def entered (slot nodes : Nat) (s : Standing) : Standing :=
  (s.write slot nodes .installMain).publish (.phase .steady)

/-- Everything is removed for good. -/
def released (slot nodes : Nat) (s : Standing) : Standing :=
  (s.write slot nodes .dropMain).publish (.phase .stopped)

/-- The steady loop decides anew on a list of members. -/
def rebalanced (cluster : ClusterConfig) (slot : Nat) (members : List Member) (s : Standing) :
    Standing :=
  s.carryOut slot cluster.numberOfNodes (rebalanceActions cluster slot s.suspended members)

/-- The delayed strand takes over what it found failed. -/
def takenOver (cluster : ClusterConfig) (slot : Nat) (members : List Member) (s : Standing) :
    Standing :=
  s.carryOut slot cluster.numberOfNodes (delayedActions cluster slot members)

end Standing

/-- A coordinator as the small machine shows it. -/
structure Picture where
  stage : Stage
  slot : Nat
  outlook : Standing

/-- The turns of the small machine: the step that makes each, and the decision made in it. -/
inductive Turn (cluster : ClusterConfig) :
    Picture → Step → Option Decision → Picture → Prop
  | quiet {v : Picture} {s : Step} : Turn cluster v s none v
  /-- The coordinator finds itself among the members. -/
  | adopt {slot₀ slot : Nat} {o : Standing} {members : List Member}
      (hown : ownSlot? cluster members = some slot) :
      Turn cluster ⟨.seeking, slot₀, o⟩ (.answer .main (.ok members)) none
        ⟨.gated, slot, o.publish (.registered slot)⟩
  /-- Too few members are healthy yet. -/
  | wait {slot : Nat} {o : Standing} {members : List Member} :
      Turn cluster ⟨.gated, slot, o⟩ (.answer .main (.ok members)) none
        ⟨.gated, slot, o.publish (.warmth (healthyCount members))⟩
  | settle {slot : Nat} {o : Standing} {members : List Member}
      (henough : cluster.initializingShards ≤ healthyCount members) :
      Turn cluster ⟨.gated, slot, o⟩ (.answer .main (.ok members)) none
        ⟨.gated, slot, (o.publish (.warmth (healthyCount members))).publish (.phase .settling)⟩
  | enter {slot : Nat} {o : Standing} :
      Turn cluster ⟨.gated, slot, o⟩ (.wake .main) none
        ⟨.aloft, slot, o.entered slot cluster.numberOfNodes⟩
  /-- A query of one of the strands fails. -/
  | fail {g : Stage} {slot : Nat} {o : Standing} {t : Task} {e : DiscoveryError}
      (hstage : g = .gated ∨ g = .aloft ∨ g = .stopping) :
      Turn cluster ⟨g, slot, o⟩ (.answer t (.error e)) none ⟨g, slot, o.publish .discoveryFailed⟩
  | rebalance {slot : Nat} {o : Standing} {members : List Member} :
      Turn cluster ⟨.aloft, slot, o⟩ (.answer .main (.ok members)) (some (.rebalance members))
        ⟨.aloft, slot, o.rebalanced cluster slot members⟩
  | takeOver {g : Stage} {slot : Nat} {o : Standing} {members : List Member}
      (hstage : g = .aloft ∨ g = .stopping) (hawake : o.suspended = false)
      (hfailed : (SlotMap.ofMembers cluster.numberOfNodes members).allPassing = false)
      (henough : cluster.minimumShards ≤ healthyCount members) :
      Turn cluster ⟨g, slot, o⟩ (.answer .delayed (.ok members)) (some (.takeover members))
        ⟨g, slot, o.takenOver cluster slot members⟩
  | halt {slot : Nat} {o : Standing} :
      Turn cluster ⟨.aloft, slot, o⟩ (.stop .main) none ⟨.stopping, slot, o⟩
  | leave {g : Stage} {slot : Nat} {o : Standing} {s : Step}
      (hstage : g = .seeking ∨ g = .gated ∨ g = .stopping) :
      Turn cluster ⟨g, slot, o⟩ s none ⟨.leaving, slot, o⟩
  | release {slot : Nat} {o : Standing} :
      Turn cluster ⟨.leaving, slot, o⟩ (.run .main) none
        ⟨.gone, slot, o.released slot cluster.numberOfNodes⟩

namespace Coordinator

variable {c c' : Coordinator}

def stage (c : Coordinator) : Stage := .ofPoint c.main.point c.main.todo

def picture (c : Coordinator) : Picture := ⟨c.stage, c.slot, c.outlook⟩

/-- The decision that a step makes; one that leads to no write is none. -/
def decision? (c : Coordinator) : Step → Option Decision
  | .answer .main (.ok members) =>
    if c.main.point = .rebalancing then some (.rebalance members) else none
  | .answer .delayed (.ok members) =>
    if (SlotMap.ofMembers c.cluster.numberOfNodes members).allPassing ∨
        healthyCount members < c.cluster.minimumShards then none
    else some (.takeover members)
  | _ => none

/-- Before the steady loop an answer to the main strand decides nothing. -/
theorem decision?_eq_none (hpoint : c.main.point ≠ .rebalancing) {a : Answer} :
    c.decision? (.answer .main a) = none := by
  cases a with
  | ok members => exact if_neg hpoint
  | error e => rfl

/-- Whether a step cuts a decision short. -/
def interrupts (c : Coordinator) : Step → Bool
  | .cut => unfinished c.delayed.todo
  | _ => false

/-- What changes nothing that counts is quiet. -/
theorem quiet_of_eq {s : Step} (h : c'.picture = c.picture) :
    Turn c.cluster c.picture s none c'.picture := by
  rw [h]
  exact .quiet

/-- What was begun is all done: the picture shows what there is. -/
theorem picture_of_idle (htodo : c.main.todo = []) (hdelayed : unfinished c.delayed.todo = false) :
    c.picture = ⟨.ofPoint c.main.point [], c.slot, c.standing⟩ := by
  rw [picture, stage, outlook_eq_main hdelayed, htodo]
  rfl

/-- The main strand begins something while the delayed strand has nothing to write. -/
theorem picture_goMain (hdelayed : unfinished c.delayed.todo = false) (p : MainPoint)
    (l : List Action) :
    (c.goMain p l).picture =
      ⟨.ofPoint p l, c.slot, c.standing.carryOut c.slot c.cluster.numberOfNodes l⟩ := by
  rw [picture, outlook_eq_main (by exact hdelayed)]
  rfl

/-- The main strand begins something without writes. -/
theorem picture_goMain_of_finished (htodo : c.main.todo = []) {p : MainPoint} {l : List Action}
    (hl : unfinished l = false) :
    (c.goMain p l).picture = ⟨.ofPoint p l, c.slot, c.outlook⟩ := by
  have houtlook : (c.goMain p l).outlook = c.outlook := by
    simp only [outlook, goMain, htodo, Standing.carryOut_of_finished _ hl]
    rfl
  rw [picture, houtlook]
  rfl

/-- The delayed strand begins something while the main strand has nothing to write. -/
theorem picture_goDelayed (hmain : unfinished c.main.todo = false) (q : DelayedPoint)
    (l : List Action) :
    (c.goDelayed q l).picture =
      ⟨c.stage, c.slot, c.standing.carryOut c.slot c.cluster.numberOfNodes l⟩ := by
  have houtlook : (c.goDelayed q l).outlook =
      c.standing.carryOut c.slot c.cluster.numberOfNodes l := by
    simp only [outlook, goDelayed, Standing.carryOut_of_finished _ hmain]
    rfl
  rw [picture, houtlook]
  rfl

/-- The delayed strand begins something without writes, and had none left. -/
theorem picture_goDelayed_of_finished {q : DelayedPoint} {l : List Action}
    (hdelayed : unfinished c.delayed.todo = false) (hl : unfinished l = false) :
    (c.goDelayed q l).picture = c.picture := by
  have houtlook : (c.goDelayed q l).outlook = c.outlook := by
    simp only [outlook, goDelayed, Standing.carryOut_of_finished _ hdelayed,
      Standing.carryOut_of_finished _ hl]
    rfl
  rw [picture, houtlook]
  rfl

/-- No action adopts a slot. -/
theorem slot_exec (t : Task) (a : Action) (c : Coordinator) : (exec t a c).1.slot = c.slot := by
  cases a <;> cases t <;> simp only [exec, handOver_eq] <;> (try split) <;> rfl

/-- What the main strand does leaves the stage alone, up to where it takes the ownership. -/
theorem stage_exec_main (h : c.work.Disciplined) {a : Action} {rest : List Action}
    (htodo : c.main.todo = a :: rest) (ha : a ≠ .acquire) :
    (exec .main a (c.setTodo .main rest)).1.stage = c.stage := by
  have hmain : Orderly .main (c.owner = some .main) c.main.point c.delayed.point (a :: rest) :=
    htodo ▸ h.main
  have hrest : c.stage = .ofPoint c.main.point rest := by
    rw [stage, htodo, Stage.ofPoint_cons ha]
  rw [hrest]
  cases a with
  | acquire => exact absurd rfl ha
  | unlock =>
      simp only [exec, handOver_eq]
      rfl
  | look => cases hmain.1
  | startTicker =>
      obtain ⟨-, hpoint, rfl⟩ := hmain
      rw [hpoint]
      simp only [exec]
      split
      · rfl
      · rw [stage, setTodo, hpoint]
  | finish o =>
      obtain ⟨-, hpoint, ho, rfl⟩ := hmain
      rw [hpoint]
      cases o with
      | crashed => exact absurd rfl ho
      | _ => rfl
  | dropMain =>
      refine Stage.ofPoint_cons (a := .dropExtra (c.registry.has mainFilter)) ?_ rest
      intro hacquire
      cases hacquire
  | dropExtra hadMain =>
      simp only [exec]
      split
      · refine Stage.ofPoint_cons (a := .requestRefresh) ?_ rest
        intro hacquire
        cases hacquire
      · rfl
  | _ => rfl

/-- What the delayed strand does leaves the stage alone. -/
theorem stage_exec_delayed (h : c.work.Disciplined) {a : Action} {rest : List Action}
    (htodo : c.delayed.todo = a :: rest) :
    (exec .delayed a (c.setTodo .delayed rest)).1.stage = c.stage := by
  rw [stage, (exec_delayed_frame h htodo).1]
  rfl

/-- Taking the ownership makes a turn only if everything is to be released. -/
theorem turn_acquire (h : c.work.Disciplined) {rest : List Action}
    (htodo : c.main.todo = .acquire :: rest) :
    Turn c.cluster c.picture (.run .main) none
      (exec .main .acquire (c.setTodo .main rest)).1.picture := by
  have hmain : Orderly .main (c.owner = some .main) c.main.point c.delayed.point
      (.acquire :: rest) := htodo ▸ h.main
  rcases hmain with ⟨-, hpoint, rfl⟩ | ⟨ht, -⟩ | ⟨-, hpoint, o, -, hrelease⟩
  · refine quiet_of_eq ?_
    have hstage : (exec .main .acquire (c.setTodo .main [.ask])).1.stage = c.stage := by
      show Stage.ofPoint c.main.point _ = Stage.ofPoint c.main.point _
      rw [hpoint]
      rfl
    rw [picture, hstage]
    simp only [picture, outlook, htodo]
    rfl
  · cases ht
  · obtain rfl := (List.cons.inj hrelease).2
    have hfinished : unfinished c.delayed.todo = false := by
      have hclosing : c.work.point.isClosing = true := by
        rw [show c.work.point = .releasing from hpoint]
        rfl
      rw [show c.delayed.todo = [] from (h.closing hclosing).1]
      rfl
    have hbefore : c.picture = ⟨.leaving, c.slot, c.standing⟩ := by
      rw [picture, stage, outlook_eq_main hfinished, htodo, hpoint]
      rfl
    have hafter : (exec .main .acquire (c.setTodo .main (releaseActions o).tail)).1.picture =
        ⟨.gone, c.slot, c.standing.released c.slot c.cluster.numberOfNodes⟩ := by
      have hstage : (exec .main .acquire (c.setTodo .main (releaseActions o).tail)).1.stage =
          .gone := by
        show Stage.ofPoint c.main.point _ = _
        rw [hpoint]
        rfl
      rw [picture, hstage, outlook_eq_main (by exact hfinished)]
      rfl
    rw [hbefore]
    exact hafter ▸ .release

/-- A strand that does its next action makes a turn only if it takes the ownership to release. -/
theorem turn_act (h : c.work.Disciplined) {t : Task} {a : Action} {rest : List Action}
    (htodo : c.todo t = a :: rest) :
    Turn c.cluster c.picture (.run t) none (exec t a (c.setTodo t rest)).1.picture := by
  have hslot : (exec t a (c.setTodo t rest)).1.slot = c.slot := by
    rw [slot_exec]
    cases t <;> rfl
  cases t with
  | main =>
      by_cases ha : a = .acquire
      · subst ha
        exact turn_acquire h htodo
      · refine quiet_of_eq ?_
        rw [picture, stage_exec_main h htodo ha, outlook_exec_main h htodo ha, hslot]
        rfl
  | delayed =>
      refine quiet_of_eq ?_
      rw [picture, stage_exec_delayed h htodo, outlook_exec_delayed h htodo, hslot]
      rfl

/-- Sent to the release, the coordinator is about to leave, with its outlook as it was. -/
theorem picture_release (htodo : c.main.todo = []) {o : Outcome} {l : List Action}
    (hl : ∀ a ∈ l, a.isWrite = false) :
    (c.release o l).picture = ⟨.leaving, c.slot, c.outlook⟩ := by
  have hstage : Stage.ofPoint .releasing (l ++ releaseActions o) = .leaving := by
    simp [Stage.ofPoint, releaseActions, Action.isAcquire]
  rw [release, picture_goMain_of_finished htodo (unfinished_append hl rfl), hstage]

/-- Before the delayed strand is born it has nothing to write. -/
theorem delayed_finished_of_early (h : c.work.Disciplined) (hearly : c.main.point.isEarly = true) :
    unfinished c.delayed.todo = false :=
  delayed_finished h (Or.inr (h.early hearly))

/-- Looking once more is no turn; giving up is leaving. -/
theorem turn_retry (htodo : c.main.todo = []) {s : Step} {attempt attempt' : Nat}
    (hpoint : c.main.point = .registering attempt) {l : List Action}
    (hl : ∀ a ∈ l, a.isWrite = false) :
    Turn c.cluster c.picture s none (c.retry attempt' l).picture := by
  have hstage : c.stage = .seeking := by
    rw [stage, hpoint]
    rfl
  have hbefore : c.picture = ⟨.seeking, c.slot, c.outlook⟩ := by
    rw [picture, hstage]
  rw [hbefore]
  unfold retry
  split
  · rw [picture_goMain_of_finished htodo (unfinished_append hl rfl)]
    exact .quiet
  · rw [picture_release htodo hl]
    exact .leave (Or.inl rfl)

/-- An answer while the coordinator looks for itself. -/
theorem turn_registration (h : c.work.Disciplined) (htodo : c.main.todo = []) {attempt : Nat}
    (hpoint : c.main.point = .registering attempt) (a : Answer) :
    Turn c.cluster c.picture (.answer .main a) none (c.onRegistration attempt a).picture := by
  have hdelayed : unfinished c.delayed.todo = false :=
    delayed_finished_of_early h (by rw [hpoint]; rfl)
  cases a with
  | error e => exact turn_retry htodo hpoint (by simp [Action.isWrite])
  | ok members =>
      unfold onRegistration
      dsimp only
      split
      · next slot hown =>
        rw [picture_of_idle htodo hdelayed, hpoint, picture_goMain (by exact hdelayed)]
        exact .adopt hown
      · exact turn_retry htodo hpoint (by simp [Action.isWrite])

/-- An answer while the coordinator waits for enough members. -/
theorem turn_warmup (h : c.work.Disciplined) (htodo : c.main.todo = [])
    (hpoint : c.main.point = .warming) (a : Answer) :
    Turn c.cluster c.picture (.answer .main a) none (c.onWarmup a).picture := by
  have hdelayed : unfinished c.delayed.todo = false :=
    delayed_finished_of_early h (by rw [hpoint]; rfl)
  rw [picture_of_idle htodo hdelayed, hpoint]
  cases a with
  | error e =>
      rw [onWarmup, picture_goMain hdelayed]
      exact .fail (Or.inl rfl)
  | ok members =>
      unfold onWarmup
      dsimp only
      split
      · next henough =>
        rw [picture_goMain hdelayed]
        exact .settle henough
      · rw [picture_goMain hdelayed]
        exact .wait

/-- An answer in the steady loop. -/
theorem turn_rebalance (h : c.work.Disciplined) (htodo : c.main.todo = [])
    (hpoint : c.main.point = .rebalancing) (a : Answer) :
    Turn c.cluster c.picture (.answer .main a) (c.decision? (.answer .main a))
      (c.onRebalance a).picture := by
  have howner : c.owner = some .main := h.owner_of_rebalancing hpoint htodo
  have hdelayed : unfinished c.delayed.todo = false := delayed_finished h (Or.inl howner)
  rw [picture_of_idle htodo hdelayed, hpoint]
  cases a with
  | error e =>
      rw [onRebalance, picture_goMain hdelayed]
      exact .fail (Or.inr (Or.inl rfl))
  | ok members =>
      have hdecision : c.decision? (.answer .main (.ok members)) = some (.rebalance members) :=
        if_pos hpoint
      rw [onRebalance, picture_goMain hdelayed, hdecision,
        Standing.carryOut_append _ fun a => isOrdinary_of_mem_rebalanceActions]
      exact .rebalance

/-- While the delayed strand waits or asks, the main strand has begun to collect and has not begun
to release. -/
theorem stage_of_alive (h : c.work.Disciplined) (hborn : c.delayed.point ≠ .unborn)
    (halive : c.delayed.point ≠ .ended) : c.stage = .aloft ∨ c.stage = .stopping := by
  have hlate : c.main.point.isEarly ≠ true := fun hearly => hborn (h.early hearly)
  have hopen : c.main.point.isClosing ≠ true := not_closing_of_alive h hborn halive
  unfold stage
  cases hpoint : c.main.point with
  | steady | rebalancing => exact Or.inl rfl
  | stopping => exact Or.inr rfl
  | ended o =>
      cases o with
      | crashed => exact Or.inl rfl
      | _ =>
          rw [hpoint] at hopen
          exact absurd rfl hopen
  | releasing =>
      rw [hpoint] at hopen
      exact absurd rfl hopen
  | _ =>
      rw [hpoint] at hlate
      exact absurd rfl hlate

/-- An answer to the delayed strand. -/
theorem turn_check (h : c.work.Disciplined) (htodo : c.delayed.todo = [])
    (hpoint : c.delayed.point = .checking) (a : Answer) :
    Turn c.cluster c.picture (.answer .delayed a) (c.decision? (.answer .delayed a))
      (c.onDelayed a).picture := by
  have howner : c.owner = some .delayed := h.owner_of_checking hpoint htodo
  have hborn : c.delayed.point ≠ .unborn := by
    rw [hpoint]
    nofun
  have hmain : unfinished c.main.todo = false := main_finished h howner hborn
  have houtlook : c.outlook = c.standing :=
    outlook_of_finished hmain (by rw [htodo]; rfl)
  have hawake : c.outlook.suspended = false := by
    rw [houtlook]
    exact h.looked hpoint htodo
  have hstage : c.stage = .aloft ∨ c.stage = .stopping :=
    stage_of_alive h hborn (by rw [hpoint]; nofun)
  have hbefore : c.picture = ⟨c.stage, c.slot, c.standing⟩ := by
    rw [picture, houtlook]
  rw [houtlook] at hawake
  rw [hbefore]
  cases a with
  | error e =>
      rw [onDelayed, picture_goDelayed hmain]
      exact .fail (Or.inr hstage)
  | ok members =>
      rw [onDelayed, picture_goDelayed hmain,
        Standing.carryOut_append _ fun a => isOrdinary_of_mem_delayedActions]
      unfold decision?
      dsimp only
      split
      · next hidle =>
        have hnothing : c.standing.carryOut c.slot c.cluster.numberOfNodes
            (delayedActions c.cluster c.slot members) = c.standing := by
          rw [delayedActions, if_pos hidle]
          rfl
        rw [hnothing]
        exact .quiet
      · next hacts =>
        rw [not_or, Bool.not_eq_true, Nat.not_lt] at hacts
        exact .takeOver hstage hawake hacts.1 hacts.2

/-- **Every move is a turn**, unless the delayed strand is cut off with something left to write. -/
theorem turn_of_moves {s : Step} {es : List Effect} (h : c.work.Disciplined)
    (hm : Moves c s c' es) (hwhole : c.interrupts s = false) :
    Turn c.cluster c.picture s (c.decision? s) c'.picture := by
  cases hm with
  | queue => exact .quiet
  | act htodo _ => exact turn_act h htodo
  | registration htodo hpoint =>
      rw [decision?_eq_none (by rw [hpoint]; nofun)]
      exact turn_registration h htodo hpoint _
  | warmup htodo hpoint =>
      rw [decision?_eq_none (by rw [hpoint]; nofun)]
      exact turn_warmup h htodo hpoint _
  | rebalance htodo hpoint => exact turn_rebalance h htodo hpoint _
  | check htodo hpoint => exact turn_check h htodo hpoint _
  | wakeRetrying htodo hpoint | wakeWaiting htodo hpoint =>
      refine quiet_of_eq ?_
      rw [picture_goMain_of_finished htodo rfl, picture, stage, hpoint]
      rfl
  | tick htodo hpoint _ =>
      refine quiet_of_eq ?_
      rw [picture_goMain_of_finished (by exact htodo) rfl, picture, stage, hpoint]
      rfl
  | enter htodo hpoint _ =>
      have hdelayed : unfinished c.delayed.todo = false :=
        delayed_finished_of_early h (by rw [hpoint]; rfl)
      rw [picture_of_idle htodo hdelayed, hpoint, enterSteady, picture_goMain hdelayed]
      exact .enter
  | wakeDelayed htodo _ | stopDelayed htodo _ _ =>
      exact quiet_of_eq (picture_goDelayed_of_finished (by rw [htodo]; rfl) rfl)
  | leave htodo hpoint hpause _ =>
      rw [picture_release htodo (by nofun)]
      refine .leave ?_
      rw [stage, hpoint]
      rcases hpause with rfl | rfl | ⟨attempt, rfl⟩
      · exact Or.inr (Or.inl rfl)
      · exact Or.inr (Or.inl rfl)
      · exact Or.inl rfl
  | halt htodo hpoint _ =>
      rw [picture_goMain_of_finished htodo rfl, picture, stage, hpoint]
      exact .halt
  | tickIdle => exact .quiet
  | hear => exact .quiet
  | hearEnd => exact .quiet
  | cut _ =>
      obtain ⟨owner, queue, hcut⟩ := exists_cutDelayed_eq c
      rw [hcut]
      exact quiet_of_eq (picture_goDelayed_of_finished hwhole rfl)
  | join htodo hpoint _ =>
      rw [picture_release htodo (by nofun)]
      refine .leave ?_
      rw [stage, hpoint]
      exact Or.inr (Or.inr rfl)
  | pass => exact .quiet
  | request => exact .quiet
  | change => exact .quiet
  | changesEnd => exact .quiet

end Coordinator

end FleetSharding
