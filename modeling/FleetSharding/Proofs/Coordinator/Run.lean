import FleetSharding.Coordinator.Step

/-!
# Runs of a coordinator

A run is a sequence of steps of a coordinator and of what is around it, in any order in which they
can be taken.  It keeps its log, so that a statement can speak of what has happened and not only of
where the coordinator is.

* `Moves`, `moves_of_step?`: everything a step can do, one case for each.
* `Run`: the runs, with their logs; `follow` takes given steps, and `run_of_follow` says that this
  is a run.
-/

namespace FleetSharding

namespace Coordinator

/-- What a step does, with all that must be so before it. -/
inductive Moves (c : Coordinator) : Step → Coordinator → List Effect → Prop
  /-- A strand queues for the ownership. -/
  | queue {t : Task} {rest : List Action} (htodo : c.todo t = .acquire :: rest)
      (hheld : c.mayAcquire t = false) : Moves c (.run t) { c with queue := c.queue ++ [t] } []
  /-- A strand does its next action. -/
  | act {t : Task} {a : Action} {rest : List Action} (htodo : c.todo t = a :: rest)
      (hfree : c.isBlocked t = false) :
      Moves c (.run t) (exec t a (c.setTodo t rest)).1 (exec t a (c.setTodo t rest)).2
  | registration {attempt : Nat} {a : Answer} (htodo : c.main.todo = [])
      (hpoint : c.main.point = .registering attempt) :
      Moves c (.answer .main a) (c.onRegistration attempt a) []
  | warmup {a : Answer} (htodo : c.main.todo = []) (hpoint : c.main.point = .warming) :
      Moves c (.answer .main a) (c.onWarmup a) []
  | rebalance {a : Answer} (htodo : c.main.todo = []) (hpoint : c.main.point = .rebalancing) :
      Moves c (.answer .main a) (c.onRebalance a) []
  | check {a : Answer} (htodo : c.delayed.todo = []) (hpoint : c.delayed.point = .checking) :
      Moves c (.answer .delayed a) (c.onDelayed a) []
  | wakeRetrying {attempt : Nat} (htodo : c.main.todo = [])
      (hpoint : c.main.point = .retrying attempt) :
      Moves c (.wake .main) (c.goMain (.registering (attempt + 1)) [.ask]) []
  | wakeWaiting (htodo : c.main.todo = []) (hpoint : c.main.point = .waiting) :
      Moves c (.wake .main) (c.goMain .warming [.ask]) []
  | enter (htodo : c.main.todo = []) (hpoint : c.main.point = .settling)
      (hdue : c.main.due ≤ c.clock) : Moves c (.wake .main) c.enterSteady []
  | wakeDelayed (htodo : c.delayed.todo = []) (hpoint : c.delayed.point = .pausing) :
      Moves c (.wake .delayed) (c.goDelayed .checking [.acquire, .look]) []
  /-- The shutdown ends a pause of the main strand. -/
  | leave {p : MainPoint} (htodo : c.main.todo = []) (hpoint : c.main.point = p)
      (hpause : p = .waiting ∨ p = .settling ∨ ∃ attempt, p = .retrying attempt)
      (hdue : c.shutdown.isDue = true) : Moves c (.stop .main) (c.release .completed []) []
  | halt (htodo : c.main.todo = []) (hpoint : c.main.point = .steady)
      (hdue : c.shutdown.isDue = true) :
      Moves c (.stop .main) (c.goMain .stopping [.abortDelayed]) []
  | stopDelayed (htodo : c.delayed.todo = []) (hpoint : c.delayed.point = .pausing)
      (hdue : c.shutdown.isDue = true) : Moves c (.stop .delayed) (c.goDelayed .ended []) []
  | tick (htodo : c.main.todo = []) (hpoint : c.main.point = .steady)
      (hdirty : c.dirty = true) :
      Moves c .tick
        ({ c with tickDue := c.nextTick }.goMain .rebalancing [.acquire, .ask]) []
  /-- A tick without anything to act on. -/
  | tickIdle (htodo : c.main.todo = []) (hpoint : c.main.point = .steady)
      (hclean : c.dirty = false) : Moves c .tick { c with tickDue := c.nextTick } []
  | hear (htodo : c.main.todo = []) (hpoint : c.main.point = .steady)
      (hlisten : c.listening = true) (hpending : 0 < c.changes.pending) :
      Moves c .hear { c with dirty := true, changes := c.changes.receive } []
  | hearEnd (htodo : c.main.todo = []) (hpoint : c.main.point = .steady)
      (hlisten : c.listening = true) (hended : c.changes.receipt = .ended) :
      Moves c .hearEnd { c with dirty := true, listening := false }
        [.report .notificationsClosed]
  | cut (hcut : c.mayCut = true) : Moves c .cut c.cutDelayed []
  | join (htodo : c.main.todo = []) (hpoint : c.main.point = .stopping)
      (hover : c.delayedIsOver = true) : Moves c .join (c.release .completed []) []
  | pass {clock : Nat} (hclock : c.clock ≤ clock) : Moves c (.pass clock) { c with clock } []
  | request {action : ShutdownAction} :
      Moves c (.request action) { c with shutdown := c.shutdown.apply action } []
  | change : Moves c .change { c with changes := c.changes.notify }
      (dropped "membership_change" c.changes)
  | changesEnd : Moves c .changesEnd
      { c with changes := { c.changes with senders := c.changes.senders.map fun _ => false } } []

/-- A tick acts on what has changed. -/
theorem tick_of_dirty {c : Coordinator} (h : c.dirty = true) :
    c.tick = { c with tickDue := c.nextTick }.goMain .rebalancing [.acquire, .ask] :=
  if_pos h

/-- Where nothing has changed it only waits for the next. -/
theorem tick_of_clean {c : Coordinator} (h : c.dirty = false) :
    c.tick = { c with tickDue := c.nextTick } :=
  if_neg (by simpa using h)

/-- Who gets the ownership next is whoever waits first. -/
theorem handOver_eq (c : Coordinator) :
    c.handOver = { c with owner := c.queue.head?, queue := c.queue.tail } := by
  unfold handOver
  split <;> next hqueue => simp [hqueue]

/-- Cut off, the delayed strand is over; apart from this only the ownership may change. -/
theorem exists_cutDelayed_eq (c : Coordinator) :
    ∃ owner queue, c.cutDelayed = { c.goDelayed .ended [] with owner, queue } := by
  unfold cutDelayed
  dsimp only
  split
  · exact ⟨_, _, handOver_eq _⟩
  · exact ⟨_, _, rfl⟩

/-- Looking for itself the main strand goes on, and may adopt a slot; nothing else changes. -/
theorem exists_onRegistration_eq (c : Coordinator) (attempt : Nat) (a : Answer) :
    ∃ slot p l, c.onRegistration attempt a = { c with slot }.goMain p l := by
  have hretry : ∀ l, ∃ slot p l', c.retry attempt l = { c with slot }.goMain p l' := by
    intro l
    unfold retry
    split <;> exact ⟨_, _, _, rfl⟩
  cases a with
  | error e => exact hretry _
  | ok members =>
      unfold onRegistration
      dsimp only
      split
      · exact ⟨_, _, _, rfl⟩
      · exact hretry _

/-- Waiting for enough members the main strand goes on, and nothing else changes. -/
theorem exists_onWarmup_eq (c : Coordinator) (a : Answer) :
    ∃ p l, c.onWarmup a = c.goMain p l := by
  cases a with
  | error e => exact ⟨_, _, rfl⟩
  | ok members =>
      unfold onWarmup
      dsimp only
      split <;> exact ⟨_, _, rfl⟩

/-- A strand's next step is to queue or to act. -/
theorem moves_of_run? {c c' : Coordinator} {t : Task} {es : List Effect}
    (h : c.run? t = some (c', es)) : Moves c (.run t) c' es := by
  unfold run? at h
  split at h
  · cases h
  · next a rest htodo =>
    split at h
    · next hblocked =>
      split at h
      · cases h
      · cases h
        unfold isBlocked at hblocked
        split at hblocked
        · next rest' htodo' => exact .queue htodo' (by simpa using hblocked)
        · cases hblocked
    · next hfree =>
      have hact : Moves c (.run t) _ _ := .act htodo (by simpa using hfree)
      rwa [Option.some.inj h] at hact

/-- An answer to the main strand is one of three, as it looks for itself, waits for enough members
or decides. -/
theorem moves_of_answerMain? {c c' : Coordinator} {a : Answer} (htodo : c.main.todo = [])
    (h : c.answerMain? a = some c') : Moves c (.answer .main a) c' [] := by
  unfold answerMain? at h
  split at h <;> cases h
  · next hpoint => exact .registration htodo hpoint
  · next hpoint => exact .warmup htodo hpoint
  · next hpoint => exact .rebalance htodo hpoint

/-- The main strand goes on after a pause. -/
theorem moves_of_wakeMain? {c c' : Coordinator} (htodo : c.main.todo = [])
    (hdue : c.main.due ≤ c.clock) (h : c.wakeMain? = some c') : Moves c (.wake .main) c' [] := by
  unfold wakeMain? at h
  split at h <;> cases h
  · next hpoint => exact .wakeRetrying htodo hpoint
  · next hpoint => exact .wakeWaiting htodo hpoint
  · next hpoint => exact .enter htodo hpoint hdue

/-- The shutdown ends a pause of the main strand, or the steady loop. -/
theorem moves_of_stopMain? {c c' : Coordinator} (htodo : c.main.todo = [])
    (hdue : c.shutdown.isDue = true) (h : c.stopMain? = some c') :
    Moves c (.stop .main) c' [] := by
  unfold stopMain? at h
  split at h <;> cases h
  · next attempt hpoint =>
    exact .leave htodo hpoint (Or.inr (Or.inr ⟨attempt, rfl⟩)) hdue
  · next hpoint => exact .leave htodo hpoint (Or.inl rfl) hdue
  · next hpoint => exact .leave htodo hpoint (Or.inr (Or.inl rfl)) hdue
  · next hpoint => exact .halt htodo hpoint hdue

/-- **Every step is one of the moves.** -/
theorem moves_of_step? {c c' : Coordinator} {s : Step} {es : List Effect}
    (h : c.step? s = some (c', es)) : Moves c s c' es := by
  cases s with
  | run t => exact moves_of_run? h
  | answer t a =>
      cases t with
      | main =>
          simp only [step?] at h
          split at h
          · next htodo =>
            rw [List.isEmpty_iff] at htodo
            obtain ⟨next, hanswer, hnext⟩ := Option.map_eq_some_iff.1 h
            cases hnext
            exact moves_of_answerMain? htodo hanswer
          · cases h
      | delayed =>
          simp only [step?] at h
          split at h
          · next hwaits =>
            cases h
            simp only [Bool.and_eq_true, List.isEmpty_iff, beq_iff_eq] at hwaits
            exact .check hwaits.1 hwaits.2
          · cases h
  | wake t =>
      cases t with
      | main =>
          simp only [step?] at h
          split at h
          · next hwaits =>
            simp only [Bool.and_eq_true, List.isEmpty_iff, decide_eq_true_eq] at hwaits
            obtain ⟨next, hwake, hnext⟩ := Option.map_eq_some_iff.1 h
            cases hnext
            exact moves_of_wakeMain? hwaits.1 hwaits.2 hwake
          · cases h
      | delayed =>
          simp only [step?] at h
          split at h
          · next hwaits =>
            cases h
            simp only [Bool.and_eq_true, List.isEmpty_iff, beq_iff_eq] at hwaits
            exact .wakeDelayed hwaits.1.1 hwaits.1.2
          · cases h
  | stop t =>
      cases t with
      | main =>
          simp only [step?] at h
          split at h
          · next hwaits =>
            simp only [Bool.and_eq_true, List.isEmpty_iff] at hwaits
            obtain ⟨next, hstop, hnext⟩ := Option.map_eq_some_iff.1 h
            cases hnext
            exact moves_of_stopMain? hwaits.1 hwaits.2 hstop
          · cases h
      | delayed =>
          simp only [step?] at h
          split at h
          · next hwaits =>
            cases h
            simp only [Bool.and_eq_true, List.isEmpty_iff, beq_iff_eq] at hwaits
            exact .stopDelayed hwaits.1.1 hwaits.1.2 hwaits.2
          · cases h
  | tick =>
      simp only [step?] at h
      split at h
      · next hwaits =>
        simp only [Bool.and_eq_true, List.isEmpty_iff, beq_iff_eq] at hwaits
        cases h
        by_cases hdirty : c.dirty = true
        · rw [tick_of_dirty hdirty]
          exact .tick hwaits.1.1 hwaits.1.2 hdirty
        · rw [tick_of_clean (by simpa using hdirty)]
          exact .tickIdle hwaits.1.1 hwaits.1.2 (by simpa using hdirty)
      · cases h
  | hear =>
      simp only [step?] at h
      split at h
      · next hwaits =>
        simp only [Bool.and_eq_true, List.isEmpty_iff, beq_iff_eq] at hwaits
        cases h
        exact .hear hwaits.1.1.1 hwaits.1.1.2 hwaits.1.2
          (Signal.receipt_eq_signal_iff.1 hwaits.2)
      · cases h
  | hearEnd =>
      simp only [step?] at h
      split at h
      · next hwaits =>
        simp only [Bool.and_eq_true, List.isEmpty_iff, beq_iff_eq] at hwaits
        cases h
        exact .hearEnd hwaits.1.1.1 hwaits.1.1.2 hwaits.1.2 hwaits.2
      · cases h
  | cut =>
      simp only [step?] at h
      split at h
      · next hcut =>
        cases h
        exact .cut hcut
      · cases h
  | join =>
      simp only [step?] at h
      split at h
      · next hwaits =>
        simp only [Bool.and_eq_true, List.isEmpty_iff, beq_iff_eq] at hwaits
        cases h
        exact .join hwaits.1.1 hwaits.1.2 hwaits.2
      · cases h
  | pass clock =>
      simp only [step?] at h
      split at h
      · next hclock =>
        cases h
        exact .pass hclock
      · cases h
  | request action => cases h; exact .request
  | change => cases h; exact .change
  | changesEnd => cases h; exact .changesEnd

@[simp] theorem setTodo_point (c : Coordinator) (t : Task) (l : List Action) :
    (c.setTodo t l).main.point = c.main.point := by
  cases t <;> rfl

end Coordinator

/-- One step of a run: the coordinator before it, the step, and its effects. -/
structure Moment where
  before : Coordinator
  step : Step
  effects : List Effect

/-- Whether a query is answered in a step. -/
def Step.isAnswer : Step → Bool
  | .answer _ _ => true
  | _ => false

/-- The moment at which the latest query of a log was answered. -/
def latestQuery? (log : List Moment) : Option Moment := log.find? fun m => m.step.isAnswer

/-- The runs of a coordinator, each with its log, the latest moment first. -/
inductive Run (c₀ : Coordinator) : List Moment → Coordinator → Prop
  | start : Run c₀ [] c₀
  | step {log : List Moment} {c c' : Coordinator} {s : Step} {es : List Effect}
      (hrun : Run c₀ log c) (hstep : c.step? s = some (c', es)) :
      Run c₀ (⟨c, s, es⟩ :: log) c'

/-- A run goes on where another one ended. -/
theorem Run.trans {c₀ c c' : Coordinator} {log log' : List Moment} (h : Run c₀ log c)
    (h' : Run c log' c') : Run c₀ (log' ++ log) c' := by
  induction h' with
  | start => exact h
  | step _ hstep ih => exact ih.step hstep

namespace Coordinator

/-- Takes steps one after the other, if each can be taken. -/
def follow (c : Coordinator) (log : List Moment) : List Step → Option (List Moment × Coordinator)
  | [] => some (log, c)
  | s :: steps =>
    match c.step? s with
    | none => none
    | some (c', es) => c'.follow (⟨c, s, es⟩ :: log) steps

/-- Steps are taken in two parts. -/
theorem follow_append (c : Coordinator) (log : List Moment) (steps steps' : List Step) :
    c.follow log (steps ++ steps') =
      (c.follow log steps).bind fun r : List Moment × Coordinator => r.2.follow r.1 steps' := by
  induction steps generalizing c log with
  | nil => rfl
  | cons s steps ih =>
      rw [List.cons_append, follow, follow]
      cases c.step? s with
      | none => rfl
      | some r => exact ih _ _

/-- A step that can be taken is taken. -/
theorem follow_cons {c c' : Coordinator} {s : Step} {es : List Effect}
    (h : c.step? s = some (c', es)) (log : List Moment) (steps : List Step) :
    c.follow log (s :: steps) = c'.follow (⟨c, s, es⟩ :: log) steps := by
  rw [follow, h]

/-- Taking steps is running. -/
theorem run_of_follow {c₀ c c' : Coordinator} {log log' : List Moment} {steps : List Step}
    (hrun : Run c₀ log c) (h : c.follow log steps = some (log', c')) : Run c₀ log' c' := by
  induction steps generalizing c log with
  | nil =>
      cases h
      exact hrun
  | cons s steps ih =>
      rw [follow] at h
      split at h
      · cases h
      · next next es hstep => exact ih (hrun.step hstep) h

/-- Steps that can be taken lead to a run's end, with all that can be checked there. -/
theorem exists_run_of_follow (c₀ : Coordinator) (steps : List Step)
    (p : List Moment → Coordinator → Bool)
    (h : (c₀.follow [] steps).any (fun r => p r.1 r.2) = true) :
    ∃ log c, Run c₀ log c ∧ p log c = true := by
  obtain ⟨⟨log, c⟩, hfollow, hcheck⟩ := (Option.any_eq_true _ _).1 h
  exact ⟨log, c, run_of_follow .start hfollow, hcheck⟩

/-- The device at home in the first of two slots, and the one at home in the second. -/
def devicesOfTwo : List Device := [{ host := "x", groupId := 2 }, { host := "y", groupId := 1 }]

/-- One of two nodes, about to start. -/
def ofTwo (address : String) : Coordinator :=
  start { nodeAddress := address, numberOfNodes := 2 } {} devicesOfTwo (.ofCapacity 1)
    (.ofCapacity 1) 0

/-- The two nodes as members, the first with a given health. -/
def membersOfTwo (first : MemberStatus) : List Member :=
  [{ Member.sharded 0 "a" with status := first }, Member.sharded 1 "b"]

/-- Either of the two starts while both are healthy, and then decides on the failure of the
first. -/
def failoverSteps : List Step :=
  let acts (k : Nat) : List Step := List.replicate k (.run .main)
  acts 1 ++ [.answer .main (.ok (membersOfTwo .passing))] ++
    acts 3 ++ [.answer .main (.ok (membersOfTwo .passing))] ++
    acts 4 ++ [.pass 35000000000, .wake .main] ++
    acts 6 ++ [.change, .hear, .pass 65000000000, .tick] ++
    acts 2 ++ [.answer .main (.ok (membersOfTwo .critical))] ++ acts 9

/-- Or it decides for the first time while nobody answers. -/
def outageSteps : List Step :=
  failoverSteps.take 24 ++ [.answer .main (.error .unavailable)] ++ List.replicate 5 (.run .main)

end Coordinator

end FleetSharding
