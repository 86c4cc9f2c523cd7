import FleetSharding.Proofs.Coordinator.Gates
import FleetSharding.Proofs.Coordinator.Rebalance

/-!
# The main strand alone

Before the delayed strand is born and after it is over, the main strand is alone: nobody keeps the
ownership from it, and nothing but its own steps changes it.  So a release that has begun comes to
its end.

* `Alone`, `alone_of_step?`: all that can happen while the main strand looks for itself, or closes.
* `Quits`, `quits_of_alone`: whoever gives up comes nearer to its end with each of its steps.
* `keeps_of_moves`: and nobody gives up once it has found itself.
-/

namespace FleetSharding

/-- Whether a step is one of the main strand. -/
def Step.isMain : Step → Bool
  | .run .main | .answer .main _ | .wake .main | .stop .main | .tick | .hear | .hearEnd | .join =>
    true
  | _ => false

/-- How many steps of the main strand a log has. -/
def mainSteps (log : List Moment) : Nat := log.countP (·.step.isMain)

/-- A moment counts if the main strand has moved in it. -/
theorem mainSteps_cons (m : Moment) (log : List Moment) :
    mainSteps (m :: log) = mainSteps log + if m.step.isMain then 1 else 0 :=
  List.countP_cons ..

namespace Action

/-- Whether an action only tells something. -/
def isTold : Action → Bool
  | .report _ | .measure _ => true
  | _ => false

/-- Whether an action may come before the last one of a release. -/
def isRelease : Action → Bool
  | .acquire | .dropMain | .dropExtra _ | .requestRefresh | .publish _ | .unlock => true
  | a => a.isTold

/-- How many steps an action of a release comes to, with those that may follow from it. -/
def cost : Action → Nat
  | .dropMain => 3
  | .dropExtra _ => 2
  | _ => 1

variable {a : Action}

/-- What only tells something may be left to do in a release. -/
theorem isRelease_of_isTold (h : a.isTold = true) : a.isRelease = true := by
  cases a <;> first | rfl | cases h

/-- It takes one step. -/
theorem cost_of_isTold (h : a.isTold = true) : a.cost = 1 := by
  cases a <;> first | rfl | cases h

end Action

def costOf (todo : List Action) : Nat := (todo.map Action.cost).sum

/-- The cost of work is that of its parts. -/
theorem costOf_append (l l' : List Action) : costOf (l ++ l') = costOf l + costOf l' := by
  rw [costOf, List.map_append, List.sum_append]
  rfl

/-- What tells something takes one step. -/
theorem costOf_of_isTold {l : List Action} (hl : ∀ a ∈ l, a.isTold = true) :
    costOf l = l.length := by
  have hone : ∀ n ∈ l.map Action.cost, n = 1 := by
    intro n hn
    obtain ⟨a, ha, rfl⟩ := List.mem_map.1 hn
    exact Action.cost_of_isTold (hl a ha)
  rw [costOf, List.eq_replicate_of_mem hone, List.sum_replicate_nat, List.length_map, Nat.mul_one]

namespace Coordinator

variable {c c' : Coordinator} {s : Step} {es : List Effect} {log : List Moment}

/-- The delayed strand neither has the ownership nor waits for it. -/
structure Idle (c : Coordinator) : Prop where
  owner : c.owner ≠ some .delayed
  queue : c.queue = []

/-- So the main strand need not wait. -/
theorem Idle.isBlocked (h : c.Idle) : c.isBlocked .main = false := by
  have hfree : c.mayAcquire .main = true := by
    unfold mayAcquire
    cases howner : c.owner with
    | none => rfl
    | some t =>
        cases t with
        | main => rfl
        | delayed => exact absurd howner h.owner
  unfold Coordinator.isBlocked
  split
  · rw [hfree]
    rfl
  · rfl

/-- All that can happen while the delayed strand does nothing, and the main strand looks for itself
or closes. -/
inductive Alone (c : Coordinator) : Step → Coordinator → List Effect → Prop
  | act {a : Action} {rest : List Action} (htodo : c.main.todo = a :: rest) :
      Alone c (.run .main) (exec .main a (c.setTodo .main rest)).1
        (exec .main a (c.setTodo .main rest)).2
  | answer {attempt : Nat} {a : Answer} (htodo : c.main.todo = [])
      (hpoint : c.main.point = .registering attempt) :
      Alone c (.answer .main a) (c.onRegistration attempt a) []
  | again {attempt : Nat} (htodo : c.main.todo = []) (hpoint : c.main.point = .retrying attempt)
      (hdue : c.main.due ≤ c.clock) :
      Alone c (.wake .main) (c.goMain (.registering (attempt + 1)) [.ask]) []
  | leave {attempt : Nat} (htodo : c.main.todo = []) (hpoint : c.main.point = .retrying attempt) :
      Alone c (.stop .main) (c.release .completed []) []
  | stay {s : Step} {c' : Coordinator} {es : List Effect} (hother : s.isMain = false)
      (hmain : c'.main = c.main) (howner : c'.owner = c.owner) (hqueue : c'.queue = c.queue)
      (hasked : .asked .main ∉ es) : Alone c s c' es

/-- Nobody is woken before it is time. -/
theorem due_of_wake (h : c.step? (.wake .main) = some (c', es)) : c.main.due ≤ c.clock := by
  simp only [step?] at h
  split at h
  · next hwaits =>
    rw [Bool.and_eq_true, decide_eq_true_eq] at hwaits
    exact hwaits.2
  · cases h

/-- The delayed strand is not born yet, or over. -/
theorem quiet_of_seeking_or_closing (hd : c.work.Disciplined)
    (hpoint : c.main.point.isSeeking = true ∨ c.main.point.isClosing = true) :
    c.delayed.todo = [] ∧ (c.delayed.point = .unborn ∨ c.delayed.point = .ended) := by
  rcases hpoint with hseeking | hclosing
  · have hborn : c.delayed.point = .unborn := hd.early (MainPoint.isEarly_of_isSeeking hseeking)
    exact ⟨hd.unborn hborn, Or.inl hborn⟩
  · exact hd.closing hclosing

/-- Nothing else can happen while the delayed strand is idle. -/
theorem alone_of_step? (hd : c.work.Disciplined) (hidle : c.Idle)
    (hpoint : c.main.point.isSeeking = true ∨ c.main.point.isClosing = true)
    (hstep : c.step? s = some (c', es)) : Alone c s c' es := by
  obtain ⟨hnone, hover⟩ := quiet_of_seeking_or_closing hd hpoint
  -- Wherever else the main strand may be, it neither looks for itself nor closes.
  have helsewhere : ∀ {p : MainPoint}, c.main.point = p → p.isSeeking = false →
      p.isClosing = false → Alone c s c' es := by
    rintro p rfl hs hc
    rw [hs, hc] at hpoint
    rcases hpoint with hpoint | hpoint <;> cases hpoint
  cases moves_of_step? hstep with
  | @queue t rest htodo hheld =>
      cases t with
      | main =>
          have hfree := hidle.isBlocked
          rw [isBlocked, htodo, hheld] at hfree
          cases hfree
      | delayed => cases hnone.symm.trans htodo
  | @act t a rest htodo _ =>
      cases t with
      | main => exact .act htodo
      | delayed => cases hnone.symm.trans htodo
  | registration htodo hp => exact .answer htodo hp
  | wakeRetrying htodo hp => exact .again htodo hp (due_of_wake hstep)
  | leave htodo hp hpause _ =>
      rcases hpause with rfl | rfl | ⟨attempt, rfl⟩
      · exact helsewhere hp rfl rfl
      · exact helsewhere hp rfl rfl
      · exact .leave htodo hp
  | check _ hp | wakeDelayed _ hp | stopDelayed _ hp _ =>
      rcases hover with hover | hover <;> cases hover.symm.trans hp
  | cut hcut =>
      rcases hover with hover | hover <;> simp [mayCut, delayedIsOver, hnone, hover] at hcut
  | warmup _ hp | rebalance _ hp | wakeWaiting _ hp | enter _ hp _ | halt _ hp _ | tick _ hp _
  | tickIdle _ hp _ | hear _ hp _ _ | hearEnd _ hp _ _ | join _ hp _ => exact helsewhere hp rfl rfl
  | pass | request | changesEnd => exact .stay rfl rfl rfl rfl (by simp)
  | change =>
      refine .stay rfl rfl rfl rfl ?_
      unfold dropped
      split <;> simp

/-- Each action of a release leaves less to do. -/
theorem exec_release {a : Action} (ha : a.isRelease = true) (hidle : c.Idle) (rest : List Action) :
    (exec .main a (c.setTodo .main rest)).1.main.point = c.main.point ∧
      (exec .main a (c.setTodo .main rest)).1.Idle ∧
      ∃ more, (exec .main a (c.setTodo .main rest)).1.main.todo = more ++ rest ∧
        (∀ b ∈ more, b.isRelease = true) ∧ costOf more < a.cost := by
  obtain ⟨howner, hqueue⟩ := hidle
  have hdone : ∀ b ∈ ([] : List Action), b.isRelease = true := by simp
  cases a with
  | acquire =>
      have hmain : some Task.main ≠ some .delayed := by decide
      exact ⟨rfl, ⟨hmain, hqueue⟩, [], rfl, hdone, Nat.one_pos⟩
  | unlock =>
      have hgiven : (c.setTodo .main rest).handOver =
          { c.setTodo .main rest with owner := none, queue := [] } := by
        rw [handOver_eq]
        simp [setTodo, hqueue]
      have hnobody : (none : Option Task) ≠ some .delayed := by decide
      simp only [exec, hgiven]
      exact ⟨rfl, ⟨hnobody, rfl⟩, [], rfl, hdone, Nat.one_pos⟩
  | dropMain =>
      exact ⟨rfl, ⟨howner, hqueue⟩, [_], rfl, by simp [Action.isRelease], Nat.lt_succ_self 2⟩
  | dropExtra =>
      simp only [exec]
      split
      · exact ⟨rfl, ⟨howner, hqueue⟩, [_], rfl, by simp [Action.isRelease], Nat.lt_succ_self 1⟩
      · exact ⟨rfl, ⟨howner, hqueue⟩, [], rfl, hdone, Nat.two_pos⟩
  | requestRefresh | publish | report | measure =>
      exact ⟨rfl, ⟨howner, hqueue⟩, [], rfl, hdone, Nat.one_pos⟩
  | _ => cases ha

/-- The coordinator releases everything because it was not seen after so many attempts, and has
returned after a bounded number of steps of its main strand. -/
inductive Quits (n bound steps : Nat) (c : Coordinator) : Prop
  | releasing {before : List Action} (hpoint : c.main.point = .releasing)
      (htodo : c.main.todo = before ++ [.finish (.timedOut n)])
      (hbefore : ∀ a ∈ before, a.isRelease = true) (hsteps : steps + costOf c.main.todo ≤ bound)
      (hidle : c.Idle) : Quits n bound steps c
  | ended (hpoint : c.main.point = .ended (.timedOut n)) (hsteps : steps ≤ bound)
      (hidle : c.Idle) : Quits n bound steps c

namespace Quits

variable {n bound steps : Nat}

/-- A coordinator begins to quit. -/
theorem release {before : List Action} (hidle : c.Idle)
    (hbefore : ∀ a ∈ before, a.isTold = true) (hsteps : steps + before.length + 7 ≤ bound) :
    Quits n bound steps (c.release (.timedOut n) before) := by
  let removing : List Action := [.acquire, .dropMain, .publish (.phase .stopped), .unlock]
  have htodo : (c.release (.timedOut n) before).main.todo =
      (before ++ removing) ++ [.finish (.timedOut n)] := by
    simp [Coordinator.release, goMain, releaseActions, removing]
  refine .releasing rfl htodo (List.forall_mem_append.2 ⟨fun a ha => ?_, ?_⟩) ?_
    ⟨hidle.owner, hidle.queue⟩
  · exact Action.isRelease_of_isTold (hbefore a ha)
  · simp [removing, Action.isRelease]
  · have hrest : costOf (removing ++ [.finish (.timedOut n)]) = 7 := rfl
    rw [htodo, List.append_assoc, costOf_append, costOf_of_isTold hbefore, hrest]
    omega

/-- Whoever quits gives up what it has. -/
theorem isClosing (h : Quits n bound steps c) : c.main.point.isClosing = true := by
  cases h with
  | releasing hpoint | ended hpoint =>
      rw [hpoint]
      rfl

/-- Meanwhile the delayed strand does nothing. -/
theorem idle (h : Quits n bound steps c) : c.Idle := by
  cases h with
  | releasing _ _ _ _ hidle => exact hidle
  | ended _ _ hidle => exact hidle

end Quits

/-- **Whoever gives up comes nearer to its end with each of its steps.** -/
theorem quits_of_alone {n bound : Nat} (hd : c.work.Disciplined) (h : Alone c s c' es)
    (hquits : Quits n bound (mainSteps log) c) :
    Quits n bound (mainSteps (⟨c, s, es⟩ :: log)) c' := by
  cases hquits with
  | @releasing before hpoint htodo hbefore hsteps hidle =>
      cases h with
      | @act a rest hnext =>
          rw [mainSteps_cons]
          rw [hnext] at hsteps
          cases before with
          | nil =>
              obtain ⟨rfl, rfl⟩ := List.cons.inj (htodo.symm.trans hnext)
              exact .ended rfl hsteps ⟨hidle.owner, hidle.queue⟩
          | cons b before =>
              obtain ⟨rfl, hrest⟩ := List.cons.inj (htodo.symm.trans hnext)
              obtain ⟨hb, hall⟩ := List.forall_mem_cons.1 hbefore
              obtain ⟨hsame, hidle', more, hmore, hmoreAll, hless⟩ := exec_release hb hidle rest
              refine .releasing (hsame.trans hpoint) ?_
                (List.forall_mem_append.2 ⟨hmoreAll, hall⟩) ?_ hidle'
              · rw [hmore, ← hrest]
                exact (List.append_assoc ..).symm
              · have hcost : costOf (b :: rest) = b.cost + costOf rest := rfl
                rw [hmore, costOf_append]
                show mainSteps log + 1 + (costOf more + costOf rest) ≤ bound
                omega
      | answer _ hp | again _ hp | leave _ hp => cases hpoint.symm.trans hp
      | stay hother hmain howner hqueue =>
          rw [mainSteps_cons, hother]
          exact .releasing (hmain ▸ hpoint) (hmain ▸ htodo) hbefore (hmain ▸ hsteps)
            ⟨howner ▸ hidle.owner, hqueue ▸ hidle.queue⟩
  | ended hpoint hsteps hidle =>
      cases h with
      | act hnext => cases (hd.ended _ hpoint).symm.trans hnext
      | answer _ hp | again _ hp | leave _ hp => cases hpoint.symm.trans hp
      | stay hother hmain howner hqueue =>
          rw [mainSteps_cons, hother]
          exact .ended (hmain ▸ hpoint) hsteps ⟨howner ▸ hidle.owner, hqueue ▸ hidle.queue⟩

/-- The main strand has returned because it was not seen, or is about to. -/
def GivesUp (c : Coordinator) (n : Nat) : Prop :=
  .finish (.timedOut n) ∈ c.main.todo ∨ c.main.point = .ended (.timedOut n)

/-- The coordinator does not look for itself, and does not give up. -/
structure Keeps (c : Coordinator) : Prop where
  point : c.main.point.isSeeking = false
  kept : ∀ n, ¬ c.GivesUp n

/-- What a coordinator keeps to is seen in its main strand. -/
theorem Keeps.congr (h : c.Keeps) (hmain : c'.main = c.main) : c'.Keeps := by
  refine ⟨hmain ▸ h.point, ?_⟩
  unfold GivesUp
  rw [hmain]
  exact h.kept

/-- Whoever is sent elsewhere does not give up, unless it is told to. -/
theorem keeps_goMain {p : MainPoint} {l : List Action} (hp : p.isSeeking = false)
    (hopen : ∀ o, p ≠ .ended o) (hl : ∀ n, .finish (.timedOut n) ∉ l) : (c.goMain p l).Keeps := by
  refine ⟨hp, ?_⟩
  rintro n (hmem | hended)
  · exact hl n hmem
  · exact hopen _ hended

/-- What an action of the main strand leaves to do was left before, or comes of a release. -/
theorem mem_todo_exec {a b : Action} {rest : List Action}
    (hb : b ∈ (exec .main a (c.setTodo .main rest)).1.main.todo) :
    b ∈ rest ∨ b = .requestRefresh ∨ ∃ hadMain, b = .dropExtra hadMain := by
  cases a with
  | unlock =>
      simp only [exec, handOver_eq] at hb
      exact Or.inl hb
  | look =>
      simp only [exec] at hb
      split at hb <;> exact Or.inl hb
  | dropMain =>
      rcases List.mem_cons.1 hb with rfl | hb
      · exact Or.inr (Or.inr ⟨_, rfl⟩)
      · exact Or.inl hb
  | dropExtra =>
      simp only [exec] at hb
      split at hb
      · rcases List.mem_cons.1 hb with rfl | hb
        · exact Or.inr (Or.inl rfl)
        · exact Or.inl hb
      · exact Or.inl hb
  | startTicker =>
      simp only [exec] at hb
      split at hb
      · cases hb
      · exact Or.inl hb
  | finish => cases hb
  | _ => exact Or.inl hb

/-- No action begins a search, or gives up. -/
theorem keeps_exec {a : Action} {rest : List Action} (h : c.Keeps)
    (hnext : c.main.todo = a :: rest) : (exec .main a (c.setTodo .main rest)).1.Keeps := by
  obtain ⟨hpoint, hkept⟩ := h
  have hends := point_exec .main a (c.setTodo .main rest)
  rw [setTodo_point] at hends
  constructor
  · rcases hends with hsame | ⟨-, -, hend⟩ | ⟨o, -, hend⟩
    · rw [hsame, hpoint]
    · rw [hend]
      rfl
    · rw [hend]
      rfl
  · rintro n (hmem | hended)
    · rcases mem_todo_exec hmem with hrest | hrefresh | ⟨hadMain, hdrop⟩
      · exact hkept n (Or.inl (hnext ▸ List.mem_cons_of_mem _ hrest))
      · cases hrefresh
      · cases hdrop
    · rcases hends with hsame | ⟨-, -, hend⟩ | ⟨o, rfl, hend⟩
      · exact hkept n (Or.inr (hsame.symm.trans hended))
      · cases hend.symm.trans hended
      · obtain rfl := MainPoint.ended.inj (hend.symm.trans hended)
        exact hkept n (Or.inl (hnext ▸ List.mem_cons_self))

/-- **Whoever does not look for itself any more does not give up.** -/
theorem keeps_of_moves (hd : c.work.Disciplined) (hm : Moves c s c' es) (h : c.Keeps) :
    c'.Keeps := by
  cases hm with
  | @act t a rest htodo _ =>
      cases t with
      | main => exact keeps_exec h htodo
      | delayed => exact h.congr (exec_delayed_frame hd htodo).1
  | registration _ hp | wakeRetrying _ hp => exact absurd h.point (by rw [hp]; exact nofun)
  | @warmup a _ _ =>
      cases a with
      | error e => exact keeps_goMain rfl nofun (by simp)
      | ok members =>
          unfold onWarmup
          dsimp only
          split <;> exact keeps_goMain rfl nofun (by simp)
  | @rebalance a _ _ =>
      cases a with
      | error e => exact keeps_goMain rfl nofun (by simp)
      | ok members =>
          refine keeps_goMain rfl nofun fun n hmem => ?_
          rcases List.mem_append.1 hmem with hmem | hmem
          · exact nomatch isOrdinary_of_mem_rebalanceActions hmem
          · simp at hmem
  | @check a _ _ => cases a <;> exact h.congr rfl
  | cut =>
      obtain ⟨owner, queue, hcut⟩ := exists_cutDelayed_eq c
      rw [hcut]
      exact h.congr rfl
  | wakeWaiting | enter | halt | tick => exact keeps_goMain rfl nofun (by simp)
  | leave | join => exact keeps_goMain rfl nofun (by simp [releaseActions])
  | queue | wakeDelayed | stopDelayed | tickIdle | hear | hearEnd | pass | request | change
  | changesEnd => exact h.congr rfl

end Coordinator

end FleetSharding
