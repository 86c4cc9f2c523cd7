import FleetSharding.Proofs.Coordinator.Attention
import FleetSharding.Proofs.Coordinator.Overlap

/-!
# When a failed query is made again

A tick asks for the members again exactly if the flag for changes is up.  A decision that fails
leaves the flag as it is, so the next tick makes it again.  The delayed strand has no flag: what it
could not find out, nobody asks for again, unless a change is heard of.

* `heardSince`, `mainFailed`: what a log says of changes, and of the latest answer to the main
  strand.
* `Mindful`: the flag says what the log says; `mindful_of_moves`, `mindful_of_run`.
* `tick_asks_again_iff`: when a tick after a failed query asks again, and what comes of it.
* `exists_not_asked_again`: a failure of the delayed strand is passed over by the next tick.
-/

namespace FleetSharding

/-- Whether a change was heard of since the latest success of the main strand, after one more
step. -/
def Step.heard (before : Bool) : Step → Bool
  | .hear | .hearEnd => true
  | .answer .main (.ok _) => false
  | _ => before

/-- Whether the latest query of the main strand failed, after one more step. -/
def Step.failed (before : Bool) : Step → Bool
  | .answer .main (.ok _) => false
  | .answer .main (.error _) => true
  | _ => before

/-- Whether a change was heard of since the latest success of the main strand. -/
def heardSince : List Moment → Bool
  | [] => false
  | m :: log => m.step.heard (heardSince log)

/-- Whether the latest query of the main strand failed. -/
def mainFailed : List Moment → Bool
  | [] => false
  | m :: log => m.step.failed (mainFailed log)

/-- A latest query that is one of the main strand and failed is seen. -/
theorem mainFailed_of_latestQuery? {log : List Moment} {m : Moment}
    (hlatest : latestQuery? log = some m) {e : DiscoveryError}
    (hstep : m.step = .answer .main (.error e)) : mainFailed log = true := by
  induction log with
  | nil => cases hlatest
  | cons first log ih =>
      rw [latestQuery?, List.find?_cons] at hlatest
      split at hlatest
      · cases hlatest
        rw [mainFailed, hstep]
        rfl
      · next hno =>
        have hbefore : mainFailed log = true := ih hlatest
        rw [mainFailed]
        cases hs : first.step with
        | answer t a =>
            rw [hs] at hno
            cases hno
        | _ => exact hbefore

/-- Whether the flag makes no difference at a point, nor how the latest query was answered. -/
def MainPoint.isApart : MainPoint → Bool
  | .settling | .steady | .rebalancing => false
  | _ => true

/-- What the main strand knows of changes: where it is, whether it is about to lower the flag, the
flag, and whether changes are still signalled. -/
structure Lookout where
  point : MainPoint
  settles : Bool
  dirty : Bool
  listening : Bool

namespace Lookout

variable {v : Lookout} {heard failed failed' : Bool}

/-- What the flag says, by whether a change was heard of since the latest success of the main strand
and whether its latest query failed. -/
structure Mindful (heard failed : Bool) (v : Lookout) : Prop where
  /-- The flag is up if a change was heard of, or if none can be heard of any more. -/
  flag : v.settles = false → v.dirty = (heard || !v.listening)
  /-- It is about to be lowered after a success only. -/
  settles : v.settles = true → heard = false ∧ failed = false
  early : v.point.isEarly = true → heard = false ∧ v.listening = true
  settling : v.point = .settling → failed = false
  rebalancing : v.point = .rebalancing → v.dirty = true
  /-- A decision that failed has left the flag up. -/
  steady : v.point = .steady → failed = true → v.dirty = true

/-- The main strand is sent elsewhere while the flag stays as it is. -/
theorem Mindful.go (h : v.Mindful heard failed) (hidle : v.settles = false) {p : MainPoint}
    (hearly : p.isEarly = true → v.point.isEarly = true)
    (hsettling : p = .settling → failed' = false) (hrebalancing : p = .rebalancing → v.dirty = true)
    (hsteady : p = .steady → failed' = true → v.dirty = true) :
    Mindful heard failed' ⟨p, false, v.dirty, v.listening⟩ where
  flag := fun _ => h.flag hidle
  settles := nofun
  early := fun hp => h.early (hearly hp)
  settling := hsettling
  rebalancing := hrebalancing
  steady := hsteady

/-- It is sent to where the flag makes no difference. -/
theorem Mindful.goApart (h : v.Mindful heard failed) (hidle : v.settles = false) {p : MainPoint}
    (hp : p.isApart = true) (hearly : p.isEarly = false ∨ v.point.isEarly = true) :
    Mindful heard failed' ⟨p, false, v.dirty, v.listening⟩ := by
  refine h.go hidle (fun hp' => ?_) ?_ ?_ ?_
  · rcases hearly with hlate | hearly
    · rw [hlate] at hp'
      cases hp'
    · exact hearly
  all_goals
    rintro rfl
    cases hp

/-- A success led to the end of the warm-up. -/
theorem Mindful.goSettling (h : v.Mindful heard failed) (hidle : v.settles = false)
    (hearly : v.point.isEarly = true) :
    Mindful heard false ⟨.settling, false, v.dirty, v.listening⟩ :=
  h.go hidle (fun _ => hearly) (fun _ => rfl) nofun nofun

/-- It begins or goes on to wait for ticks. -/
theorem Mindful.goSteady (h : v.Mindful heard failed) (hidle : v.settles = false)
    (hdirty : failed' = true → v.dirty = true) :
    Mindful heard failed' ⟨.steady, false, v.dirty, v.listening⟩ :=
  h.go hidle nofun nofun nofun fun _ => hdirty

/-- The flag is up, so a decision is made anew. -/
theorem Mindful.goRebalancing (h : v.Mindful heard failed) (hidle : v.settles = false)
    (hdirty : v.dirty = true) : Mindful heard failed ⟨.rebalancing, false, v.dirty, v.listening⟩ :=
  h.go hidle nofun nofun (fun _ => hdirty) nofun

/-- A decision has succeeded, and the flag is about to be lowered. -/
theorem mindful_succeeded {dirty listening : Bool} :
    Mindful false false ⟨.steady, true, dirty, listening⟩ :=
  ⟨nofun, fun _ => ⟨rfl, rfl⟩, nofun, nofun, nofun, nofun⟩

/-- A change is heard of. -/
theorem mindful_hear {p : MainPoint} {settles listening : Bool} (hp : p = .steady)
    (hidle : settles = false) : Mindful true failed ⟨p, settles, true, listening⟩ := by
  subst hp hidle
  exact ⟨fun _ => rfl, nofun, nofun, nofun, nofun, fun _ _ => rfl⟩

end Lookout

namespace Coordinator

variable {c c' : Coordinator} {heard failed : Bool}

def lookout (c : Coordinator) : Lookout := ⟨c.main.point, c.settles, c.dirty, c.listening⟩

/-- With nothing to do the main strand is not about to lower the flag. -/
theorem settles_of_idle (htodo : c.main.todo = []) : c.lookout.settles = false := by
  show c.main.todo.any Action.isSettle = false
  rw [htodo]
  rfl

/-- Reports lower no flag. -/
theorem any_isSettle_reports (events : List Event) :
    (events.map Action.report).any Action.isSettle = false := by
  rw [List.any_map, List.any_eq_false]
  intro e _
  exact Bool.false_ne_true

/-- Sent to do anything but lower the flag. -/
theorem lookout_goMain {p : MainPoint} {l : List Action} (hl : l.any Action.isSettle = false) :
    (c.goMain p l).lookout = ⟨p, false, c.dirty, c.listening⟩ := by
  show Lookout.mk p (l.any Action.isSettle) c.dirty c.listening = _
  rw [hl]

/-- The main strand does anything but lower the flag. -/
theorem lookout_exec_main (h : c.work.Disciplined) {a : Action} {rest : List Action}
    (htodo : c.main.todo = a :: rest) (ha : a.isSettle = false) :
    (exec .main a (c.setTodo .main rest)).1.lookout = c.lookout ∨
      c.lookout.settles = false ∧ ∃ o, (exec .main a (c.setTodo .main rest)).1.lookout =
        ⟨.ended o, false, c.dirty, c.listening⟩ := by
  have hmain : Orderly .main (c.owner = some .main) c.main.point c.delayed.point (a :: rest) :=
    htodo ▸ h.main
  have hbefore : c.lookout = ⟨c.main.point, rest.any Action.isSettle, c.dirty, c.listening⟩ := by
    rw [lookout, settles, htodo, List.any_cons, ha, Bool.false_or]
  rw [hbefore]
  cases a with
  | settle => cases ha
  | unlock =>
      simp only [exec, handOver_eq]
      exact Or.inl rfl
  | look => cases hmain.1
  | startTicker =>
      obtain ⟨-, -, rfl⟩ := hmain
      simp only [exec]
      split
      · exact Or.inr ⟨rfl, .crashed, rfl⟩
      · exact Or.inl rfl
  | finish o =>
      obtain ⟨-, -, -, rfl⟩ := hmain
      exact Or.inr ⟨rfl, o, rfl⟩
  | dropExtra hadMain =>
      simp only [exec]
      split <;> exact Or.inl rfl
  | _ => exact Or.inl rfl

/-- What the main strand does keeps the flag mindful. -/
theorem mindful_exec_main (h : c.work.Disciplined) (hmind : c.lookout.Mindful heard failed)
    {a : Action} {rest : List Action} (htodo : c.main.todo = a :: rest) :
    (exec .main a (c.setTodo .main rest)).1.lookout.Mindful heard failed := by
  cases ha : a.isSettle with
  | true =>
      cases a with
      | settle =>
          have hmain : Orderly .main (c.owner = some .main) c.main.point c.delayed.point
              (.settle :: rest) := htodo ▸ h.main
          obtain ⟨-, hpoint, rfl⟩ := hmain
          have hsettles : c.lookout.settles = true := by
            show c.main.todo.any Action.isSettle = true
            rw [htodo]
            rfl
          obtain ⟨rfl, rfl⟩ := hmind.settles hsettles
          have hafter : (exec .main .settle (c.setTodo .main [])).1.lookout =
              ⟨.steady, false, !c.listening, c.listening⟩ := by
            show Lookout.mk c.main.point false _ _ = _
            rw [hpoint]
            rfl
          rw [hafter]
          exact ⟨fun _ => rfl, nofun, nofun, nofun, nofun, nofun⟩
      | _ => cases ha
  | false =>
      rcases lookout_exec_main h htodo ha with hsame | ⟨hidle, o, hended⟩
      · rw [hsame]
        exact hmind
      · rw [hended]
        exact hmind.goApart hidle rfl (Or.inl rfl)

/-- Nor does it lower the flag when everything is released. -/
theorem lookout_release {o : Outcome} {l : List Action} (hl : l.any Action.isSettle = false) :
    (c.release o l).lookout = ⟨.releasing, false, c.dirty, c.listening⟩ := by
  refine lookout_goMain ?_
  rw [List.any_append, hl]
  rfl

/-- Looking once more, or giving up, leaves the flag alone. -/
theorem mindful_retry (hmind : c.lookout.Mindful heard failed) (htodo : c.main.todo = [])
    (hearly : c.main.point.isEarly = true) {failed' : Bool} {attempt : Nat} {l : List Action}
    (hl : l.any Action.isSettle = false) :
    (c.retry attempt l).lookout.Mindful heard failed' := by
  have hsleep : (l ++ [Action.sleep c.timers.registrationInterval]).any Action.isSettle =
      false := by
    rw [List.any_append, hl]
    rfl
  unfold retry
  split
  · rw [lookout_goMain hsleep]
    exact hmind.goApart (settles_of_idle htodo) rfl (Or.inr hearly)
  · rw [lookout_release hl]
    exact hmind.goApart (settles_of_idle htodo) rfl (Or.inl rfl)

/-- An answer while the coordinator looks for itself. -/
theorem mindful_registration (hmind : c.lookout.Mindful heard failed) (htodo : c.main.todo = [])
    {attempt : Nat} (hpoint : c.main.point = .registering attempt) (a : Answer) :
    (c.onRegistration attempt a).lookout.Mindful (Step.heard heard (.answer .main a))
      (Step.failed failed (.answer .main a)) := by
  have hearly : c.main.point.isEarly = true := by rw [hpoint]; rfl
  obtain ⟨rfl, -⟩ := hmind.early hearly
  cases a with
  | error e => exact mindful_retry hmind htodo hearly rfl
  | ok members =>
      unfold onRegistration
      dsimp only
      split
      · rw [lookout_goMain rfl]
        exact hmind.goApart (settles_of_idle htodo) rfl (Or.inr hearly)
      · exact mindful_retry hmind htodo hearly (any_isSettle_reports _)

/-- An answer while the coordinator waits for enough members; only a success leads on. -/
theorem mindful_warmup (hmind : c.lookout.Mindful heard failed) (htodo : c.main.todo = [])
    (hpoint : c.main.point = .warming) (a : Answer) :
    (c.onWarmup a).lookout.Mindful (Step.heard heard (.answer .main a))
      (Step.failed failed (.answer .main a)) := by
  have hearly : c.main.point.isEarly = true := by rw [hpoint]; rfl
  obtain ⟨rfl, -⟩ := hmind.early hearly
  have hidle := settles_of_idle htodo
  cases a with
  | error e =>
      rw [onWarmup, lookout_goMain rfl]
      exact hmind.goApart hidle rfl (Or.inr hearly)
  | ok members =>
      unfold onWarmup
      dsimp only
      split
      · rw [lookout_goMain rfl]
        exact hmind.goSettling hidle hearly
      · rw [lookout_goMain rfl]
        exact hmind.goApart hidle rfl (Or.inr hearly)

/-- An answer in the steady loop: a success is about to lower the flag, a failure leaves it up. -/
theorem mindful_rebalance (hmind : c.lookout.Mindful heard failed) (htodo : c.main.todo = [])
    (hpoint : c.main.point = .rebalancing) (a : Answer) :
    (c.onRebalance a).lookout.Mindful (Step.heard heard (.answer .main a))
      (Step.failed failed (.answer .main a)) := by
  have hdirty : c.dirty = true := hmind.rebalancing hpoint
  cases a with
  | error e =>
      rw [onRebalance, lookout_goMain rfl]
      exact hmind.goSteady (settles_of_idle htodo) fun _ => hdirty
  | ok members =>
      have hafter : (c.onRebalance (.ok members)).lookout =
          ⟨.steady, true, c.dirty, c.listening⟩ := by
        show Lookout.mk .steady (List.any (_ ++ [.unlock, .settle]) Action.isSettle) _ _ = _
        rw [List.any_append]
        exact congrArg (Lookout.mk .steady · c.dirty c.listening) (Bool.or_true _)
      rw [hafter]
      exact Lookout.mindful_succeeded

/-- **Every move keeps the flag mindful.** -/
theorem mindful_of_moves {s : Step} {es : List Effect} (h : c.work.Disciplined)
    (hm : Moves c s c' es) (hmind : c.lookout.Mindful heard failed) :
    c'.lookout.Mindful (s.heard heard) (s.failed failed) := by
  cases hm with
  | @act t a rest htodo _ =>
      cases t with
      | main => exact mindful_exec_main h hmind htodo
      | delayed =>
          obtain ⟨hmain, -, hdirty, hlistening⟩ := exec_delayed_frame h htodo
          rw [lookout, settles, hmain, hdirty, hlistening]
          exact hmind
  | registration htodo hpoint => exact mindful_registration hmind htodo hpoint _
  | warmup htodo hpoint => exact mindful_warmup hmind htodo hpoint _
  | rebalance htodo hpoint => exact mindful_rebalance hmind htodo hpoint _
  | @check a _ _ => cases a <;> exact hmind
  | wakeRetrying htodo hpoint | wakeWaiting htodo hpoint =>
      have hearly : c.main.point.isEarly = true := by rw [hpoint]; rfl
      rw [lookout_goMain rfl]
      exact hmind.goApart (settles_of_idle htodo) rfl (Or.inr hearly)
  | enter htodo hpoint _ =>
      rw [enterSteady, lookout_goMain rfl]
      refine hmind.goSteady (settles_of_idle htodo) fun hfailed => ?_
      rw [show Step.failed failed (.wake .main) = failed from rfl,
        hmind.settling hpoint] at hfailed
      cases hfailed
  | leave htodo _ _ _ | join htodo _ _ =>
      rw [lookout_release rfl]
      exact hmind.goApart (settles_of_idle htodo) rfl (Or.inl rfl)
  | halt htodo _ _ =>
      rw [lookout_goMain rfl]
      exact hmind.goApart (settles_of_idle htodo) rfl (Or.inl rfl)
  | tick htodo _ hdirty =>
      rw [lookout_goMain rfl]
      exact hmind.goRebalancing (settles_of_idle htodo) hdirty
  | hear htodo hpoint _ _ => exact Lookout.mindful_hear hpoint (settles_of_idle htodo)
  | hearEnd htodo hpoint _ _ => exact Lookout.mindful_hear hpoint (settles_of_idle htodo)
  | cut =>
      obtain ⟨owner, queue, hcut⟩ := exists_cutDelayed_eq c
      rw [hcut]
      exact hmind
  | _ => exact hmind

section Started

variable {cluster : ClusterConfig} {timers : TimerConfig} {devices : List Device}
  {updates changes : Signal} {clock : Nat} {log log' : List Moment}

/-- **In every run the flag says what the log says.** -/
theorem mindful_of_run (hrun : Run (start cluster timers devices updates changes clock) log c) :
    c.lookout.Mindful (heardSince log) (mainFailed log) := by
  induction hrun with
  | start => exact ⟨fun _ => rfl, nofun, fun _ => ⟨rfl, rfl⟩, nofun, nofun, nofun⟩
  | step hrun hstep ih =>
      exact mindful_of_moves (disciplined_of_run hrun (disciplined_start ..))
        (moves_of_step? hstep) ih

/-- A strand that decides anew asks before it is answered, and nothing but the answer leads out. -/
theorem rebalancing_of_moves {s : Step} {es : List Effect} (h : c.work.Disciplined)
    (hm : Moves c s c' es) (hpoint : c.main.point = .rebalancing)
    (hs : ∀ a, s ≠ .answer .main a) :
    c'.main.point = .rebalancing ∧
      (c'.main.todo = [] → c.main.todo = [] ∨ .asked .main ∈ es) := by
  have hsame : ∀ {d : Coordinator}, d.main = c.main → d.main.point = .rebalancing ∧
      (d.main.todo = [] → c.main.todo = [] ∨ .asked .main ∈ es) := by
    intro d hd
    rw [hd]
    exact ⟨hpoint, Or.inl⟩
  have hother : ∀ {p : MainPoint}, c.main.point = p → p ≠ .rebalancing → False :=
    fun hp hne => hne (hp.symm.trans hpoint)
  cases hm with
  | @act t a rest htodo _ =>
      cases t with
      | delayed => exact hsame (exec_delayed_frame h htodo).1
      | main =>
          have htodo' : c.work.todo = a :: rest := htodo
          rcases h.rebalancing hpoint with ⟨-, hnone | hone⟩ | hboth
          · rw [hnone] at htodo'
            cases htodo'
          · rw [hone] at htodo'
            obtain ⟨rfl, rfl⟩ := List.cons.inj htodo'
            exact ⟨hpoint, fun _ => Or.inr (List.mem_singleton.2 rfl)⟩
          · rw [hboth] at htodo'
            obtain ⟨rfl, rfl⟩ := List.cons.inj htodo'
            exact ⟨hpoint, nofun⟩
  | @check a _ _ => cases a <;> exact hsame rfl
  | cut =>
      obtain ⟨owner, queue, hcut⟩ := exists_cutDelayed_eq c
      rw [hcut]
      exact hsame rfl
  | registration | warmup | rebalance => exact absurd rfl (hs _)
  | wakeRetrying _ hp | wakeWaiting _ hp | enter _ hp _ | halt _ hp _ | tick _ hp _
  | tickIdle _ hp _ | hear _ hp _ _ | hearEnd _ hp _ _ | join _ hp _ =>
      exact (hother hp nofun).elim
  | leave _ hp hpause _ =>
      rcases hpause with rfl | rfl | ⟨attempt, rfl⟩ <;> exact (hother hp nofun).elim
  | _ => exact hsame rfl

/-- So it is for as long as no answer comes. -/
theorem rebalancing_of_run (hrun : Run c log c') (h : c.work.Disciplined)
    (hpoint : c.main.point = .rebalancing) (htodo : c.main.todo ≠ [])
    (hs : ∀ m ∈ log, ∀ a, m.step ≠ .answer .main a) :
    c'.main.point = .rebalancing ∧
      (c'.main.todo = [] → ∃ m ∈ log, .asked .main ∈ m.effects) := by
  induction hrun with
  | start => exact ⟨hpoint, fun hnone => absurd hnone htodo⟩
  | @step log d d' s es hrun hstep ih =>
      obtain ⟨hpoint', hasked⟩ := ih fun m hm => hs m (List.mem_cons_of_mem _ hm)
      obtain ⟨hpoint'', hnone⟩ := rebalancing_of_moves (disciplined_of_run hrun h)
        (moves_of_step? hstep) hpoint' (hs _ List.mem_cons_self)
      refine ⟨hpoint'', fun htodo' => ?_⟩
      rcases hnone htodo' with hbefore | hnow
      · obtain ⟨m, hm, heffect⟩ := hasked hbefore
        exact ⟨m, List.mem_cons_of_mem _ hm, heffect⟩
      · exact ⟨_, List.mem_cons_self, hnow⟩

/-- A tick comes in the steady loop, and asks exactly if the flag is up. -/
theorem tick_asks_iff {es : List Effect} (htick : c.step? .tick = some (c', es)) :
    c.main.todo = [] ∧ c.main.point = .steady ∧
      (c'.main.point = .rebalancing ↔ c.dirty = true) ∧
      (c'.main.point = .rebalancing → c'.main.todo ≠ []) := by
  cases moves_of_step? htick with
  | tick htodo hpoint hdirty => exact ⟨htodo, hpoint, iff_of_true rfl hdirty, nofun⟩
  | tickIdle htodo hpoint hclean =>
      have hno : c.main.point ≠ .rebalancing := by
        rw [hpoint]
        nofun
      exact ⟨htodo, hpoint, iff_of_false hno (by rw [hclean]; nofun), fun hp => absurd hp hno⟩

/-- What was decided last in the second part of a run was decided last in the whole run. -/
theorem latestDecision_append {d : Decision} (h : latestDecision log' = some d) :
    latestDecision (log' ++ log) = some d := by
  induction log' with
  | nil => cases h
  | cons m log' ih =>
      rw [latestDecision] at h
      rw [List.cons_append, latestDecision]
      cases hd : m.before.decision? m.step with
      | some d' =>
          rw [hd] at h
          exact h
      | none =>
          rw [hd] at h
          exact ih h

/-- **When a tick after a failed query asks again.**  It does so if the query was one of the main
strand, or a change was heard of since the latest success of that strand, or no change can be heard
of any more; a failure of the delayed strand alone does not make it ask.  If it asks, nothing but an
answer leads out of this, and once a decision on the members of an answer is all written, what there
is follows from them. -/
theorem tick_asks_again_iff
    (hrun : Run (start cluster timers devices updates changes clock) log c) {es : List Effect}
    (htick : c.step? .tick = some (c', es)) {m : Moment} (hlatest : latestQuery? log = some m)
    {t : Task} {e : DiscoveryError} (hfailed : m.step = .answer t (.error e)) :
    (c'.main.point = .rebalancing ↔ t = .main ∨ heardSince log = true ∨ c.listening = false) ∧
      (c'.main.point = .rebalancing → ∀ log' d, Run c' log' d →
        (∀ m ∈ log', ∀ a, m.step ≠ .answer .main a) →
          d.main.point = .rebalancing ∧
            (d.main.todo = [] → ∃ m ∈ log', .asked .main ∈ m.effects)) ∧
      ∀ log' d members, Run c' log' d → latestDecision log' = some (.rebalance members) →
        inProgress (log' ++ ⟨c, .tick, es⟩ :: log) d = false → d.status.phase ≠ .stopped →
          d.standing.Decided cluster d.slot members := by
  obtain ⟨htodo, hpoint, hasks, hbusy⟩ := tick_asks_iff htick
  have hmind := mindful_of_run hrun
  have hflag : c.dirty = (heardSince log || !c.listening) := hmind.flag (settles_of_idle htodo)
  refine ⟨?_, ?_, ?_⟩
  · rw [hasks]
    constructor
    · intro hdirty
      rw [hdirty] at hflag
      simpa using Or.inr hflag.symm
    · intro hcases
      rcases hcases with rfl | hheard | hdeaf
      · exact hmind.steady hpoint (mainFailed_of_latestQuery? hlatest hfailed)
      · rw [hflag, hheard, Bool.true_or]
      · rw [hflag, hdeaf, Bool.not_false, Bool.or_true]
  · intro hrebalancing log' d hrun' hs
    exact rebalancing_of_run hrun' (disciplined_of_run (hrun.step htick) (disciplined_start ..))
      hrebalancing (hbusy hrebalancing) hs
  · intro log' d members hrun' hdecision hidle hheld
    have hdecided : DecidedOn cluster devices members d :=
      ⟨⟨timers, updates, changes, clock, _, (hrun.step htick).trans hrun',
        latestDecision_append hdecision, hidle⟩, hheld⟩
    exact hdecided.decided.1

end Started

/-- Whether a query of a strand fails in a step. -/
def failsFor (t : Task) : Step → Bool
  | .answer t' (.error _) => t' == t
  | _ => false

/-- A strand fails by an error that is its answer. -/
theorem exists_of_failsFor {t : Task} {s : Step} (h : failsFor t s = true) :
    ∃ e, s = .answer t (.error e) := by
  unfold failsFor at h
  split at h
  · next t' e =>
    rw [beq_iff_eq] at h
    exact ⟨e, by rw [h]⟩
  · cases h

/-- Steps that can be taken lead to a tick after a failed query, with all that can be checked
there. -/
theorem exists_tick_of_follow (c₀ : Coordinator) (steps : List Step) (t : Task)
    (p : Coordinator → Bool)
    (h : (c₀.follow [] steps).any (fun r => (latestQuery? r.1).any (fun m => failsFor t m.step) &&
      (r.2.step? .tick).any fun next => p next.1) = true) :
    ∃ log c c' es m e, Run c₀ log c ∧ c.step? .tick = some (c', es) ∧
      latestQuery? log = some m ∧ m.step = .answer t (.error e) ∧ p c' = true := by
  obtain ⟨⟨log, c⟩, hfollow, hcheck⟩ := (Option.any_eq_true _ _).1 h
  rw [Bool.and_eq_true, Option.any_eq_true, Option.any_eq_true] at hcheck
  obtain ⟨⟨m, hlatest, hfails⟩, ⟨c', es⟩, htick, hp⟩ := hcheck
  obtain ⟨e, he⟩ := exists_of_failsFor hfails
  exact ⟨log, c, c', es, m, e, run_of_follow .start hfollow, htick, hlatest, he, hp⟩

/-- The second of two nodes, whose first decision fails, decides at the next tick. -/
theorem tick_asks_again_after_outage :
    ∃ log c c' es m e, Run (ofTwo "b") log c ∧ c.step? .tick = some (c', es) ∧
      latestQuery? log = some m ∧ m.step = .answer .main (.error e) ∧
      c'.main.point = .rebalancing := by
  obtain ⟨log, c, c', es, m, e, hrun, htick, hlatest, he, -⟩ :=
    exists_tick_of_follow (ofTwo "b") (outageSteps ++ [.pass 95000000000]) .main (fun _ => true)
      (by decide +kernel)
  exact ⟨log, c, c', es, m, e, hrun, htick, hlatest, he,
    (tick_asks_again_iff hrun htick hlatest he).1.2 (Or.inl rfl)⟩

/-- The first of two nodes starts alone, and its delayed strand finds nobody to answer. -/
def aloneSteps : List Step :=
  let acts (k : Nat) : List Step := List.replicate k (.run .main)
  let alone : Answer := .ok [.sharded 0 "a"]
  acts 1 ++ [.answer .main alone] ++ acts 3 ++ [.answer .main alone] ++
    acts 4 ++ [.pass 35000000000, .wake .main] ++ acts 6 ++
    [.run .delayed, .pass 70000000000, .wake .delayed, .run .delayed, .run .delayed,
      .answer .delayed (.error .unavailable)] ++ List.replicate 4 (.run .delayed)

/-- Then the next tick asks nobody, and the device of the other slot is left to nobody. -/
theorem exists_not_asked_again :
    ∃ log c c' es m e, Run (ofTwo "a") log c ∧ c.step? .tick = some (c', es) ∧
      latestQuery? log = some m ∧ m.step = .answer .delayed (.error e) ∧
      c'.main.point = .steady ∧ c'.main.todo = [] ∧
      c'.registry.selected = devicesOfTwo.take 1 := by
  obtain ⟨log, c, c', es, m, e, hrun, htick, hlatest, he, hcheck⟩ :=
    exists_tick_of_follow (ofTwo "a") (aloneSteps ++ [.pass 95000000000]) .delayed
      (fun c => c.main.point == .steady && c.main.todo.isEmpty &&
        c.registry.selected == devicesOfTwo.take 1) (by decide +kernel)
  simp only [Bool.and_eq_true, beq_iff_eq, List.isEmpty_iff] at hcheck
  obtain ⟨⟨hpoint, htodo⟩, hselected⟩ := hcheck
  exact ⟨log, c, c', es, m, e, hrun, htick, hlatest, he, hpoint, htodo, hselected⟩

end Coordinator

end FleetSharding
