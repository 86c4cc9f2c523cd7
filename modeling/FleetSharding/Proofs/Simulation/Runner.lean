import FleetSharding.Simulation.Runner

/-!
# What a runner does to its world

A runner touches its world in three ways only: it asks for the members, it lets the world do what is
due, and it takes the news.  So a relation between worlds that each of the three keeps, and that
goes on through several of them, holds between the worlds before and after whatever a runner does.

* `World.Keeps`: such a relation.
* `keeps_take`, `keeps_poll`, `keeps_settle`: it holds through a step, through a turn of a strand
  and until nobody can go on.
* `keeps_idle`, `keeps_advance`, `keeps_runNow`: and through all that happens at a moment.
* `hear_clock`: no time passes while news are heard.  -/

namespace FleetSharding

/-- A relation that holds between a world and what becomes of it, as long as it is only asked, lets
its timers fire and tells its news. -/
structure World.Keeps {W : Type} [World W] (K : W → W → Prop) : Prop where
  refl : ∀ w, K w w
  trans : ∀ {w w' w'' : W}, K w w' → K w' w'' → K w w''
  ask : ∀ w clock, K w (World.ask w clock).1
  fire : ∀ w clock, K w (World.fire w clock)
  news : ∀ w, K w (World.news w).2

namespace Runner

variable {W : Type} [World W] {K : W → W → Prop}

/-- What holds through each of several things holds through all of them. -/
theorem keeps_foldl (hK : World.Keeps K) {α : Type} {f : Runner W → α → Runner W}
    (hf : ∀ r a, K r.world (f r a).world) (as : List α) (r : Runner W) :
    K r.world (as.foldl f r).world := by
  induction as generalizing r with
  | nil => exact hK.refl _
  | cons a as ih => exact hK.trans (hf r a) (ih (f r a))

omit [World W] in
/-- Queueing a job has nothing to do with the world. -/
@[simp] theorem enqueue_world (r : Runner W) (job : Job) : (r.enqueue job).world = r.world := by
  unfold enqueue
  split <;> rfl

omit [World W] in
/-- Nor has queueing several. -/
@[simp] theorem foldl_enqueue_world (jobs : List Job) (r : Runner W) :
    (jobs.foldl enqueue r).world = r.world := by
  induction jobs generalizing r with
  | nil => rfl
  | cons job jobs ih => rw [List.foldl_cons, ih, enqueue_world]

/-- An effect asks the world for its members, or leaves it alone. -/
theorem keeps_effect (hK : World.Keeps K) (r : Runner W) (e : Effect) :
    K r.world (r.effect e).world := by
  cases e with
  | asked t => exact hK.ask _ _
  | report e => exact hK.refl _
  | measure m => exact hK.refl _

/-- A step of the coordinator. -/
theorem keeps_take (hK : World.Keeps K) (r : Runner W) (s : Step) : K r.world (r.take s).world := by
  unfold take
  split
  · exact hK.refl _
  · next core effects _ =>
    rw [foldl_enqueue_world]
    exact keeps_foldl hK (keeps_effect hK) effects { r with core }

/-- A turn of a strand. -/
theorem keeps_poll (hK : World.Keeps K) (t : Task) (n : Nat) (r : Runner W) :
    K r.world (poll t n r).world := by
  induction n generalizing r with
  | zero => exact hK.refl _
  | succ n ih =>
      rw [poll]
      split
      · exact hK.refl _
      · next u a _ => exact hK.trans (keeps_take hK (r.receive u) (.answer u a)) (ih _)
      · exact hK.trans (keeps_take hK r _) (ih _)

omit [World W] in
/-- The tracker has nothing to do with the world. -/
theorem track_world (n : Nat) (r : Runner W) : (track n r).world = r.world := by
  induction n generalizing r with
  | zero => rfl
  | succ n ih =>
      rw [track]
      split
      · rfl
      · split
        · rfl
        · split
          · rfl
          · split
            · rw [ih]
            · rw [ih]
              rfl

/-- Until nobody can go on. -/
theorem keeps_settle (hK : World.Keeps K) (n : Nat) (r : Runner W) :
    K r.world (settle n r).world := by
  induction n generalizing r with
  | zero => exact hK.refl _
  | succ n ih =>
      rw [settle]
      split
      · exact hK.refl _
      · next t rest _ => exact hK.trans (keeps_poll hK t turnSteps { r with ready := rest }) (ih _)
      · refine hK.trans ?_ (ih _)
        rw [track_world]
        exact hK.refl _

/-- The news are taken. -/
theorem keeps_hear (hK : World.Keeps K) (r : Runner W) : K r.world r.hear.world := by
  have hsignal : ∀ r : Runner W,
      K r.world ([Job.strand .main, .strand .delayed].foldl enqueue (r.take .change)).world := by
    intro r
    rw [foldl_enqueue_world]
    exact keeps_take hK r .change
  have hsignals : ∀ (n : Nat) (r : Runner W), K r.world (n.repeat
      (fun r => [Job.strand .main, .strand .delayed].foldl enqueue (r.take .change)) r).world := by
    intro n
    induction n with
    | zero => exact fun r => hK.refl _
    | succ n ih => exact fun r => hK.trans (ih r) (hsignal _)
  refine hK.trans (hK.news r.world) ?_
  rw [hear]
  exact hsignals (World.news r.world).1.signals
    ({ r with
      world := (World.news r.world).2
      metrics := r.metrics.recordAll (World.news r.world).1.measurements }.report
        (World.news r.world).1.reports)

/-- Whoever is ready runs, and the world does what is due. -/
theorem keeps_idle (hK : World.Keeps K) (r : Runner W) : K r.world r.idle.world := by
  let ran := settle turnSteps r
  let fired := World.fire ran.world ran.core.clock
  have hran : K r.world ran.world := keeps_settle hK turnSteps r
  have hfired : K ran.world fired := hK.fire _ _
  have hheard : K fired ({ ran with world := fired } : Runner W).hear.world :=
    keeps_hear hK { ran with world := fired }
  exact hK.trans hran (hK.trans hfired (hK.trans hheard (keeps_settle hK turnSteps _)))

/-- Time passes to a moment at which somebody is due. -/
theorem keeps_advance (hK : World.Keeps K) (r : Runner W) (clock : Nat) :
    K r.world (r.advance clock).world := by
  refine hK.trans ?_ (keeps_idle hK _)
  rw [foldl_enqueue_world]
  exact keeps_take hK r (.pass clock)

/-- All that is due now is done. -/
theorem keeps_runNow (hK : World.Keeps K) (r : Runner W) : K r.world r.runNow.world := by
  refine hK.trans ?_ (keeps_idle hK _)
  rw [foldl_enqueue_world]
  exact hK.refl _

/-- Something is done to the coordinator from outside. -/
theorem keeps_poke (hK : World.Keeps K) (r : Runner W) (s : Step) : K r.world (r.poke s).world := by
  rw [poke, foldl_enqueue_world]
  exact keeps_take hK r s

/-- The shutdown is requested. -/
theorem keeps_shutdown (hK : World.Keeps K) (r : Runner W) (action : ShutdownAction) :
    K r.world (r.shutdown action).2.world := by
  rw [shutdown, foldl_enqueue_world]
  exact keeps_poke hK r (.request action)

/-! No time passes while news are heard. -/

/-- An effect leaves the coordinator as it is. -/
theorem effect_core (r : Runner W) (e : Effect) : (r.effect e).core = r.core := by
  cases e <;> rfl

omit [World W] in
/-- So does queueing a job. -/
theorem enqueue_core (r : Runner W) (job : Job) : (r.enqueue job).core = r.core := by
  unfold enqueue
  split <;> rfl

omit [World W] in
/-- What leaves the coordinator as it is does so any number of times. -/
theorem foldl_core {α : Type} {f : Runner W → α → Runner W} (hf : ∀ r a, (f r a).core = r.core)
    (as : List α) (r : Runner W) : (as.foldl f r).core = r.core := by
  induction as generalizing r with
  | nil => rfl
  | cons a as ih => rw [List.foldl_cons, ih, hf]

/-- No time passes when a change is signalled. -/
theorem take_change_clock (r : Runner W) : (r.take .change).core.clock = r.core.clock := by
  unfold take
  simp only [Coordinator.step?]
  rw [foldl_core enqueue_core, foldl_core effect_core]

/-- Nor while all that the world has signalled is heard. -/
theorem hear_clock (r : Runner W) : r.hear.core.clock = r.core.clock := by
  have hsignals : ∀ (n : Nat) (r : Runner W), (n.repeat
      (fun r => [Job.strand .main, .strand .delayed].foldl enqueue (r.take .change)) r).core.clock =
        r.core.clock := by
    intro n
    induction n with
    | zero => exact fun r => rfl
    | succ n ih =>
        intro r
        show ([Job.strand .main, .strand .delayed].foldl enqueue (Runner.take _ .change)).core.clock = _
        rw [foldl_core enqueue_core, take_change_clock, ih]
  rw [hear]
  exact hsignals _ _

end Runner

end FleetSharding
