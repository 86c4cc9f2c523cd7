import FleetSharding.Proofs.Reachable
import FleetSharding.Proofs.Simulation.Runner
import FleetSharding.Simulation.Node

/-!
# The end of a node

After its start a node goes on by what happens to it: time passes, its admin interface's address is
looked up, the shutdown is requested, and something is done to its world from outside.  Only what a
node does at a moment can end it.  A node that ran its coordinator then gives up its registration,
and once that is done it returns; one that cannot listen returns as it is.

* `Node.act?`: what happens to a node, one event at a time.
* `Node.Goes`: what a node may do, as far as its phase and its world are concerned.
* `Node.Opens`: and what it may do when its address has been looked up.
* `Node.moves_act`: it does no more than that, whatever happens.
* `Node.Returns`: the moment at which a node returns with a failure.
* `Node.Ends`: what it may have done then.
-/

namespace FleetSharding

/-- Something that happens to a node. -/
inductive NodeEvent (A : Type) where
  /-- A moment has come at which somebody is due. -/
  | advance (clock : Nat)
  /-- Time has passed, and nobody is due. -/
  | pass (clock : Nat)
  /-- Whoever can go on does. -/
  | settle
  /-- It is known whether the admin interface can listen. -/
  | resolve
  | shutdown (action : ShutdownAction)
  /-- Something is done to its world. -/
  | outside (a : A)

/-- What is done to its world by an event. -/
def NodeEvent.outside? {A : Type} : NodeEvent A → Option A
  | .outside a => some a
  | _ => none

/-- A relation that also holds when a node starts to watch, or hears no more. -/
structure Discovery.Keeps {W : Type} [Discovery W] (K : W → W → Prop) : Prop
    extends World.Keeps K where
  watch : ∀ w, K w (Discovery.watch w)
  ignore : ∀ w, K w (Discovery.ignore w)

namespace Node

variable {W A : Type} [Discovery W] {K : W → W → Prop} {n n' : Node W}

/-- What there is after something has happened to a node, if it can. -/
def act? (outside : Node W → A → Option (Node W)) (n : Node W) : NodeEvent A → Option (Node W)
  | .advance clock => some (n.advance clock)
  | .pass clock => some { n with runner := n.runner.take (.pass clock) }
  | .settle => some n.settle
  | .resolve => some n.resolve
  | .shutdown action => some (n.shutdown action).2
  | .outside a => outside n a

/-- What a node may do that does not open its admin interface, with a relation between worlds that
holds as long as nobody registers or deregisters. -/
inductive Goes (K : W → W → Prop) (n n' : Node W) : Prop where
  /-- It is as far as it was. -/
  | on (hphase : n'.phase = n.phase) (hworld : K n.runner.world n'.runner.world)
  | crashed (hrun : n.phase = .running) (hphase : n'.phase = .crashed)
      (hworld : K n.runner.world n'.runner.world)
  /-- The coordinator has ended, and the node gives up its registration. -/
  | left {w : W} {clock : Nat} {outcome : Outcome} (hrun : n.phase = .running)
      (hbefore : K n.runner.world w)
      (hafter : K (Discovery.deregister w clock).2 n'.runner.world)
      (hphase : n'.phase = .ended (failureOf n.config outcome) ∨
        clock < (Discovery.deregister w clock).1.due ∧
          ∃ due result, n'.phase = .leaving due result outcome)
  /-- The registration is given up. -/
  | closed {due : Nat} {result : Except DiscoveryError Unit} {outcome : Outcome}
      (hleft : n.phase = .leaving due result outcome)
      (hphase : n'.phase = .ended (failureOf n.config outcome))
      (hworld : K n.runner.world n'.runner.world)

omit [Discovery W] in
/-- A node that has left closes as soon as its departure is known to be over. -/
theorem close_leaving {due : Nat} {result : Except DiscoveryError Unit} {outcome : Outcome}
    (h : n.phase = .leaving due result outcome) :
    n.close.runner.world = n.runner.world ∧
      (n.close.phase = .ended (failureOf n.config outcome) ∨
        n.runner.core.clock < due ∧ n.close.phase = n.phase) := by
  rw [close, h]
  dsimp only
  by_cases hdue : due ≤ n.runner.core.clock
  · rw [if_pos hdue]
    exact ⟨rfl, Or.inl rfl⟩
  · rw [if_neg hdue]
    exact ⟨rfl, Or.inr ⟨Nat.lt_of_not_le hdue, h⟩⟩

omit [Discovery W] in
/-- A node that is not about to leave has nothing to close. -/
theorem close_of_ne_leaving (h : ∀ due result outcome, n.phase ≠ .leaving due result outcome) :
    n.close = n := by
  unfold close
  split
  · next due result outcome hphase => exact absurd hphase (h due result outcome)
  · rfl

/-- A node leaves when its coordinator has ended and did not crash. -/
theorem leave_cases (n : Node W) :
    n.leave = n ∨ (n.phase = .running ∧ n.leave = { n with phase := .crashed }) ∨
      ∃ outcome, n.phase = .running ∧ n.leave =
        let (d, world) := Discovery.deregister n.runner.world n.runner.core.clock
        { n with
          runner := { n.runner with world }.hear
          phase := .leaving d.due d.result outcome } := by
  unfold leave
  split
  · next hrun _ => exact Or.inr (Or.inl ⟨hrun, rfl⟩)
  · next outcome _ hrun _ => exact Or.inr (Or.inr ⟨outcome, hrun, rfl⟩)
  · exact Or.inl rfl

/-- A node whose coordinator has gone on leaves if that has ended, and closes if it has left. -/
theorem goes_leave_close (hK : World.Keeps K) {m : Node W} (hconfig : m.config = n.config)
    (hsame : m.phase = n.phase) (hworld : K n.runner.world m.runner.world) :
    Goes K n m.leave.close := by
  rcases leave_cases m with hstays | ⟨hrun, hcrash⟩ | ⟨outcome, hrun, hleaves⟩
  · rw [hstays]
    by_cases hleft : ∃ due result outcome, m.phase = .leaving due result outcome
    · obtain ⟨due, result, outcome, hleft⟩ := hleft
      obtain ⟨hclosed, hphase | ⟨-, hphase⟩⟩ := close_leaving hleft
      · exact .closed (hsame ▸ hleft) (hconfig ▸ hphase) (hclosed ▸ hworld)
      · exact .on (hphase.trans hsame) (hclosed ▸ hworld)
    · rw [close_of_ne_leaving fun due result outcome h => hleft ⟨due, result, outcome, h⟩]
      exact .on hsame hworld
  · have hstays : m.leave.close = m.leave := close_of_ne_leaving (by rw [hcrash]; exact nofun)
    rw [hstays, hcrash]
    exact .crashed (hsame ▸ hrun) rfl hworld
  · let given := Discovery.deregister m.runner.world m.runner.core.clock
    let gone : Runner W := ({ m.runner with world := given.2 } : Runner W).hear
    have hleft : m.leave.phase = .leaving given.1.due given.1.result outcome := by rw [hleaves]
    have hclock : m.leave.runner.core.clock = m.runner.core.clock := by
      rw [hleaves]
      exact Runner.hear_clock _
    have hafter : K given.2 m.leave.runner.world := by
      rw [hleaves]
      exact Runner.keeps_hear hK { m.runner with world := given.2 }
    have hconf : m.leave.config = n.config := by rw [hleaves]; exact hconfig
    obtain ⟨hclosed, hphase | ⟨hdue, hphase⟩⟩ := close_leaving hleft
    · exact .left (hsame ▸ hrun) hworld (hclosed ▸ hafter) (Or.inl (hconf ▸ hphase))
    · rw [hclock] at hdue
      exact .left (hsame ▸ hrun) hworld (hclosed ▸ hafter) (Or.inr ⟨hdue, _, _, hphase.trans hleft⟩)

/-- A node goes on where it can, and that is all. -/
theorem goes_settle (hK : World.Keeps K) (n : Node W) : Goes K n n.settle :=
  goes_leave_close hK rfl rfl (Runner.keeps_runNow hK n.runner)

/-- What a node may do when it is known whether its admin interface can listen. -/
inductive Opens (K : W → W → Prop) (n n' : Node W) : Prop where
  /-- It runs its coordinator. -/
  | run {first : Node W} (hopening : n.phase = .opening true) (hrun : first.phase = .running)
      (hworld : K n.runner.world first.runner.world) (hgoes : Goes K first n')
  | fail (hopening : n.phase = .opening false)
      (hphase : n'.phase = .ended (some (.binding n.config.api.bindAddr)))
      (hworld : K n.runner.world n'.runner.world)

/-- A node that fails before its coordinator runs does nothing to its world but stop to listen. -/
theorem keeps_fail (hK : Discovery.Keeps K) (n : Node W) (f : NodeFailure) :
    K n.runner.world (n.fail f).runner.world := by
  refine hK.trans (hK.ignore n.runner.world) ?_
  have hrun := Runner.keeps_runNow hK.toKeeps
    (({ n.runner with
        core := (Coordinator.exec .main (.finish .completed) n.runner.core).1
        world := Discovery.ignore n.runner.world } : Runner W).enqueue .tracker)
  rw [Runner.enqueue_world] at hrun
  exact hrun

/-- What is known of the address takes effect, if the node waits for it. -/
theorem moves_resolve (hK : Discovery.Keeps K) (n : Node W) :
    Goes K n n.resolve ∨ Opens K n n.resolve := by
  rw [resolve]
  split
  · next hopening =>
    let first : Node W :=
      { n with
        runner :=
          { n.runner with core := n.runner.core.setTodo .main [.ask] }.enqueue (.strand .main)
        phase := .running }
    have hworld : K n.runner.world first.runner.world := by
      show K _ (Runner.enqueue _ _).world
      rw [Runner.enqueue_world]
      exact hK.refl _
    have hgoes : Goes K first first.settle := goes_settle hK.toKeeps first
    exact Or.inr (.run hopening rfl hworld hgoes)
  · next hopening => exact Or.inr (.fail hopening rfl (keeps_fail hK n _))
  · exact Or.inl (.on rfl (hK.refl _))

/-- **Whatever happens, a node does no more than it may**, apart from what is done to its world. -/
theorem moves_act (hK : Discovery.Keeps K) {outside : Node W → A → Option (Node W)}
    {e : NodeEvent A} (hact : n.act? outside e = some n') :
    ((Goes K n n' ∨ Opens K n n') ∧ e.outside? = none) ∨
      ∃ a, e.outside? = some a ∧ outside n a = some n' := by
  cases e with
  | advance clock =>
      cases hact
      exact Or.inl ⟨Or.inl (goes_leave_close hK.toKeeps rfl rfl
        (Runner.keeps_advance hK.toKeeps n.runner clock)), rfl⟩
  | settle =>
      cases hact
      exact Or.inl ⟨Or.inl (goes_settle hK.toKeeps n), rfl⟩
  | resolve =>
      cases hact
      exact Or.inl ⟨moves_resolve hK n, rfl⟩
  | pass clock =>
      cases hact
      exact Or.inl ⟨Or.inl (.on rfl (Runner.keeps_take hK.toKeeps n.runner (.pass clock))), rfl⟩
  | shutdown action =>
      cases hact
      exact Or.inl ⟨Or.inl (.on rfl (Runner.keeps_shutdown hK.toKeeps n.runner action)), rfl⟩
  | outside a => exact Or.inr ⟨a, rfl, hact⟩

/-- The one failure of a coordinator is that its node was not seen. -/
theorem exists_unseen {c : FleetConfig} {outcome : Outcome} {f : NodeFailure}
    (h : failureOf c outcome = some f) : ∃ address attempts, f = .unseen address attempts := by
  cases outcome with
  | timedOut attempts => exact ⟨_, attempts, (Option.some.inj h).symm⟩
  | completed => cases h
  | crashed => cases h

/-- How a node that has registered ends with a failure. -/
inductive Ends (K : W → W → Prop) (n n' : Node W) (f : NodeFailure) : Prop where
  /-- Its admin interface cannot listen: nothing is given up. -/
  | unbound {address : String} (hfailure : f = .binding address)
      (hopening : n.phase = .opening false) (hworld : K n.runner.world n'.runner.world)
  /-- It was not seen, and gives up its registration. -/
  | unseen {address : String} {attempts clock : Nat} {w : W}
      (hfailure : f = .unseen address attempts)
      (hactive : n.phase = .running ∨ n.phase = .opening true) (hbefore : K n.runner.world w)
      (hafter : K (Discovery.deregister w clock).2 n'.runner.world)
  /-- It was not seen, and has given up its registration. -/
  | gone {address : String} {attempts due : Nat} {result : Except DiscoveryError Unit}
      {outcome : Outcome} (hfailure : f = .unseen address attempts)
      (hleft : n.phase = .leaving due result outcome) (hworld : K n.runner.world n'.runner.world)

/-- **A node that ran fails only because it was not seen**, and only when its registration has been
given up. -/
theorem Goes.ends {f : NodeFailure} (h : Goes K n n') (hopen : ∀ result, n.phase ≠ .ended result)
    (hended : n'.phase = .ended (some f)) : Ends K n n' f := by
  cases h with
  | on hphase => exact absurd (hphase.symm.trans hended) (hopen _)
  | crashed _ hphase => cases hphase.symm.trans hended
  | left hrun hbefore hafter hphase =>
      rcases hphase with hphase | ⟨-, due, result, hphase⟩
      · obtain ⟨address, attempts, hf⟩ :=
          exists_unseen (NodePhase.ended.inj (hphase.symm.trans hended))
        exact .unseen hf (Or.inl hrun) hbefore hafter
      · cases hphase.symm.trans hended
  | closed hleft hphase hworld =>
      obtain ⟨address, attempts, hf⟩ :=
        exists_unseen (NodePhase.ended.inj (hphase.symm.trans hended))
      exact .gone hf hleft hworld

/-- A node that cannot listen fails as it is; one that can has run its coordinator before. -/
theorem Opens.ends {f : NodeFailure} (hK : World.Keeps K) (h : Opens K n n')
    (hended : n'.phase = .ended (some f)) : Ends K n n' f := by
  cases h with
  | fail hopening hphase hworld =>
      have hf := Option.some.inj (NodePhase.ended.inj (hphase.symm.trans hended))
      exact .unbound hf.symm hopening hworld
  | run hopening hrun hworld hgoes =>
      cases hgoes.ends (by rw [hrun]; exact nofun) hended with
      | unbound _ hopening' => cases hrun.symm.trans hopening'
      | unseen hf _ hbefore hafter =>
          exact .unseen hf (Or.inr hopening) (hK.trans hworld hbefore) hafter
      | gone _ hleft => cases hrun.symm.trans hleft

/-- Either way it ends as a node does that has registered. -/
theorem ends_of_moves {f : NodeFailure} (hK : World.Keeps K) (h : Goes K n n' ∨ Opens K n n')
    (hopen : ∀ result, n.phase ≠ .ended result) (hended : n'.phase = .ended (some f)) :
    Ends K n n' f :=
  h.elim (·.ends hopen hended) (·.ends hK hended)

/-- How a node starts: it waits for its registration, fails, or opens its admin interface. -/
inductive Begins (K : W → W → Prop) (w : W) (n : Node W) : Prop where
  | waits {w' : W} (hregister : Discovery.register w = (none, w')) (hphase : n.phase = .registering)
  | unregistered {e : DiscoveryError} {w' : W}
      (hregister : Discovery.register w = (some (.error e), w')) (hworld : K w' n.runner.world)
      (hphase : n.phase = .ended (some (.registration e)))
  | opens {w' : W} {first : Node W} {isOpen : Bool}
      (hregister : Discovery.register w = (some (.ok ()), w'))
      (hworld : K w' first.runner.world) (hopening : first.phase = .opening isOpen)
      (hmoves : Goes K first n ∨ Opens K first n)

/-- While its coordinator is held a node does nothing to its world. -/
theorem keeps_held (hK : World.Keeps K) (c : FleetConfig) (w : W) (tracker : Option Tracker) :
    K w (held c w tracker).world := by
  unfold held
  exact Runner.keeps_hear hK { Runner.start _ w tracker true with ready := [] }

/-- Every start is one of these, whatever can be listened on. -/
theorem begins_start (hK : Discovery.Keeps K) (listen : String → Listening) (c : FleetConfig)
    (w : W) : Begins K w (start listen c w) := by
  rcases hregister : Discovery.register w with ⟨_ | e | ⟨⟩, w'⟩
  · have hstart : start listen c w = ⟨c, held c w' none, .registering⟩ := by rw [start, hregister]
    rw [hstart]
    exact .waits hregister rfl
  · let first : Node W := ⟨c, held c w' none, .registering⟩
    have hstart : start listen c w = first.fail (.registration e) := by rw [start, hregister]
    have hfirst : K w' first.runner.world := keeps_held hK.toKeeps c w' none
    rw [hstart]
    exact .unregistered hregister (hK.trans hfirst (keeps_fail hK first _)) rfl
  · rw [start, hregister]
    dsimp only
    let runner := held c (Discovery.watch w') (some .start)
    have hworld : K w' runner.world := hK.trans (hK.watch w') (keeps_held hK.toKeeps c _ _)
    let first (isOpen : Bool) : Node W := ⟨c, runner, .opening isOpen⟩
    split
    · next isOpen _ => exact .opens hregister hworld rfl (moves_resolve hK (first isOpen))
    · next isOpen _ =>
      exact .opens hregister hworld rfl (Or.inl (goes_settle hK.toKeeps (first isOpen)))

/-- What is due before a limit happens one event after the other, and none of them is others'
doing. -/
theorem exists_yields_runBefore {outside : Node W → A → Option (Node W)} {n₀ : Node W}
    (limit now : Nat) {es : List (NodeEvent A)} (hyields : Yields (act? outside) n₀ es n) :
    ∃ own, own.filterMap (·.outside?) = [] ∧
      Yields (act? outside) n₀ (own ++ es) (runBefore now limit n) := by
  induction now, n using @runBefore.induct W _ limit generalizing es with
  | case1 now n hdue =>
      rw [runBefore]
      simp only [hdue]
      exact ⟨[], rfl, hyields⟩
  | case2 now n due hdue hlt ih =>
      obtain ⟨own, hown, hrest⟩ := ih (hyields.act (e := .advance due) rfl)
      rw [runBefore]
      simp only [hdue, dif_pos hlt]
      refine ⟨own ++ [.advance due], ?_, by rwa [List.append_assoc]⟩
      rw [List.filterMap_append, hown]
      rfl
  | case3 now n due hdue hlt =>
      rw [runBefore]
      simp only [hdue, dif_neg hlt]
      exact ⟨[], rfl, hyields⟩

/-- So does all that is due up to a moment: whatever a node is run for, these are its events. -/
theorem exists_yields_runTo {outside : Node W → A → Option (Node W)} {n₀ : Node W}
    {es : List (NodeEvent A)} (hyields : Yields (act? outside) n₀ es n) (clock : Nat) :
    ∃ own, own.filterMap (·.outside?) = [] ∧
      Yields (act? outside) n₀ (own ++ es) (n.runTo clock) := by
  obtain ⟨own, hown, hrest⟩ := exists_yields_runBefore clock n.runner.core.clock hyields
  have hpass : Yields (act? outside) n₀ (.pass clock :: (own ++ es)) (n.runTo clock) :=
    hrest.act rfl
  exact ⟨.pass clock :: own, hown, hpass⟩

/-- A node returns with a failure, at its start or by something that happens; meanwhile others did
this to its world, the latest first. -/
inductive Returns (outside : Node W → A → Option (Node W)) (n₀ : Node W) (f : NodeFailure)
    (others : List A) (n : Node W) : Prop where
  | atOnce (hstart : n = n₀) (hothers : others = []) (hended : n.phase = .ended (some f))
  | later {before : Node W} {es : List (NodeEvent A)} {e : NodeEvent A}
      (hyields : Yields (act? outside) n₀ es before) (hothers : others = es.filterMap (·.outside?))
      (hopen : ∀ result, before.phase ≠ .ended result) (hact : before.act? outside e = some n)
      (hended : n.phase = .ended (some f))

end Node

end FleetSharding
