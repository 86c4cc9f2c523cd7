import FleetSharding.Proofs.Coordinator.Announcement

/-!
# What is released is released for good

However a coordinator comes to its end, it goes through one release: the delayed strand is over by
then, both filters are removed while the ownership is held, and only then it says that it has
stopped.

* `release_of_moves`, `moves_of_closing`: how a coordinator begins to close, and what can happen
  while it does.
* `Unwinding`, `unwinding_of_run`: how far a release is, and what has come of it so far.
* `isZero_of_crashed`: the one other end there is, a crash, needs ticks without time between them.
* `released_of_returned`: when a coordinator returns everything is released, and stays so.
-/

namespace FleetSharding

/-- Whether one of a coordinator's own two filters is installed. -/
def Registry.hasOwn (r : Registry) : Bool := r.has mainFilter || r.has extraFilter

/-- A registry has none of a coordinator's filters if it has neither. -/
theorem Registry.hasOwn_eq_false_iff {r : Registry} :
    r.hasOwn = false ↔ r.has mainFilter = false ∧ r.has extraFilter = false := by
  rw [hasOwn, Bool.or_eq_false_iff]

/-- If it is not the main one it is the other, whatever else may count. -/
theorem Registry.or_has_extra_of_hasOwn {r : Registry} (h : r.hasOwn = true)
    (hmain : r.has mainFilter = false) (b : Bool) : (b || r.has extraFilter) = true := by
  rw [hasOwn, hmain, Bool.false_or] at h
  rw [h, Bool.or_true]

namespace Moment

/-- The release is under way, and there is something left to remove. -/
def Reclaims (m : Moment) : Prop :=
  m.before.main.point = .releasing ∧ m.before.registry.hasOwn = true

instance (m : Moment) : Decidable m.Reclaims := inferInstanceAs (Decidable (_ ∧ _))

/-- The release asks for a refresh, with nothing left to remove. -/
def Recalls (m : Moment) : Prop :=
  m.before.main.point = .releasing ∧ m.before.refreshes m.step = true ∧
    m.before.registry.hasOwn = false

end Moment

/-- Whatever there was to remove, a refresh was asked for after it was gone. -/
def Recalled (log : List Moment) : Prop :=
  ∀ later m earlier, log = later ++ m :: earlier → m.Reclaims → ∃ r ∈ later, r.Recalls

section Recalled

variable {log : List Moment} {m : Moment}

/-- Where there was nothing to remove, no refresh is owed. -/
theorem recalled_of_forall (h : ∀ m ∈ log, ¬ m.Reclaims) : Recalled log := by
  rintro later m earlier rfl hm
  exact absurd hm (h m (by simp))

/-- A moment with nothing to remove leaves no refresh to ask for. -/
theorem Recalled.cons (h : Recalled log) (hm : ¬ m.Reclaims) : Recalled (m :: log) := by
  intro later m' earlier hsplit hm'
  cases later with
  | nil =>
      obtain ⟨rfl, -⟩ := List.cons.inj hsplit
      exact absurd hm' hm
  | cons r later =>
      obtain ⟨-, hlog⟩ := List.cons.inj hsplit
      obtain ⟨r', hr', hrecalls⟩ := h later m' earlier hlog hm'
      exact ⟨r', List.mem_cons_of_mem _ hr', hrecalls⟩

/-- Asking for a refresh answers for all that was there before. -/
theorem recalled_cons (hm : m.Recalls) : Recalled (m :: log) := by
  intro later m' earlier hsplit hm'
  cases later with
  | nil =>
      obtain ⟨rfl, -⟩ := List.cons.inj hsplit
      exact nomatch (hm'.2.symm.trans hm.2.2)
  | cons r later =>
      obtain ⟨rfl, -⟩ := List.cons.inj hsplit
      exact ⟨_, List.mem_cons_self, hm⟩

end Recalled

namespace Coordinator

variable {c c' : Coordinator} {log : List Moment}

/-- No action begins to close; the last one of a release comes when all else is closed. -/
theorem open_exec_main (h : c.work.Disciplined) {a : Action} {rest : List Action}
    (htodo : c.main.todo = a :: rest) (hopen : c.main.point.isClosing = false) :
    (exec .main a (c.setTodo .main rest)).1.main.point.isClosing = false := by
  have hmain : Orderly .main (c.owner = some .main) c.main.point c.delayed.point (a :: rest) :=
    htodo ▸ h.main
  rcases point_exec .main a (c.setTodo .main rest) with hsame | ⟨-, -, hend⟩ | ⟨o, rfl, -⟩
  · rw [hsame, setTodo_point, hopen]
  · rw [hend]
    rfl
  · rw [hmain.2.1] at hopen
    cases hopen

/-- A coordinator that is not seen in time goes to release everything. -/
theorem release_of_retry {attempt : Nat} {l : List Action}
    (hclosing : (c.retry attempt l).main.point.isClosing = true) :
    c.retry attempt l = c.release (.timedOut c.attempts) l := by
  unfold retry at hclosing ⊢
  split
  · next hmore =>
    rw [if_pos hmore] at hclosing
    cases hclosing
  · rfl

/-- **A coordinator begins to close by going to release everything**, with nothing to write before
it does so. -/
theorem release_of_moves {s : Step} {es : List Effect} (h : c.work.Disciplined)
    (hm : Moves c s c' es) (hopen : c.main.point.isClosing = false)
    (hclosing : c'.main.point.isClosing = true) :
    ∃ o before, (∀ a ∈ before, a.isOrdinary = true ∧ a.isWrite = false) ∧
      c' = c.release o before := by
  have habsurd : ∀ {d : Coordinator}, d.main.point.isClosing = true →
      d.main.point.isClosing = false → ∃ o before,
        (∀ a ∈ before, a.isOrdinary = true ∧ a.isWrite = false) ∧ d = c.release o before := by
    intro d hd hd'
    exact nomatch (hd.symm.trans hd')
  cases hm with
  | @act t a rest htodo _ =>
      cases t with
      | main => exact habsurd hclosing (open_exec_main h htodo hopen)
      | delayed => exact habsurd hclosing (by rw [(exec_delayed_frame h htodo).1, hopen])
  | @registration attempt a _ _ =>
      cases a with
      | error e =>
          exact ⟨_, _, by simp [Action.isOrdinary, Action.isWrite], release_of_retry hclosing⟩
      | ok members =>
          unfold onRegistration at hclosing ⊢
          dsimp only at hclosing ⊢
          split at hclosing
          · cases hclosing
          · exact ⟨_, _, by simp [Action.isOrdinary, Action.isWrite], release_of_retry hclosing⟩
  | @warmup a _ _ =>
      cases a with
      | error e => cases hclosing
      | ok members =>
          unfold onWarmup at hclosing ⊢
          dsimp only at hclosing ⊢
          split at hclosing <;> cases hclosing
  | @rebalance a _ _ => cases a <;> cases hclosing
  | @check a _ _ => cases a <;> exact habsurd hclosing hopen
  | cut =>
      obtain ⟨owner, queue, hcut⟩ := exists_cutDelayed_eq c
      rw [hcut] at hclosing ⊢
      exact habsurd hclosing hopen
  | leave | join => exact ⟨.completed, [], by simp, rfl⟩
  | wakeRetrying | wakeWaiting | enter | halt | tick => cases hclosing
  | queue | wakeDelayed | stopDelayed | tickIdle | hear | hearEnd | pass | request | change
  | changesEnd => exact habsurd hclosing hopen

/-- **While a coordinator closes, its main strand acts, or nothing of it changes.** -/
theorem moves_of_closing {s : Step} {es : List Effect} (h : c.work.Disciplined)
    (hm : Moves c s c' es) (hclosing : c.main.point.isClosing = true) :
    (∃ a rest, s = .run .main ∧ c.main.todo = a :: rest ∧
        c' = (exec .main a (c.setTodo .main rest)).1) ∨
      (c'.main = c.main ∧ c'.registry = c.registry ∧ c'.status = c.status) := by
  obtain ⟨hnone, hover⟩ := h.closing hclosing
  have hdelayed : c.delayed.todo = [] := hnone
  have hpoint : c.delayed.point = .unborn ∨ c.delayed.point = .ended := hover
  cases hm with
  | @act t a rest htodo _ =>
      cases t with
      | main => exact Or.inl ⟨a, rest, rfl, htodo, rfl⟩
      | delayed => cases hdelayed.symm.trans htodo
  | check _ hp | wakeDelayed _ hp | stopDelayed _ hp _ =>
      rcases hpoint with hpoint | hpoint <;> cases hpoint.symm.trans hp
  | cut hcut =>
      rcases hpoint with hpoint | hpoint <;>
        simp [mayCut, delayedIsOver, hdelayed, hpoint] at hcut
  | leave _ hp hpause _ =>
      rcases hpause with rfl | rfl | ⟨attempt, rfl⟩ <;> rw [hp] at hclosing <;> cases hclosing
  | registration _ hp | warmup _ hp | rebalance _ hp | wakeRetrying _ hp | wakeWaiting _ hp
  | enter _ hp _ | halt _ hp _ | tick _ hp _ | tickIdle _ hp _ | hear _ hp _ _ | hearEnd _ hp _ _
  | join _ hp _ =>
      rw [hp] at hclosing
      cases hclosing
  | queue | pass | request | change | changesEnd => exact Or.inr ⟨rfl, rfl, rfl⟩

/-- Both filters are gone, and the status says that this coordinator has stopped. -/
structure Cleared (log : List Moment) (c : Coordinator) : Prop where
  gone : c.registry.hasOwn = false
  recalled : Recalled log
  phase : c.status.phase = .stopped
  filters : c.status.filters = c.registry.names

/-- How far a release is, and what has come of it so far. -/
inductive Unwinding (log : List Moment) (c : Coordinator) : Prop
  | begun {o : Outcome} {before : List Action} (hpoint : c.main.point = .releasing)
      (hbefore : ∀ a ∈ before, a.isOrdinary = true ∧ a.isWrite = false)
      (htodo : c.main.todo = before ++ releaseActions o)
      (hlog : ∀ m ∈ log, m.Reclaims → c.registry.hasOwn = true)
  | owning {o : Outcome} (hpoint : c.main.point = .releasing)
      (htodo : c.main.todo = [.dropMain, .publish (.phase .stopped), .unlock, .finish o])
      (hlog : ∀ m ∈ log, m.Reclaims → c.registry.hasOwn = true)
  /-- The main filter is gone. -/
  | halfway {o : Outcome} {hadMain : Bool} (hpoint : c.main.point = .releasing)
      (htodo : c.main.todo = [.dropExtra hadMain, .publish (.phase .stopped), .unlock, .finish o])
      (hmain : c.registry.has mainFilter = false)
      (hlog : ∀ m ∈ log, m.Reclaims → (hadMain || c.registry.has extraFilter) = true)
  | recalling {o : Outcome} (hpoint : c.main.point = .releasing)
      (htodo : c.main.todo = [.requestRefresh, .publish (.phase .stopped), .unlock, .finish o])
      (hgone : c.registry.hasOwn = false)
  | recalled {o : Outcome} (hpoint : c.main.point = .releasing)
      (htodo : c.main.todo = [.publish (.phase .stopped), .unlock, .finish o])
      (hgone : c.registry.hasOwn = false) (hlog : Recalled log)
  | cleared (hclosing : c.main.point.isClosing = true)
      (htodo : ∀ a ∈ c.main.todo, a = .unlock ∨ ∃ o, a = .finish o) (hcleared : Cleared log c)

namespace Unwinding

/-- However far a release is, the main strand is closing. -/
theorem closing (h : Unwinding log c) : c.main.point.isClosing = true := by
  cases h with
  | cleared hclosing => exact hclosing
  | begun hpoint | owning hpoint | halfway hpoint | recalling hpoint | recalled hpoint =>
      rw [hpoint]
      rfl

/-- What has happened goes on to hold when there is as much to remove as before. -/
theorem forall_cons {s : Step} {es : List Effect} {left : Bool}
    (h : ∀ m ∈ log, m.Reclaims → left = true) (hleft : c.registry.hasOwn = true → left = true) :
    ∀ m ∈ (⟨c, s, es⟩ :: log : List Moment), m.Reclaims → left = true := by
  intro m hm hreclaims
  rcases List.mem_cons.1 hm with rfl | hm
  · exact hleft hreclaims.2
  · exact h m hm hreclaims

/-- With nothing left to remove nothing more has to be asked for. -/
theorem recalled_cons_of_gone {s : Step} {es : List Effect} (h : Recalled log)
    (hgone : c.registry.hasOwn = false) : Recalled (⟨c, s, es⟩ :: log) :=
  h.cons fun hreclaims => nomatch (hgone.symm.trans hreclaims.2)

/-- A release stays where it is while the main strand does nothing. -/
theorem stay {s : Step} {es : List Effect} (h : Unwinding log c) (hmain : c'.main = c.main)
    (hregistry : c'.registry = c.registry) (hstatus : c'.status = c.status) :
    Unwinding (⟨c, s, es⟩ :: log) c' := by
  cases h with
  | begun hpoint hbefore htodo hlog =>
      refine .begun (hmain ▸ hpoint) hbefore (hmain ▸ htodo) ?_
      rw [hregistry]
      exact forall_cons hlog id
  | owning hpoint htodo hlog =>
      refine .owning (hmain ▸ hpoint) (hmain ▸ htodo) ?_
      rw [hregistry]
      exact forall_cons hlog id
  | halfway hpoint htodo hgone hlog =>
      refine .halfway (hmain ▸ hpoint) (hmain ▸ htodo) (hregistry ▸ hgone) ?_
      rw [hregistry]
      exact forall_cons hlog fun hown => Registry.or_has_extra_of_hasOwn hown hgone _
  | recalling hpoint htodo hgone =>
      exact .recalling (hmain ▸ hpoint) (hmain ▸ htodo) (hregistry ▸ hgone)
  | recalled hpoint htodo hgone hlog =>
      exact .recalled (hmain ▸ hpoint) (hmain ▸ htodo) (hregistry ▸ hgone)
        (recalled_cons_of_gone hlog hgone)
  | cleared hclosing htodo hcleared =>
      obtain ⟨hgone, hlog, hphase, hfilters⟩ := hcleared
      refine .cleared (hmain ▸ hclosing) (hmain ▸ htodo)
        ⟨hregistry ▸ hgone, recalled_cons_of_gone hlog hgone, hstatus ▸ hphase, ?_⟩
      rw [hstatus, hregistry, hfilters]

/-- Before anything is removed the ownership has to be taken. -/
theorem act_begun {a : Action} {rest : List Action} {es : List Effect} {o : Outcome}
    {before : List Action} (hpoint : c.main.point = .releasing)
    (hbefore : ∀ a ∈ before, a.isOrdinary = true ∧ a.isWrite = false)
    (htodo : c.main.todo = before ++ releaseActions o)
    (hlog : ∀ m ∈ log, m.Reclaims → c.registry.hasOwn = true)
    (hnext : c.main.todo = a :: rest) :
    Unwinding (⟨c, .run .main, es⟩ :: log) (exec .main a (c.setTodo .main rest)).1 := by
  rw [htodo] at hnext
  cases before with
  | nil =>
      obtain ⟨rfl, rfl⟩ := List.cons.inj hnext
      exact .owning hpoint rfl (forall_cons hlog id)
  | cons b before =>
      obtain ⟨rfl, rfl⟩ := List.cons.inj hnext
      have hrest : ∀ a ∈ before, a.isOrdinary = true ∧ a.isWrite = false :=
        fun a ha => hbefore a (List.mem_cons_of_mem _ ha)
      obtain ⟨hordinary, hwrite⟩ := hbefore b List.mem_cons_self
      cases b with
      | report | measure | requestRefresh | sleep =>
          exact .begun hpoint hrest rfl (forall_cons hlog id)
      | installMain | installExtra | removeMain | removeExtra | dropMain | dropExtra
      | setSuspended | publish => cases hwrite
      | _ => cases hordinary

/-- **What the main strand does next takes the release further.** -/
theorem act (h : Unwinding log c) (hd : c.work.Disciplined) {a : Action} {rest : List Action}
    {es : List Effect} (hnext : c.main.todo = a :: rest) :
    Unwinding (⟨c, .run .main, es⟩ :: log) (exec .main a (c.setTodo .main rest)).1 := by
  have hclosing : c.main.point.isClosing = true := h.closing
  cases h with
  | begun hpoint hbefore htodo hlog => exact act_begun hpoint hbefore htodo hlog hnext
  | owning hpoint htodo hlog =>
      obtain ⟨rfl, rfl⟩ := List.cons.inj (htodo.symm.trans hnext)
      have hlog' : ∀ m ∈ (⟨c, .run .main, es⟩ :: log : List Moment), m.Reclaims →
          (c.registry.has mainFilter || (c.registry.remove mainFilter).has extraFilter) = true := by
        rw [Registry.has_remove_of_ne Registry.mainFilter_ne_extraFilter]
        exact forall_cons hlog id
      exact .halfway hpoint rfl (Registry.has_remove_self _ _) hlog'
  | halfway hpoint htodo hmain hlog =>
      obtain ⟨rfl, rfl⟩ := List.cons.inj (htodo.symm.trans hnext)
      have hgone : (c.registry.remove extraFilter).hasOwn = false := by
        rw [Registry.hasOwn_eq_false_iff, Registry.has_remove_self,
          Registry.has_remove_of_ne Registry.mainFilter_ne_extraFilter.symm]
        exact ⟨hmain, rfl⟩
      simp only [exec]
      split
      · exact .recalling hpoint rfl hgone
      · next hnone =>
        refine .recalled hpoint rfl hgone (recalled_of_forall fun m hm hreclaims => hnone ?_)
        exact forall_cons hlog (fun hown => Registry.or_has_extra_of_hasOwn hown hmain _) m hm
          hreclaims
  | recalling hpoint htodo hgone =>
      obtain ⟨rfl, rfl⟩ := List.cons.inj (htodo.symm.trans hnext)
      refine .recalled hpoint rfl hgone (recalled_cons ⟨hpoint, ?_, hgone⟩)
      rw [refreshes, show c.todo .main = _ from htodo]
  | recalled hpoint htodo hgone hlog =>
      obtain ⟨rfl, rfl⟩ := List.cons.inj (htodo.symm.trans hnext)
      exact .cleared hclosing (by simp [exec, setTodo, publish])
        ⟨hgone, recalled_cons_of_gone hlog hgone, rfl, rfl⟩
  | cleared _ htodo hcleared =>
      obtain ⟨hgone, hlog, hphase, hfilters⟩ := hcleared
      have hlog' : Recalled (⟨c, .run .main, es⟩ :: log) := recalled_cons_of_gone hlog hgone
      rw [hnext] at htodo
      rcases htodo a List.mem_cons_self with rfl | ⟨o, rfl⟩
      · simp only [exec, handOver_eq]
        exact .cleared hclosing (fun b hb => htodo b (List.mem_cons_of_mem _ hb))
          ⟨hgone, hlog', hphase, hfilters⟩
      · have hmain : Orderly .main (c.owner = some .main) c.main.point c.delayed.point
            (.finish o :: rest) := hnext ▸ hd.main
        exact .cleared (MainPoint.isClosing_ended hmain.2.2.1) (by simp [exec, goMain])
          ⟨hgone, hlog', hphase, hfilters⟩

end Unwinding

/-- Every move of a coordinator that releases everything takes the release further, or leaves it
where it is. -/
theorem unwinding_of_moves {s : Step} {es : List Effect} (hd : c.work.Disciplined)
    (hm : Moves c s c' es) (h : Unwinding log c) : Unwinding (⟨c, s, es⟩ :: log) c' := by
  rcases moves_of_closing hd hm h.closing with ⟨a, rest, rfl, hnext, rfl⟩ |
    ⟨hmain, hregistry, hstatus⟩
  · exact h.act hd hnext
  · exact h.stay hmain hregistry hstatus

/-- **Whoever closes has begun a release**, and before that there is none. -/
theorem unwinding_of_run {c₀ : Coordinator} (hrun : Run c₀ log c) (hd : c₀.work.Disciplined)
    (hopen : c₀.main.point.isClosing = false) :
    (c.main.point.isClosing = false → ∀ m ∈ log, m.before.main.point ≠ .releasing) ∧
      (c.main.point.isClosing = true → Unwinding log c) := by
  induction hrun with
  | start => exact ⟨fun _ => by simp, fun hclosing => nomatch (hopen.symm.trans hclosing)⟩
  | @step log c c' s es hrun hstep ih =>
      have hdc : c.work.Disciplined := disciplined_of_run hrun hd
      have hm := moves_of_step? hstep
      cases hc : c.main.point.isClosing with
      | true =>
          have hnext := unwinding_of_moves hdc hm (ih.2 hc)
          exact ⟨fun hopen' => (nomatch hopen'.symm.trans hnext.closing), fun _ => hnext⟩
      | false =>
          have hlog : ∀ m ∈ (⟨c, s, es⟩ :: log : List Moment),
              m.before.main.point ≠ .releasing := by
            intro m hmem hreleasing
            rcases List.mem_cons.1 hmem with rfl | hmem
            · rw [show c.main.point = .releasing from hreleasing] at hc
              cases hc
            · exact ih.1 hc m hmem hreleasing
          refine ⟨fun _ => hlog, fun hclosing => ?_⟩
          obtain ⟨o, before, hbefore, rfl⟩ := release_of_moves hdc hm hc hclosing
          exact .begun rfl hbefore rfl fun m hmem hreclaims => absurd hreclaims.1 (hlog m hmem)

/-- **Once a coordinator has returned, nothing of it changes any more.** -/
theorem still_of_run (hrun : Run c log c') (hd : c.work.Disciplined) {o : Outcome}
    (hended : c.main.point = .ended o) (ho : o ≠ .crashed) :
    c'.main = c.main ∧ c'.registry = c.registry ∧ c'.status = c.status := by
  induction hrun with
  | start => exact ⟨rfl, rfl, rfl⟩
  | @step log c₁ c₂ s es hrun hstep ih =>
      obtain ⟨hmain, hregistry, hstatus⟩ := ih
      have hclosing : c₁.main.point.isClosing = true := by
        rw [hmain, hended]
        exact MainPoint.isClosing_ended ho
      have hnone : c₁.main.todo = [] := hmain ▸ hd.ended o hended
      rcases moves_of_closing (disciplined_of_run hrun hd) (moves_of_step? hstep) hclosing with
        ⟨a, rest, -, hnext, -⟩ | ⟨hmain', hregistry', hstatus'⟩
      · cases hnone.symm.trans hnext
      · exact ⟨hmain'.trans hmain, hregistry'.trans hregistry, hstatus'.trans hstatus⟩

/-- A coordinator crashes only where it starts to tick, with no time between two ticks. -/
theorem crashed_of_moves {s : Step} {es : List Effect} (h : c.work.Disciplined)
    (hm : Moves c s c' es) (hcrashed : c'.main.point = .ended .crashed) :
    c.main.point = .ended .crashed ∨ c.timers.watchInterval.isZero = true := by
  cases hm with
  | @act t a rest htodo _ =>
      rcases point_exec t a (c.setTodo t rest) with hsame | ⟨-, hzero, -⟩ | ⟨o, rfl, hend⟩
      · rw [hsame, setTodo_point] at hcrashed
        exact Or.inl hcrashed
      · cases t <;> exact Or.inr hzero
      · -- The release never ends in a crash.
        obtain rfl : o = .crashed := MainPoint.ended.inj (hend.symm.trans hcrashed)
        cases t with
        | main =>
            have hmain : Orderly .main (c.owner = some .main) c.main.point c.delayed.point
                (.finish .crashed :: rest) := (show c.main.todo = _ from htodo) ▸ h.main
            exact absurd rfl hmain.2.2.1
        | delayed =>
            have hdelayed : Orderly .delayed (c.owner = some .delayed) c.main.point
                c.delayed.point (.finish .crashed :: rest) :=
              (show c.delayed.todo = _ from htodo) ▸ h.delayed
            cases hdelayed.1
  | @registration attempt a _ _ =>
      unfold onRegistration retry at hcrashed
      grind [goMain, release]
  | @warmup a _ _ =>
      unfold onWarmup at hcrashed
      grind [goMain, release]
  | @rebalance a _ _ => cases a <;> cases hcrashed
  | @check a _ _ => cases a <;> exact Or.inl hcrashed
  | cut =>
      obtain ⟨owner, queue, hcut⟩ := exists_cutDelayed_eq c
      rw [hcut] at hcrashed
      exact Or.inl hcrashed
  | wakeRetrying | wakeWaiting | enter | leave | halt | tick | join => cases hcrashed
  | queue | wakeDelayed | stopDelayed | tickIdle | hear | hearEnd | pass | request | change
  | changesEnd => exact Or.inl hcrashed

/-- So whoever has time between two ticks does not crash. -/
theorem isZero_of_crashed {c₀ : Coordinator} (hrun : Run c₀ log c) (hd : c₀.work.Disciplined)
    (halive : c₀.main.point ≠ .ended .crashed) (hcrashed : c.main.point = .ended .crashed) :
    c₀.timers.watchInterval.isZero = true := by
  induction hrun with
  | start => exact absurd hcrashed halive
  | step hrun hstep ih =>
      rcases crashed_of_moves (disciplined_of_run hrun hd) (moves_of_step? hstep) hcrashed with
        hbefore | hzero
      · exact ih hbefore
      · rw [← hrun.timers.1]
        exact hzero

/-- Everything that a coordinator had is released, and it is known. -/
structure Released (log : List Moment) (c : Coordinator) : Prop where
  main : c.registry.has mainFilter = false
  extra : c.registry.has extraFilter = false
  /-- The delayed strand has ended, if it was ever started. -/
  finished : c.delayedIsOver = true
  /-- Nothing that comes later changes anything. -/
  lasting : ∀ log' c', Run c log' c' → c'.registry = c.registry ∧ c'.status = c.status
  phase : c.status.phase = .stopped
  filters : c.status.filters = c.registry.names
  unlisted : mainFilter ∉ c.status.filters ∧ extraFilter ∉ c.status.filters
  recalled : Recalled log

/-- A coordinator about to start over a registry in which others may have filters, too. -/
def startIn (cluster : ClusterConfig) (timers : TimerConfig) (registry : Registry)
    (updates changes : Signal) (clock : Nat) : Coordinator :=
  { start cluster timers registry.devices updates changes clock with registry }

/-- Over a registry without filters it starts as always. -/
theorem startIn_ofDevices (cluster : ClusterConfig) (timers : TimerConfig) (devices : List Device)
    (updates changes : Signal) (clock : Nat) :
    startIn cluster timers (.ofDevices devices) updates changes clock =
      start cluster timers devices updates changes clock := rfl

section Started

variable {cluster : ClusterConfig} {timers : TimerConfig} {registry : Registry}
  {updates changes : Signal} {clock : Nat} {o : Outcome}

/-- **Whatever is answered, and whenever the shutdown comes or the attempts run out, a coordinator
that returns has released everything, for good.**  A crash is not a return; see
`isZero_of_crashed`. -/
theorem released_of_returned
    (hrun : Run (startIn cluster timers registry updates changes clock) log c)
    (hreturned : c.outcome? = some o) (ho : o ≠ .crashed) : Released log c := by
  have hd₀ : (startIn cluster timers registry updates changes clock).work.Disciplined :=
    disciplined_start cluster timers registry.devices updates changes clock
  have hd : c.work.Disciplined := disciplined_of_run hrun hd₀
  have hended : c.main.point = .ended o := by
    unfold outcome? at hreturned
    split at hreturned
    · next hpoint => rw [hpoint, Option.some.inj hreturned]
    · cases hreturned
  have hclosing : c.main.point.isClosing = true := by
    rw [hended]
    exact MainPoint.isClosing_ended ho
  cases (unwinding_of_run hrun hd₀ rfl).2 hclosing with
  | cleared _ _ hcleared =>
      obtain ⟨hgone, hrecalled, hphase, hfilters⟩ := hcleared
      obtain ⟨hmain, hextra⟩ := Registry.hasOwn_eq_false_iff.1 hgone
      refine ⟨hmain, hextra, ?_, fun log' c' hrun' => (still_of_run hrun' hd hended ho).2, hphase,
        hfilters, ?_, hrecalled⟩
      · rw [delayedIsOver, Bool.and_eq_true, List.isEmpty_iff, Bool.or_eq_true, beq_iff_eq,
          beq_iff_eq]
        exact hd.closing hclosing
      · rw [hfilters, Registry.mem_names_iff, Registry.mem_names_iff, hmain, hextra]
        exact ⟨Bool.false_ne_true, Bool.false_ne_true⟩
  | begun hpoint | owning hpoint | halfway hpoint | recalling hpoint | recalled hpoint =>
      cases hended.symm.trans hpoint

/-- The second of two nodes takes over, and is stopped before it can say so. -/
def stoppedSteps : List Step :=
  failoverSteps.take 18 ++
    [.run .delayed, .pass 70000000000, .wake .delayed, .run .delayed, .run .delayed,
      .answer .delayed (.ok (membersOfTwo .critical))] ++ List.replicate 5 (.run .delayed) ++
    [.request (.send true), .stop .main, .run .main, .cut, .join] ++ List.replicate 7 (.run .main)

/-- Then it collects nothing any more. -/
theorem released_of_two :
    ∃ log c, Run (ofTwo "b") log c ∧ c.outcome? = some .completed ∧ wasInterrupted log = true ∧
      (∃ m ∈ log, m.Reclaims ∧ m.before.registry.selected = devicesOfTwo) ∧
      c.registry.selected = [] ∧ Released log c := by
  obtain ⟨log, c, hrun, hcheck⟩ := exists_run_of_follow (ofTwo "b") stoppedSteps
    (fun log c => c.outcome? == some .completed && wasInterrupted log &&
      log.any (fun m => decide m.Reclaims && m.before.registry.selected == devicesOfTwo) &&
      c.registry.selected == []) (by decide +kernel)
  simp only [Bool.and_eq_true, beq_iff_eq, List.any_eq_true, decide_eq_true_eq] at hcheck
  obtain ⟨⟨⟨hreturned, hinterrupted⟩, hreclaims⟩, hselected⟩ := hcheck
  have hrun' := hrun
  rw [ofTwo, ← startIn_ofDevices] at hrun'
  exact ⟨log, c, hrun, hreturned, hinterrupted, hreclaims, hselected,
    released_of_returned hrun' hreturned (by nofun)⟩

end Started

end Coordinator

end FleetSharding
