import FleetSharding.Proofs.Coordinator.Discipline
import Mathlib.Logic.Function.Basic

/-!
# What a coordinator knows of changes

A change of the membership reaches a coordinator by way of a signal, which is pending in a channel
until it is heard of, and by a flag, which is raised when it is heard of and lowered when a decision
has been carried out.

* `Heeds`, `heeds_of_moves`: what each move does to the channel and to the flag.
* `awaits_of_moves`: while the main strand waits for an answer, only the answer moves it.
* `ended_of_moves`: an end is for good.
* `stillHeld`: the answers on their way to the two strands after a step.
-/

namespace FleetSharding

/-- What is on its way to the strands after a step.  An answer takes what it brings, and the end of
the delayed strand what was to come to that. -/
def stillHeld {α : Type} (held : Task → Option α) : Step → Task → Option α
  | .answer t _ => Function.update held t none
  | .cut => Function.update held .delayed none
  | _ => held

/-- What is still held was held before, by a strand that was neither answered nor cut off. -/
theorem held_of_stillHeld {α : Type} {held : Task → Option α} {s : Step} {t : Task} {x : α}
    (h : stillHeld held s t = some x) :
    held t = some x ∧ (∀ a, s ≠ .answer t a) ∧ (t = .delayed → s ≠ .cut) := by
  unfold stillHeld at h
  split at h
  · next t' a =>
    by_cases ht : t = t'
    · subst ht
      simp at h
    · rw [Function.update_of_ne ht] at h
      exact ⟨h, fun b hb => ht (by cases hb; rfl), nofun⟩
  · by_cases ht : t = .delayed
    · subst ht
      simp at h
    · rw [Function.update_of_ne ht] at h
      exact ⟨h, nofun, fun hdelayed => absurd hdelayed ht⟩
  · next hanswer hcut => exact ⟨h, hanswer t, fun _ => hcut⟩

/-- Whether an action lowers the flag. -/
def Action.isSettle : Action → Bool
  | .settle => true
  | _ => false

namespace Coordinator

variable {c c' : Coordinator}

/-- Whether the main strand is about to lower the flag, once a decision is carried out. -/
def settles (c : Coordinator) : Bool := c.main.todo.any Action.isSettle

/-- Whether a strand waits for an answer. -/
def awaits (c : Coordinator) : Task → Bool
  | .main =>
    c.main.todo.isEmpty &&
      match c.main.point with
      | .registering _ | .warming | .rebalancing => true
      | _ => false
  | .delayed => c.delayed.todo.isEmpty && c.delayed.point == .checking

/-- What a step does to what is known of changes. -/
inductive Heeds (c : Coordinator) : Step → Coordinator → Prop
  /-- No signal is taken.  The flag stays, and will be lowered only after an answer. -/
  | keep {s : Step} {c' : Coordinator} (hopen : c'.changes.isOpen = c.changes.isOpen)
      (hlimit : c'.changes.limit = c.changes.limit)
      (hpending : c.changes.pending ≤ c'.changes.pending) (hdirty : c'.dirty = c.dirty)
      (hlistening : c'.listening = c.listening)
      (hsettles : c'.settles = true → c.settles = true ∨
        c.main.point = .rebalancing ∧ ∃ members, s = .answer .main (.ok members)) :
      Heeds c s c'
  | hear (htodo : c.main.todo = []) (hpoint : c.main.point = .steady) :
      Heeds c .hear { c with dirty := true, changes := c.changes.receive }
  | hearEnd : Heeds c .hearEnd { c with dirty := true, listening := false }
  /-- The flag is lowered. -/
  | settle (htodo : c.main.todo = [.settle]) :
      Heeds c (.run .main) { c.setTodo .main [] with dirty := !c.listening }
  | close {s : Step} {c' : Coordinator} (hclosed : c'.changes.isOpen = false)
      (hended : ∃ o, c'.main.point = .ended o) : Heeds c s c'

/-- With the channel, the flag and the work of the main strand as they were, nothing is heeded. -/
theorem Heeds.same {s : Step} (hchanges : c'.changes = c.changes) (hdirty : c'.dirty = c.dirty)
    (hlistening : c'.listening = c.listening) (htodo : c'.main.todo = c.main.todo) :
    Heeds c s c' := by
  refine .keep ?_ ?_ ?_ hdirty hlistening (fun hsettles => Or.inl ?_)
  · rw [hchanges]
  · rw [hchanges]
  · exact Nat.le_of_eq (by rw [hchanges])
  · rwa [settles, htodo] at hsettles

/-- Nor is it when the main strand is sent to do anything but lower the flag. -/
theorem Heeds.goMain {s : Step} {p : MainPoint} {l : List Action}
    (hl : ∀ a ∈ l, a.isSettle = false) : Heeds c s (c.goMain p l) := by
  refine .keep rfl rfl (Nat.le_refl _) rfl rfl ?_
  intro hsettles
  obtain ⟨a, ha, hsettle⟩ := List.any_eq_true.1 hsettles
  rw [hl a ha] at hsettle
  cases hsettle

/-- What the main strand does, step by step. -/
theorem heeds_exec_main (h : c.work.Disciplined) {a : Action} {rest : List Action}
    (htodo : c.main.todo = a :: rest) :
    Heeds c (.run .main) (exec .main a (c.setTodo .main rest)).1 := by
  have hmain : Orderly .main (c.owner = some .main) c.main.point c.delayed.point (a :: rest) :=
    htodo ▸ h.main
  have hrest : ∀ {l : List Action}, l.any Action.isSettle = rest.any Action.isSettle →
      l.any Action.isSettle = true → c.settles = true := by
    intro l hl hsettles
    rw [hl] at hsettles
    rw [settles, htodo, List.any_cons, hsettles, Bool.or_true]
  cases a with
  | settle =>
      obtain ⟨-, -, rfl⟩ := hmain
      exact .settle htodo
  | unlock =>
      simp only [exec, handOver_eq]
      exact .keep rfl rfl (Nat.le_refl _) rfl rfl (fun hs => Or.inl (hrest rfl hs))
  | look => cases hmain.1
  | startTicker =>
      simp only [exec]
      split
      · exact .close rfl ⟨.crashed, rfl⟩
      · exact .keep rfl rfl (Nat.le_refl _) rfl rfl (fun hs => Or.inl (hrest rfl hs))
  | finish o => exact .close rfl ⟨o, rfl⟩
  | dropMain => exact .keep rfl rfl (Nat.le_refl _) rfl rfl (fun hs => Or.inl (hrest rfl hs))
  | dropExtra hadMain =>
      simp only [exec]
      split <;> exact .keep rfl rfl (Nat.le_refl _) rfl rfl (fun hs => Or.inl (hrest rfl hs))
  | _ => exact .keep rfl rfl (Nat.le_refl _) rfl rfl (fun hs => Or.inl (hrest rfl hs))

/-- Releasing everything lowers no flag. -/
theorem isSettle_of_mem_releaseActions {o : Outcome} {a : Action} (ha : a ∈ releaseActions o) :
    a.isSettle = false := by
  simp only [releaseActions, List.mem_cons, List.not_mem_nil, or_false] at ha
  rcases ha with rfl | rfl | rfl | rfl | rfl <;> rfl

/-- Looking once more, or giving up, lowers no flag. -/
theorem heeds_retry {s : Step} {attempt : Nat} {l : List Action}
    (hl : ∀ a ∈ l, a.isSettle = false) : Heeds c s (c.retry attempt l) := by
  unfold retry
  split
  · refine .goMain ?_
    intro a ha
    rcases List.mem_append.1 ha with ha | ha
    · exact hl a ha
    · obtain rfl := List.mem_singleton.1 ha
      rfl
  · refine .goMain ?_
    intro a ha
    rcases List.mem_append.1 ha with ha | ha
    · exact hl a ha
    · exact isSettle_of_mem_releaseActions ha

/-- **Every move heeds the changes in one of these ways.** -/
theorem heeds_of_moves {s : Step} {es : List Effect} (h : c.work.Disciplined)
    (hm : Moves c s c' es) : Heeds c s c' := by
  cases hm with
  | queue => exact .same rfl rfl rfl rfl
  | @act t a rest htodo _ =>
      cases t with
      | main => exact heeds_exec_main h htodo
      | delayed =>
          obtain ⟨hmain, hchanges, hdirty, hlistening⟩ := exec_delayed_frame h htodo
          exact .same hchanges hdirty hlistening (by rw [hmain])
  | @registration attempt a _ _ =>
      cases a with
      | error e => exact heeds_retry (by simp [Action.isSettle])
      | ok members =>
          unfold onRegistration
          dsimp only
          split
          · exact .keep rfl rfl (Nat.le_refl _) rfl rfl (fun hs => nomatch hs)
          · exact heeds_retry (by simp [Action.isSettle])
  | @warmup a _ _ =>
      cases a with
      | error e => exact .goMain (by simp [Action.isSettle])
      | ok members =>
          unfold onWarmup
          dsimp only
          split <;> exact .goMain (by simp [Action.isSettle])
  | @rebalance a _ hpoint =>
      cases a with
      | error e => exact .goMain (by simp [Action.isSettle])
      | ok members =>
          exact .keep rfl rfl (Nat.le_refl _) rfl rfl (fun _ => Or.inr ⟨hpoint, members, rfl⟩)
  | @check a _ _ => cases a <;> exact .same rfl rfl rfl rfl
  | wakeRetrying | wakeWaiting | enter => exact .goMain (by simp [Action.isSettle])
  | halt => exact .goMain (by simp [Action.isSettle])
  | leave | join => exact .goMain fun a => isSettle_of_mem_releaseActions
  | tick => exact .keep rfl rfl (Nat.le_refl _) rfl rfl (fun hs => nomatch hs)
  | hear htodo hpoint _ _ => exact .hear htodo hpoint
  | hearEnd => exact .hearEnd
  | cut =>
      obtain ⟨owner, queue, hcut⟩ := exists_cutDelayed_eq c
      rw [hcut]
      exact .same rfl rfl rfl rfl
  | change =>
      exact .keep (Signal.isOpen_notify _) (Signal.limit_notify _) (Signal.pending_le_notify _) rfl
        rfl Or.inl
  | changesEnd => exact .keep rfl rfl (Nat.le_refl _) rfl rfl Or.inl
  | wakeDelayed | stopDelayed | tickIdle | pass | request => exact .same rfl rfl rfl rfl

/-- A channel that is closed is not opened again. -/
theorem Heeds.open_before {s : Step} (h : Heeds c s c') (hopen : c'.changes.isOpen = true) :
    c.changes.isOpen = true := by
  cases h with
  | keep hsame _ _ _ _ _ => exact hsame.symm.trans hopen
  | hear | hearEnd | settle => exact hopen
  | close hclosed _ => exact nomatch (hclosed.symm.trans hopen)

/-- The flag will be lowered only after an answer in the steady loop. -/
theorem Heeds.settles_before {s : Step} (h : Heeds c s c') (hopen : c'.changes.isOpen = true)
    (hsettles : c'.settles = true) :
    c.settles = true ∨
      c.main.point = .rebalancing ∧ ∃ members, s = .answer .main (.ok members) := by
  cases h with
  | keep _ _ _ _ _ hbefore => exact hbefore hsettles
  | hear | hearEnd => exact Or.inl hsettles
  | settle => cases hsettles
  | close hclosed _ => exact nomatch (hclosed.symm.trans hopen)

/-- While the main strand waits for an answer it has nothing else to do, and is not at rest in the
steady loop. -/
theorem idle_of_awaits (h : c.awaits .main = true) :
    c.main.todo = [] ∧ c.main.point ≠ .steady := by
  simp only [awaits, Bool.and_eq_true, List.isEmpty_iff] at h
  refine ⟨h.1, ?_⟩
  intro hsteady
  rw [hsteady] at h
  cases h.2

/-- **While the main strand waits for an answer, only the answer moves it.** -/
theorem awaits_of_moves {s : Step} {es : List Effect} (h : c.work.Disciplined)
    (hm : Moves c s c' es) (hawaits : c.awaits .main = true) (hs : ∀ a, s ≠ .answer .main a) :
    c'.awaits .main = true := by
  have hsame : ∀ {d : Coordinator}, d.main = c.main → d.awaits .main = true := by
    intro d hd
    simpa only [awaits, hd] using hawaits
  have hparts := hawaits
  simp only [awaits, Bool.and_eq_true, List.isEmpty_iff] at hparts
  obtain ⟨hnone, hpoint⟩ := hparts
  have habsurd : ∀ {p : MainPoint}, c.main.point = p →
      p = .steady ∨ p = .stopping ∨ p = .waiting ∨ p = .settling ∨
        (∃ attempt, p = .retrying attempt) → False := by
    intro p hp hcases
    rcases hcases with rfl | rfl | rfl | rfl | ⟨attempt, rfl⟩ <;> rw [hp] at hpoint <;>
      cases hpoint
  cases hm with
  | @act t a rest htodo _ =>
      cases t with
      | main =>
          have htodo' : c.main.todo = a :: rest := htodo
          rw [hnone] at htodo'
          cases htodo'
      | delayed => exact hsame (exec_delayed_frame h htodo).1
  | @check a _ _ => cases a <;> exact hsame rfl
  | cut =>
      obtain ⟨owner, queue, hcut⟩ := exists_cutDelayed_eq c
      rw [hcut]
      exact hsame rfl
  | registration | warmup | rebalance => exact absurd rfl (hs _)
  | wakeRetrying _ hp => exact (habsurd hp (by simp)).elim
  | wakeWaiting _ hp => exact (habsurd hp (by simp)).elim
  | enter _ hp _ => exact (habsurd hp (by simp)).elim
  | leave _ hp hpause _ =>
      refine (habsurd hp ?_).elim
      rcases hpause with rfl | rfl | hretrying
      · simp
      · simp
      · simp [hretrying]
  | halt _ hp _ | tick _ hp _ => exact (habsurd hp (by simp)).elim
  | join _ hp _ => exact (habsurd hp (by simp)).elim
  | queue | wakeDelayed | stopDelayed | tickIdle | hear | hearEnd | pass | request | change
  | changesEnd => exact hsame rfl

/-- **An end is for good.** -/
theorem ended_of_moves {s : Step} {es : List Effect} (h : c.work.Disciplined)
    (hm : Moves c s c' es) {o : Outcome} (hended : c.main.point = .ended o) :
    c'.main.point = .ended o := by
  have hnone : c.main.todo = [] := h.ended o hended
  cases hm with
  | @act t a rest htodo _ =>
      cases t with
      | main =>
          have htodo' : c.main.todo = a :: rest := htodo
          rw [hnone] at htodo'
          cases htodo'
      | delayed => rw [(exec_delayed_frame h htodo).1, hended]
  | @check a _ _ => cases a <;> exact hended
  | cut =>
      obtain ⟨owner, queue, hcut⟩ := exists_cutDelayed_eq c
      rw [hcut]
      exact hended
  | registration _ hp | warmup _ hp | rebalance _ hp | wakeRetrying _ hp | wakeWaiting _ hp
  | enter _ hp _ | halt _ hp _ | tick _ hp _ | join _ hp _ =>
      exact nomatch (hended.symm.trans hp)
  | leave _ hp hpause _ =>
      rcases hpause with rfl | rfl | ⟨attempt, rfl⟩ <;> exact nomatch (hended.symm.trans hp)
  | queue | wakeDelayed | stopDelayed | tickIdle | hear | hearEnd | pass | request | change
  | changesEnd => exact hended

end Coordinator

end FleetSharding
