import FleetSharding.Proofs.Coordinator.Discipline
import FleetSharding.Proofs.Registry

/-!
# The outlook of a coordinator

A decision takes effect action by action, and what has been written halfway through says little.
The *outlook* is what the filters, the flag and the status will be once everything that was begun is
done.  It moves only when a strand decides something, and then all at once, so a coordinator looked
at through it is a small machine: the `Turn`s.

* `outlook_exec_main`, `outlook_exec_delayed`: doing what was begun leaves the outlook alone.
* `outlook_of_finished`: when nothing is left to write, the outlook is what there is.
* `turn_of_moves`: every move is a turn of the small machine.
-/

namespace FleetSharding

/-- What a coordinator writes: filters, the flag of the suspension, and the published status. -/
structure Standing where
  registry : Registry
  suspended : Bool
  status : ShardStatus

namespace Standing

def publish (s : Standing) (u : StatusUpdate) : Standing :=
  { s with status := { u.apply s.status with filters := s.registry.names } }

/-- What an action writes, all that follows from it included. -/
def write (slot nodes : Nat) (s : Standing) : Action → Standing
  | .installMain => { s with registry := s.registry.add mainFilter (mainShard slot nodes) }
  | .installExtra slots => { s with registry := s.registry.add extraFilter (slots.takeover slot) }
  | .removeMain => { s with registry := s.registry.remove mainFilter }
  | .removeExtra | .dropExtra _ => { s with registry := s.registry.remove extraFilter }
  | .dropMain => { s with registry := (s.registry.remove mainFilter).remove extraFilter }
  | .setSuspended on => { s with suspended := on }
  | .publish u => s.publish u
  | _ => s

/-- What is there once a list of actions is done, up to where the ownership has to be taken. -/
def carryOut (slot nodes : Nat) : Standing → List Action → Standing
  | s, [] => s
  | s, .acquire :: _ => s
  | s, a :: rest => carryOut slot nodes (s.write slot nodes a) rest

end Standing

/-- Whether something is left to write of what was begun. -/
def unfinished : List Action → Bool
  | [] => false
  | .acquire :: _ => false
  | a :: rest => a.isWrite || unfinished rest

/-- What is left unfinished is a write among the next actions. -/
theorem unfinished_cons {a : Action} (ha : a ≠ .acquire) (rest : List Action) :
    unfinished (a :: rest) = (a.isWrite || unfinished rest) := by
  cases a <;> first | rfl | exact absurd rfl ha

/-- What comes before and is no write makes no difference. -/
theorem unfinished_append {l rest : List Action} (hl : ∀ a ∈ l, a.isWrite = false)
    (hrest : unfinished rest = false) : unfinished (l ++ rest) = false := by
  induction l with
  | nil => exact hrest
  | cons a l ih =>
      by_cases ha : a = .acquire
      · rw [ha]
        rfl
      · rw [List.cons_append, unfinished_cons ha, hl a List.mem_cons_self, Bool.false_or]
        exact ih fun b hb => hl b (List.mem_cons_of_mem _ hb)

/-- An ordinary action does not take the ownership. -/
theorem Action.ne_acquire_of_isOrdinary {a : Action} (ha : a.isOrdinary = true) :
    a ≠ .acquire := by
  intro heq
  subst heq
  cases ha

namespace Standing

variable {slot nodes : Nat}

/-- Nothing is carried out by doing nothing. -/
@[simp] theorem carryOut_nil (s : Standing) : s.carryOut slot nodes [] = s := rfl

/-- What begins with taking the ownership has not begun. -/
@[simp] theorem carryOut_acquire (s : Standing) (rest : List Action) :
    s.carryOut slot nodes (.acquire :: rest) = s := rfl

/-- What follows an action is carried out after it. -/
theorem carryOut_cons (s : Standing) {a : Action} (ha : a ≠ .acquire) (rest : List Action) :
    s.carryOut slot nodes (a :: rest) = (s.write slot nodes a).carryOut slot nodes rest := by
  cases a <;> first | rfl | exact absurd rfl ha

/-- Ordinary actions are carried out first. -/
theorem carryOut_append (s : Standing) {xs : List Action} (hxs : ∀ a ∈ xs, a.isOrdinary = true)
    (ys : List Action) :
    s.carryOut slot nodes (xs ++ ys) =
      (s.carryOut slot nodes xs).carryOut slot nodes ys := by
  induction xs generalizing s with
  | nil => rfl
  | cons a xs ih =>
      have ha : a ≠ .acquire := Action.ne_acquire_of_isOrdinary (hxs a List.mem_cons_self)
      rw [List.cons_append, carryOut_cons s ha, carryOut_cons s ha]
      exact ih _ fun b hb => hxs b (List.mem_cons_of_mem _ hb)

/-- Only writes change anything. -/
theorem write_of_not_isWrite (s : Standing) {a : Action} (ha : a.isWrite = false) :
    s.write slot nodes a = s := by
  cases a <;> first | rfl | cases ha

/-- With nothing left to write, nothing changes. -/
theorem carryOut_of_finished (s : Standing) {l : List Action} (h : unfinished l = false) :
    s.carryOut slot nodes l = s := by
  induction l generalizing s with
  | nil => rfl
  | cons a l ih =>
      by_cases hacquire : a = .acquire
      · rw [hacquire, carryOut_acquire]
      · rw [unfinished_cons hacquire, Bool.or_eq_false_iff] at h
        rw [carryOut_cons s hacquire, write_of_not_isWrite s h.1, ih s h.2]

end Standing

namespace Coordinator

/-- A strand that may not write has begun nothing that is left to write. -/
theorem Orderly.finished {t : Task} {holds : Prop} {p : MainPoint} {q : DelayedPoint}
    {l : List Action} (h : Orderly t holds p q l) (hfree : ¬ holds)
    (hborn : t = .main → q ≠ .unborn) : unfinished l = false := by
  induction l with
  | nil => rfl
  | cons a l ih =>
      by_cases ha : a.isOrdinary = true
      · rw [orderly_cons ha] at h
        have hwrite : a.isWrite = false := by
          rw [Bool.eq_false_iff]
          intro hwrite
          rcases h.1 hwrite with hholds | ⟨ht, hq⟩
          · exact hfree hholds
          · exact hborn ht hq
        rw [unfinished_cons (Action.ne_acquire_of_isOrdinary ha), hwrite, Bool.false_or]
        exact ih h.2
      · cases a with
        | acquire => rfl
        | unlock => exact absurd h.1 hfree
        | ask | settle | startTicker | abortDelayed | look | finish =>
            simp_all [Orderly, unfinished, Action.isWrite]
        | spawnDelayed =>
            obtain ⟨ht, -, hq, -⟩ := h
            exact absurd hq (hborn ht)
        | _ => exact absurd rfl ha

variable {c c' : Coordinator}

def standing (c : Coordinator) : Standing := ⟨c.registry, c.suspended, c.status⟩

/-- What there will be once everything that was begun is done. -/
def outlook (c : Coordinator) : Standing :=
  (c.standing.carryOut c.slot c.cluster.numberOfNodes c.delayed.todo).carryOut c.slot
    c.cluster.numberOfNodes c.main.todo

/-- When nothing is left to write, the outlook is what there is. -/
theorem outlook_of_finished (hmain : unfinished c.main.todo = false)
    (hdelayed : unfinished c.delayed.todo = false) : c.outlook = c.standing := by
  rw [outlook, Standing.carryOut_of_finished _ hdelayed, Standing.carryOut_of_finished _ hmain]

/-- While the delayed strand has nothing to write, the outlook is up to the main strand. -/
theorem outlook_eq_main (hdelayed : unfinished c.delayed.todo = false) :
    c.outlook = c.standing.carryOut c.slot c.cluster.numberOfNodes c.main.todo := by
  rw [outlook, Standing.carryOut_of_finished _ hdelayed]

/-- Who waits for the ownership makes no difference to the outlook. -/
theorem outlook_handOver (c : Coordinator) : c.handOver.outlook = c.outlook := by
  rw [handOver_eq]
  rfl

/-- While the main strand holds the ownership, and before the delayed strand is born, that strand
has nothing to write. -/
theorem delayed_finished (h : c.work.Disciplined)
    (hfree : c.owner = some .main ∨ c.delayed.point = .unborn) :
    unfinished c.delayed.todo = false := by
  rcases hfree with howner | hborn
  · refine h.delayed.finished ?_ (fun ht => nomatch ht)
    intro hdelayed
    exact nomatch (howner.symm.trans hdelayed)
  · rw [show c.delayed.todo = [] from h.unborn hborn]
    rfl

/-- While the delayed strand holds the ownership, the main strand has nothing to write. -/
theorem main_finished (h : c.work.Disciplined) (howner : c.owner = some .delayed)
    (hborn : c.delayed.point ≠ .unborn) : unfinished c.main.todo = false := by
  refine h.main.finished ?_ (fun _ => hborn)
  intro hmain
  exact nomatch (howner.symm.trans hmain)

/-- **What the main strand does leaves the outlook alone**, up to where it takes the ownership. -/
theorem outlook_exec_main (h : c.work.Disciplined) {a : Action} {rest : List Action}
    (htodo : c.main.todo = a :: rest) (ha : a ≠ .acquire) :
    (exec .main a (c.setTodo .main rest)).1.outlook = c.outlook := by
  have hmain : Orderly .main (c.owner = some .main) c.main.point c.delayed.point (a :: rest) :=
    htodo ▸ h.main
  -- A write comes after all that the delayed strand has to do, because that strand has nothing to
  -- write at the moment.
  have hwrite : a.isWrite = true → a.isOrdinary = true → unfinished c.delayed.todo = false := by
    intro hwrite hord
    rw [orderly_cons hord] at hmain
    refine delayed_finished h ?_
    rcases hmain.1 hwrite with howner | ⟨-, hborn⟩
    · exact Or.inl howner
    · exact Or.inr hborn
  cases a with
  | acquire => exact absurd rfl ha
  | unlock =>
      simp only [exec, outlook_handOver]
      simp only [outlook, htodo]
      rfl
  | ask | report | measure | requestRefresh | sleep | abortDelayed | settle =>
      simp only [outlook, htodo]
      rfl
  | look => cases hmain.1
  | startTicker =>
      obtain ⟨-, -, rfl⟩ := hmain
      simp only [exec]
      split <;> simp only [outlook, htodo] <;> rfl
  | spawnDelayed =>
      obtain ⟨-, -, hborn, rfl⟩ := hmain
      have hnone : c.delayed.todo = [] := h.unborn hborn
      simp only [outlook, htodo, hnone]
      rfl
  | finish o =>
      obtain ⟨-, -, -, rfl⟩ := hmain
      simp only [outlook, htodo]
      rfl
  | dropMain | installMain | installExtra | removeMain | removeExtra | setSuspended | publish =>
      have hdelayed := hwrite rfl rfl
      rw [outlook_eq_main hdelayed, outlook_eq_main (by exact hdelayed), htodo]
      rfl
  | dropExtra hadMain =>
      have hdelayed := hwrite rfl rfl
      rw [outlook_eq_main hdelayed, htodo]
      simp only [exec]
      split <;> rw [outlook_eq_main (by exact hdelayed)] <;> rfl

/-- **What the delayed strand does leaves the outlook alone.** -/
theorem outlook_exec_delayed (h : c.work.Disciplined) {a : Action} {rest : List Action}
    (htodo : c.delayed.todo = a :: rest) :
    (exec .delayed a (c.setTodo .delayed rest)).1.outlook = c.outlook := by
  have hdelayed : Orderly .delayed (c.owner = some .delayed) c.main.point c.delayed.point
      (a :: rest) := htodo ▸ h.delayed
  cases a with
  | acquire =>
      rcases hdelayed with ⟨ht, -⟩ | ⟨-, -, rfl⟩ | ⟨ht, -⟩
      · cases ht
      · simp only [outlook, htodo]
        rfl
      · cases ht
  | unlock =>
      simp only [exec, outlook_handOver]
      simp only [outlook, htodo]
      rfl
  | look =>
      obtain ⟨-, -, -, rfl⟩ := hdelayed
      simp only [exec]
      split <;> simp only [outlook, htodo] <;> rfl
  | ask | settle | startTicker | spawnDelayed | abortDelayed | finish => cases hdelayed.1
  | dropExtra hadMain =>
      simp only [exec]
      split <;> simp only [outlook, htodo] <;> rfl
  | _ =>
      simp only [outlook, htodo]
      rfl

end Coordinator

end FleetSharding
