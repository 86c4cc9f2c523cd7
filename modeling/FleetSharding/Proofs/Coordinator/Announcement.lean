import FleetSharding.Proofs.Coordinator.Prospect

/-!
# What a coordinator writes, it announces

Whoever writes a filter asks for a refresh afterwards.  The main strand is not cut off, so it is
enough that the request is left to do; the delayed strand may be cut off wherever it might have to
wait, so its request comes before any such place.

* `Heralds`, `heralding_of_moves`: in what is left to do, every write is followed by a request.
* `Announces`, `announces_of_moves`: what each move does to the filters and to the channel of
  requests, and that the request for what is written is not lost.
-/

namespace FleetSharding

/-- Whether an action writes a filter and leaves it to another one to ask for a refresh. -/
def Action.isFilterWrite : Action → Bool
  | .installMain | .installExtra _ | .removeMain | .removeExtra => true
  | _ => false

/-- Whether an action asks for a refresh, or goes on with one that does. -/
def Action.isRefresh : Action → Bool
  | .requestRefresh | .dropExtra true => true
  | _ => false

/-- Whether a refresh is asked for before anything that might have to wait. -/
def refreshesNext : List Action → Bool
  | [] => false
  | .requestRefresh :: _ => true
  | a :: rest => !a.mayWait && refreshesNext rest

/-- Each write of a filter comes before a refresh that is due. -/
def Heralds (due : List Action → Bool) : List Action → Prop
  | [] => True
  | a :: rest => (a.isFilterWrite = true → due rest = true) ∧ Heralds due rest

section Heralds

variable {due : List Action → Bool} {l rest : List Action}

/-- What writes no filter needs nobody to announce it. -/
theorem heralds_append_of_forall (hl : ∀ a ∈ l, a.isFilterWrite = false) (h : Heralds due rest) :
    Heralds due (l ++ rest) := by
  induction l with
  | nil => exact h
  | cons a l ih =>
      refine ⟨?_, ih fun b hb => hl b (List.mem_cons_of_mem _ hb)⟩
      intro hwrite
      exact nomatch (hl a List.mem_cons_self).symm.trans hwrite

/-- Without writes there is nothing to ask for. -/
theorem heralds_of_forall (hl : ∀ a ∈ l, a.isFilterWrite = false) : Heralds due l := by
  rw [← List.append_nil l]
  exact heralds_append_of_forall hl trivial

/-- A refresh that is asked for at all is asked for after all that comes before. -/
theorem heralds_append_of_any (hany : rest.any Action.isRefresh = true)
    (h : Heralds (·.any Action.isRefresh) rest) :
    Heralds (·.any Action.isRefresh) (l ++ rest) := by
  induction l with
  | nil => exact h
  | cons a l ih =>
      refine ⟨?_, ih⟩
      intro _
      show (l ++ rest).any Action.isRefresh = true
      rw [List.any_append, hany, Bool.or_true]

end Heralds

namespace Coordinator

variable {c c' : Coordinator}

/-- In what both strands have left to do, every write is announced. -/
structure Heralding (c : Coordinator) : Prop where
  main : Heralds (·.any Action.isRefresh) c.main.todo
  delayed : Heralds refreshesNext c.delayed.todo

/-- A strand has yet to ask for a refresh, and will. -/
def owes (c : Coordinator) : Task → Bool
  | .main => c.main.todo.any Action.isRefresh
  | .delayed => refreshesNext c.delayed.todo

/-- Whether a step changes the filters, or writes one again. -/
def changesFilters (c : Coordinator) : Step → Bool
  | .run t =>
    match c.todo t with
    | .installMain :: _ | .installExtra _ :: _ => true
    | .removeMain :: _ | .dropMain :: _ => c.registry.has mainFilter
    | .removeExtra :: _ | .dropExtra _ :: _ => c.registry.has extraFilter
    | _ => false
  | _ => false

/-- Whether a step asks for a refresh. -/
def refreshes (c : Coordinator) : Step → Bool
  | .run t =>
    match c.todo t with
    | .requestRefresh :: _ => true
    | _ => false
  | _ => false

/-- The filters that a decision writes are followed by a request for a refresh. -/
theorem heralds_rebalanceActions (cluster : ClusterConfig) (slot : Nat) (suspended : Bool)
    (members : List Member) (rest : List Action) (hrest : ∀ a ∈ rest, a.isFilterWrite = false) :
    Heralds (·.any Action.isRefresh)
      (rebalanceActions cluster slot suspended members ++ rest) := by
  rw [rebalanceActions, List.append_assoc]
  refine heralds_append_of_any rfl ?_
  refine heralds_append_of_forall (l := [_, _, _]) ?_ (heralds_of_forall hrest)
  simp [Action.isFilterWrite]

/-- What is taken over is followed by one at once. -/
theorem heralds_delayedActions (cluster : ClusterConfig) (slot : Nat) (members : List Member) :
    Heralds refreshesNext (delayedActions cluster slot members ++ [.unlock]) := by
  unfold delayedActions takeoverActions
  dsimp only
  split
  · exact heralds_of_forall (by simp [Action.isFilterWrite])
  · split <;> simp [Heralds, refreshesNext, Action.isFilterWrite, Action.mayWait]

/-- What the main strand does next takes no announcement away that is still needed. -/
theorem heralds_exec_main (h : c.work.Disciplined) {a : Action} {rest : List Action}
    (htodo : c.main.todo = a :: rest) (hheralds : Heralds (·.any Action.isRefresh) c.main.todo) :
    Heralds (·.any Action.isRefresh) (exec .main a (c.setTodo .main rest)).1.main.todo := by
  rw [htodo] at hheralds
  obtain ⟨-, hrest⟩ := hheralds
  have hmain : Orderly .main (c.owner = some .main) c.main.point c.delayed.point (a :: rest) :=
    htodo ▸ h.main
  cases a with
  | unlock =>
      simp only [exec, handOver_eq]
      exact hrest
  | look => cases hmain.1
  | startTicker =>
      simp only [exec]
      split
      · trivial
      · exact hrest
  | finish => trivial
  | dropMain => exact ⟨by simp [Action.isFilterWrite], hrest⟩
  | dropExtra =>
      simp only [exec]
      split
      · exact ⟨by simp [Action.isFilterWrite], hrest⟩
      · exact hrest
  | _ => exact hrest

/-- So does what the delayed strand does next. -/
theorem heralds_exec_delayed {a : Action} {rest : List Action} (htodo : c.delayed.todo = a :: rest)
    (ha : a.mayDelay = true) (hheralds : Heralds refreshesNext c.delayed.todo) :
    Heralds refreshesNext (exec .delayed a (c.setTodo .delayed rest)).1.delayed.todo := by
  rw [htodo] at hheralds
  obtain ⟨-, hrest⟩ := hheralds
  cases a with
  | unlock =>
      simp only [exec, handOver_eq]
      exact hrest
  | look =>
      simp only [exec]
      split
      · exact ⟨by simp [Action.isFilterWrite], trivial⟩
      · exact hrest
  | acquire | installExtra | report | measure | requestRefresh | publish | sleep => exact hrest
  | _ => cases ha

/-- Looking once more, or giving up, writes nothing before the release. -/
theorem heralds_retry {attempt : Nat} {l : List Action} (hl : ∀ a ∈ l, a.isFilterWrite = false) :
    Heralds (·.any Action.isRefresh) (c.retry attempt l).main.todo := by
  unfold retry
  split <;>
    exact heralds_append_of_forall hl
      (heralds_of_forall (by simp [releaseActions, Action.isFilterWrite]))

/-- **Moves leave every write announced.** -/
theorem heralding_of_moves {s : Step} {es : List Effect} (h : c.work.Disciplined)
    (hall : ∀ a ∈ c.delayed.todo, a.mayDelay = true) (hheralding : c.Heralding)
    (hm : Moves c s c' es) : c'.Heralding := by
  obtain ⟨hmain, hdelayed⟩ := hheralding
  cases hm with
  | @act t a rest htodo _ =>
      cases t with
      | main =>
          refine ⟨heralds_exec_main h htodo hmain, ?_⟩
          by_cases ha : a = .spawnDelayed
          · subst ha
            exact ⟨nofun, trivial⟩
          · rw [delayed_exec_main h htodo ha]
            exact hdelayed
      | delayed =>
          have htodo' : c.delayed.todo = a :: rest := htodo
          have ha : a.mayDelay = true := hall a (by rw [htodo']; exact List.mem_cons_self)
          refine ⟨?_, heralds_exec_delayed htodo' ha hdelayed⟩
          rw [(exec_delayed_frame h htodo').1]
          exact hmain
  | @registration attempt a _ _ =>
      have hsame : (c.onRegistration attempt a).delayed = c.delayed := by
        obtain ⟨slot, p, l, hgo⟩ := exists_onRegistration_eq c attempt a
        rw [hgo]
        rfl
      refine ⟨?_, by rw [hsame]; exact hdelayed⟩
      cases a with
      | error e => exact heralds_retry (by simp [Action.isFilterWrite])
      | ok members =>
          unfold onRegistration
          dsimp only
          split
          · exact heralds_of_forall (by simp [goMain, Action.isFilterWrite])
          · exact heralds_retry (by simp [Action.isFilterWrite])
  | @warmup a _ _ =>
      have hsame : (c.onWarmup a).delayed = c.delayed := by
        obtain ⟨p, l, hgo⟩ := exists_onWarmup_eq c a
        rw [hgo]
        rfl
      refine ⟨?_, by rw [hsame]; exact hdelayed⟩
      cases a with
      | error e => exact heralds_of_forall (by simp [onWarmup, goMain, Action.isFilterWrite])
      | ok members =>
          unfold onWarmup
          dsimp only
          split <;> exact heralds_of_forall (by simp [goMain, Action.isFilterWrite])
  | @rebalance a _ _ =>
      cases a with
      | ok members =>
          exact ⟨heralds_rebalanceActions _ _ _ _ _ (by simp [Action.isFilterWrite]), hdelayed⟩
      | error e =>
          exact ⟨heralds_of_forall (by simp [onRebalance, goMain, Action.isFilterWrite]), hdelayed⟩
  | @check a _ _ =>
      cases a with
      | ok members => exact ⟨hmain, heralds_delayedActions _ _ _⟩
      | error e =>
          exact ⟨hmain, heralds_of_forall (by simp [onDelayed, goDelayed, Action.isFilterWrite])⟩
  | enter =>
      refine ⟨⟨fun _ => rfl, heralds_of_forall ?_⟩, hdelayed⟩
      simp [Action.isFilterWrite]
  | wakeDelayed => exact ⟨hmain, heralds_of_forall (by simp [goDelayed, Action.isFilterWrite])⟩
  | stopDelayed => exact ⟨hmain, trivial⟩
  | cut =>
      obtain ⟨owner, queue, hcut⟩ := exists_cutDelayed_eq c
      rw [hcut]
      exact ⟨hmain, trivial⟩
  | wakeRetrying | wakeWaiting | halt | tick =>
      exact ⟨heralds_of_forall (by simp [goMain, Action.isFilterWrite]), hdelayed⟩
  | leave | join =>
      exact ⟨heralds_of_forall (by simp [release, goMain, releaseActions, Action.isFilterWrite]),
        hdelayed⟩
  | queue | tickIdle | hear | hearEnd | pass | request | change | changesEnd =>
      exact ⟨hmain, hdelayed⟩

/-- What a step does to the filters and to the channel of requests for a refresh. -/
inductive Announces (c : Coordinator) : Step → Coordinator → Prop
  /-- The filters stay, and nobody asks; who has yet to ask still has. -/
  | quiet {s : Step} {c' : Coordinator} (hrefreshes : c.refreshes s = false)
      (hchanges : c.changesFilters s = false) (hregistry : c'.registry = c.registry)
      (hopen : c'.updates.isOpen = c.updates.isOpen) (hlimit : c'.updates.limit = c.updates.limit)
      (hpending : c'.updates.pending = c.updates.pending)
      (howes : ∀ t, c.owes t = true → c'.owes t = true) : Announces c s c'
  /-- A filter is written, and a strand has yet to ask. -/
  | write {s : Step} {c' : Coordinator} (hrefreshes : c.refreshes s = false)
      (hchanges : c.changesFilters s = true) (hupdates : c'.updates = c.updates)
      (howes : ∃ t, c'.owes t = true) : Announces c s c'
  /-- A refresh is asked for. -/
  | refresh {s : Step} {c' : Coordinator} (hrefreshes : c.refreshes s = true)
      (hregistry : c'.registry = c.registry) (hupdates : c'.updates = c.updates.notify) :
      Announces c s c'

/-- With the filters, the channel and what is left to do as they were, nothing is announced. -/
theorem Announces.same {s : Step} (hs : ∀ t, s ≠ .run t) (hregistry : c'.registry = c.registry)
    (hupdates : c'.updates = c.updates)
    (hmain : c.main.todo ≠ [] → c'.main.todo = c.main.todo)
    (hdelayed : refreshesNext c.delayed.todo = true → c'.delayed.todo = c.delayed.todo) :
    Announces c s c' := by
  have hnot : c.refreshes s = false ∧ c.changesFilters s = false := by
    cases s with
    | run t => exact absurd rfl (hs t)
    | _ => exact ⟨rfl, rfl⟩
  refine .quiet hnot.1 hnot.2 hregistry (by rw [hupdates]) (by rw [hupdates]) (by rw [hupdates]) ?_
  intro t howes
  cases t with
  | main =>
      have hany : c.main.todo.any Action.isRefresh = true := howes
      show c'.main.todo.any Action.isRefresh = true
      rw [hmain, hany]
      intro hnone
      rw [hnone] at hany
      cases hany
  | delayed =>
      show refreshesNext c'.delayed.todo = true
      rw [hdelayed howes]
      exact howes

/-- The next action of a strand: what it does to the filters and to the channel. -/
theorem refreshes_run {t : Task} {a : Action} {rest : List Action} (htodo : c.todo t = a :: rest)
    (ha : a ≠ .requestRefresh) : c.refreshes (.run t) = false := by
  unfold refreshes
  dsimp only
  rw [htodo]
  cases a with
  | requestRefresh => exact absurd rfl ha
  | _ => rfl

/-- An action of the main strand that does not ask leaves what is owed to those after it. -/
theorem owes_of_todo {a : Action} {rest : List Action} (htodo : c.main.todo = a :: rest)
    (hask : a.isRefresh = false)
    (hmain : rest.any Action.isRefresh = true → c'.main.todo.any Action.isRefresh = true)
    (hdelayed : refreshesNext c.delayed.todo = true → refreshesNext c'.delayed.todo = true) :
    ∀ t, c.owes t = true → c'.owes t = true := by
  intro t howes
  cases t with
  | main =>
      have hany : c.main.todo.any Action.isRefresh = true := howes
      rw [htodo, List.any_cons, hask, Bool.false_or] at hany
      exact hmain hany
  | delayed => exact hdelayed howes

/-- A filter is removed: it was there, and a refresh is due, or nothing changes. -/
theorem announces_remove {s : Step} {name : String} (hrefreshes : c.refreshes s = false)
    (hchanges : c.changesFilters s = c.registry.has name)
    (hregistry : c'.registry = c.registry.remove name) (hupdates : c'.updates = c.updates)
    (hdue : c.registry.has name = true → ∃ t, c'.owes t = true)
    (howes : c.registry.has name = false → ∀ t, c.owes t = true → c'.owes t = true) :
    Announces c s c' := by
  cases hhas : c.registry.has name with
  | true => exact .write hrefreshes (hchanges.trans hhas) hupdates (hdue hhas)
  | false =>
      have hsame : c'.registry = c.registry :=
        hregistry.trans (Registry.remove_of_has_eq_false hhas)
      exact .quiet hrefreshes (hchanges.trans hhas) hsame (by rw [hupdates]) (by rw [hupdates])
        (by rw [hupdates]) (howes hhas)

/-- The main strand does its next action. -/
theorem announces_exec_main (h : c.work.Disciplined) {a : Action} {rest : List Action}
    (htodo : c.main.todo = a :: rest) (hheralds : Heralds (·.any Action.isRefresh) c.main.todo) :
    Announces c (.run .main) (exec .main a (c.setTodo .main rest)).1 := by
  have hmain : Orderly .main (c.owner = some .main) c.main.point c.delayed.point (a :: rest) :=
    htodo ▸ h.main
  have hrefreshes : a ≠ .requestRefresh → c.refreshes (.run .main) = false :=
    refreshes_run (t := .main) htodo
  rw [htodo] at hheralds
  cases a with
  | installMain | installExtra =>
      refine .write (hrefreshes (by simp)) ?_ rfl ⟨.main, hheralds.1 rfl⟩
      simp only [changesFilters, todo, htodo]
  | removeMain | removeExtra =>
      refine announces_remove (hrefreshes (by simp)) ?_ rfl rfl (fun _ => ⟨.main, hheralds.1 rfl⟩)
        fun _ => owes_of_todo htodo rfl id id
      simp only [changesFilters, todo, htodo]
  | dropMain =>
      -- The request is left to the action that comes next, which is told what was there.
      have hnext : (exec .main .dropMain (c.setTodo .main rest)).1.main.todo =
          .dropExtra (c.registry.has mainFilter) :: rest := rfl
      refine announces_remove (hrefreshes (by simp)) ?_ rfl rfl ?_ ?_
      · simp only [changesFilters, todo, htodo]
      · intro hhas
        refine ⟨.main, ?_⟩
        rw [owes, hnext, hhas]
        rfl
      · intro hhas
        refine owes_of_todo htodo rfl ?_ id
        rw [hnext, hhas]
        exact id
  | dropExtra hadMain =>
      have hchanges : c.changesFilters (.run .main) = c.registry.has extraFilter := by
        simp only [changesFilters, todo, htodo]
      simp only [exec]
      split
      · refine announces_remove (hrefreshes (by simp)) hchanges rfl rfl (fun _ => ⟨.main, rfl⟩) ?_
        intro _ t howes
        cases t with
        | main => rfl
        | delayed => exact howes
      · next hnot =>
        have hneither : hadMain = false ∧ c.registry.has extraFilter = false :=
          Bool.or_eq_false_iff.1 (Bool.eq_false_iff.2 hnot)
        obtain ⟨rfl, hhas⟩ := hneither
        refine announces_remove (hrefreshes (by simp)) hchanges rfl rfl ?_
          fun _ => owes_of_todo htodo rfl id id
        intro hhas'
        cases hhas.symm.trans hhas'
  | requestRefresh =>
      refine .refresh ?_ rfl rfl
      simp only [refreshes, todo, htodo]
  | unlock =>
      simp only [exec, handOver_eq]
      refine .quiet (hrefreshes (by simp)) ?_ rfl rfl rfl rfl (owes_of_todo htodo rfl id id)
      simp only [changesFilters, todo, htodo]
  | look => cases hmain.1
  | startTicker =>
      obtain ⟨-, -, rfl⟩ := hmain
      simp only [exec]
      split <;>
        refine .quiet (hrefreshes (by simp)) ?_ rfl rfl rfl rfl
          (owes_of_todo htodo rfl (by simp) id) <;>
        simp only [changesFilters, todo, htodo]
  | finish =>
      obtain ⟨-, -, -, rfl⟩ := hmain
      refine .quiet (hrefreshes (by simp)) ?_ rfl rfl rfl rfl (owes_of_todo htodo rfl (by simp) id)
      simp only [changesFilters, todo, htodo]
  | spawnDelayed =>
      obtain ⟨-, -, hborn, -⟩ := hmain
      have hnone : c.delayed.todo = [] := h.unborn hborn
      refine .quiet (hrefreshes (by simp)) ?_ rfl rfl rfl rfl (owes_of_todo htodo rfl id ?_)
      · simp only [changesFilters, todo, htodo]
      · simp [hnone, refreshesNext]
  | _ =>
      refine .quiet (hrefreshes (by simp)) ?_ rfl rfl rfl rfl (owes_of_todo htodo rfl id id)
      simp only [changesFilters, todo, htodo]

/-- The delayed strand does its next action. -/
theorem announces_exec_delayed (h : c.work.Disciplined) {a : Action} {rest : List Action}
    (htodo : c.delayed.todo = a :: rest) (ha : a.mayDelay = true)
    (hheralds : Heralds refreshesNext c.delayed.todo) :
    Announces c (.run .delayed) (exec .delayed a (c.setTodo .delayed rest)).1 := by
  have hdelayed : Orderly .delayed (c.owner = some .delayed) c.main.point c.delayed.point
      (a :: rest) := htodo ▸ h.delayed
  have hrefreshes : a ≠ .requestRefresh → c.refreshes (.run .delayed) = false :=
    refreshes_run (t := .delayed) htodo
  rw [htodo] at hheralds
  have hquiet : ∀ {c'' : Coordinator}, a ≠ .requestRefresh →
      c.changesFilters (.run .delayed) = false → c''.registry = c.registry →
      c''.updates = c.updates → c''.main = c.main →
      (refreshesNext (a :: rest) = true → refreshesNext c''.delayed.todo = true) →
      Announces c (.run .delayed) c'' := by
    intro c'' hask hchanges hregistry hupdates hmain hrest
    refine .quiet (hrefreshes hask) hchanges hregistry (by rw [hupdates]) (by rw [hupdates])
      (by rw [hupdates]) ?_
    intro t howes
    cases t with
    | main =>
        rw [owes, hmain]
        exact howes
    | delayed =>
        rw [owes, htodo] at howes
        exact hrest howes
  cases a with
  | installExtra =>
      refine .write (hrefreshes (by simp)) ?_ rfl ⟨.delayed, hheralds.1 rfl⟩
      simp only [changesFilters, todo, htodo]
  | requestRefresh =>
      refine .refresh ?_ rfl rfl
      simp only [refreshes, todo, htodo]
  | unlock =>
      simp only [exec, handOver_eq]
      refine hquiet (by simp) ?_ rfl rfl rfl id
      simp only [changesFilters, todo, htodo]
  | look =>
      obtain ⟨-, -, -, rfl⟩ := hdelayed
      simp only [exec]
      split <;> refine hquiet (by simp) ?_ rfl rfl rfl (by simp [refreshesNext, Action.mayWait]) <;>
        simp only [changesFilters, todo, htodo]
  | acquire | report | measure | publish | sleep =>
      refine hquiet (by simp) ?_ rfl rfl rfl ?_
      · simp only [changesFilters, todo, htodo]
      · first | exact id | simp [refreshesNext, Action.mayWait]
  | _ => cases ha

/-- A strand that is about to ask is not where it may be cut off. -/
theorem refreshesNext_of_mayCut (hcut : c.mayCut = true) :
    refreshesNext c.delayed.todo = false := by
  simp only [mayCut, Bool.and_eq_true] at hcut
  obtain ⟨-, hwaits⟩ := hcut
  cases htodo : c.delayed.todo with
  | nil => rfl
  | cons a rest =>
      rw [htodo] at hwaits
      cases a <;> first | rfl | cases hwaits

/-- **Every move announces what it writes in one of these ways.** -/
theorem announces_of_moves {s : Step} {es : List Effect} (h : c.work.Disciplined)
    (hall : ∀ a ∈ c.delayed.todo, a.mayDelay = true) (hheralding : c.Heralding)
    (hm : Moves c s c' es) : Announces c s c' := by
  have hidle : ∀ {p : Prop}, c.main.todo = [] → c.main.todo ≠ [] → p :=
    fun hnone hsome => absurd hnone hsome
  have hdone : ∀ {p : Prop}, c.delayed.todo = [] → refreshesNext c.delayed.todo = true → p := by
    intro p hnone hnext
    rw [hnone] at hnext
    cases hnext
  cases hm with
  | @queue t rest htodo _ =>
      refine .quiet (refreshes_run htodo nofun) ?_ rfl rfl rfl rfl fun t ht => ht
      simp only [changesFilters, htodo]
  | @act t a rest htodo _ =>
      cases t with
      | main => exact announces_exec_main h htodo hheralding.main
      | delayed =>
          have htodo' : c.delayed.todo = a :: rest := htodo
          exact announces_exec_delayed h htodo'
            (hall a (by rw [htodo']; exact List.mem_cons_self)) hheralding.delayed
  | registration htodo _ =>
      obtain ⟨slot, p, l, hgo⟩ := exists_onRegistration_eq c _ _
      rw [hgo]
      exact .same nofun rfl rfl (hidle htodo) (fun _ => rfl)
  | warmup htodo _ =>
      obtain ⟨p, l, hgo⟩ := exists_onWarmup_eq c _
      rw [hgo]
      exact .same nofun rfl rfl (hidle htodo) (fun _ => rfl)
  | @rebalance a htodo _ =>
      cases a <;> exact .same nofun rfl rfl (hidle htodo) (fun _ => rfl)
  | @check a htodo _ => cases a <;> exact .same nofun rfl rfl (fun _ => rfl) (hdone htodo)
  | wakeDelayed htodo _ | stopDelayed htodo _ _ =>
      exact .same nofun rfl rfl (fun _ => rfl) (hdone htodo)
  | wakeRetrying htodo _ | wakeWaiting htodo _ | enter htodo _ _ | leave htodo _ _ _
  | halt htodo _ _ | tick htodo _ _ | join htodo _ _ =>
      exact .same nofun rfl rfl (hidle htodo) (fun _ => rfl)
  | cut hcut =>
      have hnot : refreshesNext c.delayed.todo = false := refreshesNext_of_mayCut hcut
      obtain ⟨owner, queue, hafter⟩ := exists_cutDelayed_eq c
      rw [hafter]
      exact .same nofun rfl rfl (fun _ => rfl) (fun hnext => nomatch hnot.symm.trans hnext)
  | tickIdle | hear | hearEnd | pass | request | change | changesEnd =>
      exact .same nofun rfl rfl (fun _ => rfl) (fun _ => rfl)

/-- Whether a strand has nothing to do before what it waits for, the ownership included. -/
def isIdle (c : Coordinator) (t : Task) : Bool :=
  match c.todo t with
  | [] | .acquire :: _ => true
  | _ => false

/-- Who is idle has nothing to ask for. -/
theorem owes_eq_false_of_isIdle (h : c.work.Disciplined) {t : Task} (hidle : c.isIdle t = true) :
    c.owes t = false := by
  cases t with
  | main =>
      have hmain : Orderly .main (c.owner = some .main) c.main.point c.delayed.point c.main.todo :=
        h.main
      simp only [isIdle, todo] at hidle
      show c.main.todo.any Action.isRefresh = false
      split at hidle
      · next htodo => rw [htodo, List.any_nil]
      · next rest htodo =>
        rw [htodo] at hmain ⊢
        rcases hmain with ⟨-, -, rfl⟩ | ⟨ht, -⟩ | ⟨-, -, o, -, hrelease⟩
        · rfl
        · cases ht
        · rw [hrelease]
          rfl
      · cases hidle
  | delayed =>
      simp only [isIdle, todo] at hidle
      show refreshesNext c.delayed.todo = false
      split at hidle
      · next htodo => rw [htodo, refreshesNext]
      · next rest htodo =>
        rw [htodo]
        rfl
      · cases hidle

end Coordinator

end FleetSharding
