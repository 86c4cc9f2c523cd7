import FleetSharding.Proofs.Coordinator.Run

/-!
# The discipline of the two strands

The two strands of a coordinator interleave action by action.  What keeps them apart is a discipline
on what a strand may still have to do: filters, the flag and the status are written only by whoever
holds the ownership, or by the main strand while the other is not yet born.

* `Orderly`: what a strand has to do keeps to the discipline.
* `Work.Disciplined`: both strands do, and their points say when they hold the ownership.
* `disciplined_of_run`: every coordinator that was started keeps to the discipline.
* `point_exec`, `timers_of_moves`: where an action leaves the main strand, and what no move changes.
-/

namespace FleetSharding

/-- Whether an action writes filters, the flag of the suspension or the status. -/
def Action.isWrite : Action → Bool
  | .installMain | .installExtra _ | .removeMain | .removeExtra | .dropMain | .dropExtra _
  | .setSuspended _ | .publish _ => true
  | _ => false

/-- Whether an action leaves points and the ownership alone, so that anything may follow it. -/
def Action.isOrdinary : Action → Bool
  | .acquire | .unlock | .ask | .look | .settle | .startTicker | .spawnDelayed | .abortDelayed
  | .finish _ => false
  | _ => true

/-- What carries out a decision: filters are written, the suspension is set, something is reported
and measured, and the decision is published. -/
inductive Action.OfDecision : Action → Prop
  | installMain : OfDecision .installMain
  | installExtra (slots : SlotMap) : OfDecision (.installExtra slots)
  | removeMain : OfDecision .removeMain
  | removeExtra : OfDecision .removeExtra
  | setSuspended (on : Bool) : OfDecision (.setSuspended on)
  | report (e : Event) : OfDecision (.report e)
  | measure (m : Measurement) : OfDecision (.measure m)
  | requestRefresh : OfDecision .requestRefresh
  | decided (phase : Phase) (healthy : Nat) (failed : List Nat) :
      OfDecision (.publish (.decided phase healthy failed))

/-- What carries out a decision is ordinary. -/
theorem Action.OfDecision.isOrdinary {a : Action} (h : a.OfDecision) : a.isOrdinary = true := by
  cases h <;> rfl

/-- Whether the main strand has not begun to collect. -/
def MainPoint.isEarly : MainPoint → Bool
  | .registering _ | .retrying _ | .warming | .waiting | .settling => true
  | _ => false

/-- Whether the main strand gives up what it has, or has done so.  One that crashed has not. -/
def MainPoint.isClosing : MainPoint → Bool
  | .releasing | .ended .completed | .ended (.timedOut _) => true
  | _ => false

/-- A main strand that has ended has given up what it had, unless it crashed. -/
theorem MainPoint.isClosing_ended {o : Outcome} (ho : o ≠ .crashed) :
    (MainPoint.ended o).isClosing = true := by
  cases o with
  | crashed => exact absurd rfl ho
  | completed | timedOut => rfl

namespace Coordinator

/-- What a strand has to do keeps to the discipline: whether it holds the ownership, and the points
of the two strands, say what it may do and what has to be left when it does so. -/
def Orderly (t : Task) (holds : Prop) (p : MainPoint) (q : DelayedPoint) : List Action → Prop
  | [] => True
  | a :: rest =>
    match a with
    | .acquire =>
      (t = .main ∧ p = .rebalancing ∧ rest = [.ask]) ∨
        (t = .delayed ∧ q = .checking ∧ rest = [.look]) ∨
        (t = .main ∧ p = .releasing ∧ ∃ o, o ≠ .crashed ∧ .acquire :: rest = releaseActions o)
    | .unlock =>
      holds ∧
        ((t = .main ∧ p = .steady ∧ (rest = [] ∨ rest = [.settle])) ∨
          (t = .delayed ∧ q = .ended ∧ rest = []) ∨
          (t = .main ∧ p = .releasing ∧ ∃ o, o ≠ .crashed ∧ rest = [.finish o]))
    | .ask => t = .main ∧ rest = []
    | .settle | .startTicker => t = .main ∧ p = .steady ∧ rest = []
    | .abortDelayed => t = .main ∧ p = .stopping ∧ rest = []
    | .look => t = .delayed ∧ q = .checking ∧ holds ∧ rest = []
    | .spawnDelayed => t = .main ∧ p = .steady ∧ q = .unborn ∧ rest = [.startTicker]
    | .finish o => t = .main ∧ p = .releasing ∧ o ≠ .crashed ∧ rest = []
    | a => (a.isWrite = true → holds ∨ (t = .main ∧ q = .unborn)) ∧ Orderly t holds p q rest

section Orderly

variable {t : Task} {holds holds' : Prop} {p p' : MainPoint} {q q' : DelayedPoint}

/-- A strand with nothing to do keeps to the discipline. -/
@[simp] theorem orderly_nil : Orderly t holds p q [] := trivial

/-- An ordinary action may come before anything; if it writes, the strand must be free to. -/
theorem orderly_cons {a : Action} {rest : List Action} (ha : a.isOrdinary = true) :
    Orderly t holds p q (a :: rest) ↔
      (a.isWrite = true → holds ∨ (t = .main ∧ q = .unborn)) ∧ Orderly t holds p q rest := by
  cases a <;> first | rfl | cases ha

/-- Ordinary actions come first. -/
theorem orderly_append {l rest : List Action} (hl : ∀ a ∈ l, a.isOrdinary = true)
    (hfree : (∀ a ∈ l, a.isWrite = false) ∨ holds ∨ (t = .main ∧ q = .unborn))
    (hrest : Orderly t holds p q rest) : Orderly t holds p q (l ++ rest) := by
  induction l with
  | nil => exact hrest
  | cons a l ih =>
      rw [List.cons_append, orderly_cons (hl a List.mem_cons_self)]
      constructor
      · intro hwrite
        rcases hfree with hnone | hfree
        · rw [hnone a List.mem_cons_self] at hwrite
          cases hwrite
        · exact hfree
      · refine ih (fun b hb => hl b (List.mem_cons_of_mem _ hb)) ?_
        rcases hfree with hnone | hfree
        · exact Or.inl fun b hb => hnone b (List.mem_cons_of_mem _ hb)
        · exact Or.inr hfree

/-- The discipline of a strand looks at its own point; it stays when the strand gets the ownership,
and when the other strand moves without being born. -/
theorem Orderly.mono {l : List Action} (h : Orderly t holds p q l) (hholds : holds → holds')
    (hmain : t = .main → p = p' ∧ (q = .unborn → q' = .unborn)) (hdelayed : t = .delayed → q = q') :
    Orderly t holds' p' q' l := by
  induction l with
  | nil => trivial
  | cons a l ih =>
      by_cases ha : a.isOrdinary = true
      · rw [orderly_cons ha] at h ⊢
        refine ⟨fun hwrite => ?_, ih h.2⟩
        rcases h.1 hwrite with hh | ⟨ht, hq⟩
        · exact Or.inl (hholds hh)
        · exact Or.inr ⟨ht, (hmain ht).2 hq⟩
      · cases t with
        | main =>
            obtain ⟨rfl, hq⟩ := hmain rfl
            cases a <;> simp_all [Orderly, Action.isOrdinary]
        | delayed =>
            obtain rfl := hdelayed rfl
            cases a <;> simp_all [Orderly, Action.isOrdinary]

end Orderly

/-- How far the two strands are, who holds the ownership, and whether collection is suspended. -/
structure Work where
  point : MainPoint
  todo : List Action
  delayedPoint : DelayedPoint
  delayedTodo : List Action
  owner : Option Task
  aborted : Bool
  suspended : Bool

def work (c : Coordinator) : Work :=
  ⟨c.main.point, c.main.todo, c.delayed.point, c.delayed.todo, c.owner, c.aborted, c.suspended⟩

namespace Work

/-- Both strands keep to the discipline, and their points say what they hold. -/
structure Disciplined (w : Work) : Prop where
  main : Orderly .main (w.owner = some .main) w.point w.delayedPoint w.todo
  delayed : Orderly .delayed (w.owner = some .delayed) w.point w.delayedPoint w.delayedTodo
  unborn : w.delayedPoint = .unborn → w.delayedTodo = []
  early : w.point.isEarly = true → w.delayedPoint = .unborn
  /-- Nothing is released before the delayed strand is over. -/
  closing : w.point.isClosing = true →
    w.delayedTodo = [] ∧ (w.delayedPoint = .unborn ∨ w.delayedPoint = .ended)
  aborted : w.aborted = true → w.point = .stopping ∨ w.point.isClosing = true
  rebalancing : w.point = .rebalancing →
    (w.owner = some .main ∧ (w.todo = [] ∨ w.todo = [.ask])) ∨ w.todo = [.acquire, .ask]
  checking : w.delayedPoint = .checking →
    (w.owner = some .delayed ∧ (w.delayedTodo = [] ∨ w.delayedTodo = [.look])) ∨
      w.delayedTodo = [.acquire, .look]
  /-- The delayed strand asks only while collection is not suspended. -/
  looked : w.delayedPoint = .checking → w.delayedTodo = [] → w.suspended = false
  ended : ∀ o, w.point = .ended o → w.todo = []

namespace Disciplined

variable {w : Work}

/-- The delayed strand is told to stop only once the main strand goes down. -/
theorem not_aborted (h : w.Disciplined) (hstop : w.point ≠ .stopping)
    (hopen : w.point.isClosing ≠ true) : w.aborted ≠ true := by
  intro haborted
  rcases h.aborted haborted with hpoint | hclosing
  · exact hstop hpoint
  · exact hopen hclosing

/-- The main strand asks while it holds the ownership. -/
theorem owner_of_rebalancing (h : w.Disciplined) (hpoint : w.point = .rebalancing)
    (htodo : w.todo = []) : w.owner = some .main := by
  rcases h.rebalancing hpoint with ⟨howner, -⟩ | hwaits
  · exact howner
  · rw [htodo] at hwaits
    cases hwaits

/-- The delayed strand asks while it holds the ownership. -/
theorem owner_of_checking (h : w.Disciplined) (hpoint : w.delayedPoint = .checking)
    (htodo : w.delayedTodo = []) : w.owner = some .delayed := by
  rcases h.checking hpoint with ⟨howner, -⟩ | hwaits
  · exact howner
  · rw [htodo] at hwaits
    cases hwaits

/-- A strand that has something to do was born. -/
theorem born (h : w.Disciplined) {a : Action} {rest : List Action}
    (htodo : w.delayedTodo = a :: rest) : w.delayedPoint ≠ .unborn := by
  intro hborn
  rw [h.unborn hborn] at htodo
  cases htodo

/-- The main strand, sent to a point with something to do. -/
theorem goMain (h : w.Disciplined) {p : MainPoint} {l : List Action}
    (htodo : Orderly .main (w.owner = some .main) p w.delayedPoint l)
    (hearly : p.isEarly = true → w.delayedPoint = .unborn)
    (hclosing : p.isClosing = true →
      w.delayedTodo = [] ∧ (w.delayedPoint = .unborn ∨ w.delayedPoint = .ended))
    (haborted : w.aborted = true → p = .stopping ∨ p.isClosing = true)
    (hrebalancing : p = .rebalancing →
      (w.owner = some .main ∧ (l = [] ∨ l = [.ask])) ∨ l = [.acquire, .ask])
    (hended : ∀ o, p = .ended o → l = []) :
    Disciplined { w with point := p, todo := l } where
  main := htodo
  delayed := h.delayed.mono id (fun ht => nomatch ht) (fun _ => rfl)
  unborn := h.unborn
  early := hearly
  closing := hclosing
  aborted := haborted
  rebalancing := hrebalancing
  checking := h.checking
  looked := h.looked
  ended := hended

/-- From an early point the main strand may go to another one, or straight to the steady loop. -/
theorem goMain_of_early (h : w.Disciplined) (hw : w.point.isEarly = true) {p : MainPoint}
    {todo : List Action} (hp : p.isEarly = true ∨ p = .steady)
    (htodo : Orderly .main (w.owner = some .main) p .unborn todo) :
    Disciplined { w with point := p, todo } := by
  have hborn : w.delayedPoint = .unborn := h.early hw
  have hnotAborted : w.aborted ≠ true := by
    cases hpoint : w.point with
    | registering | retrying | warming | waiting | settling =>
        exact h.not_aborted (by rw [hpoint]; nofun) (by rw [hpoint]; nofun)
    | _ =>
        rw [hpoint] at hw
        cases hw
  refine h.goMain (by rw [hborn]; exact htodo) (fun _ => hborn) ?_ (fun ha => absurd ha hnotAborted)
    ?_ ?_
  · intro _
    exact ⟨h.unborn hborn, Or.inl hborn⟩
  · intro heq
    subst heq
    rcases hp with hp | hp <;> cases hp
  · intro o heq
    subst heq
    rcases hp with hp | hp <;> cases hp

/-- The main strand, about to release everything; the delayed strand is over. -/
theorem goReleasing (h : w.Disciplined) {l : List Action} {o : Outcome} (ho : o ≠ .crashed)
    (hover : w.delayedTodo = [] ∧ (w.delayedPoint = .unborn ∨ w.delayedPoint = .ended))
    (hbefore : ∀ a ∈ l, a.isOrdinary = true) (hwrites : ∀ a ∈ l, a.isWrite = false) :
    Disciplined { w with point := .releasing, todo := l ++ releaseActions o } := by
  refine h.goMain ?_ (fun hp => nomatch hp) (fun _ => hover) (fun _ => Or.inr rfl)
    (fun hp => nomatch hp) (fun o hp => nomatch hp)
  exact orderly_append hbefore (Or.inl hwrites) (Or.inr (Or.inr ⟨rfl, rfl, o, ho, rfl⟩))

/-- The delayed strand, sent to a point with something to do. -/
theorem goDelayed (h : w.Disciplined) (hborn : w.delayedPoint ≠ .unborn) {q : DelayedPoint}
    {todo : List Action} (hq : q ≠ .unborn)
    (htodo : Orderly .delayed (w.owner = some .delayed) w.point q todo)
    (hclosing : w.point.isClosing = true → todo = [] ∧ q = .ended)
    (hchecking : q = .checking →
      (w.owner = some .delayed ∧ (todo = [] ∨ todo = [.look])) ∨ todo = [.acquire, .look])
    (hlooked : q = .checking → todo = [] → w.suspended = false) :
    Disciplined { w with delayedPoint := q, delayedTodo := todo } where
  main := h.main.mono id (fun _ => ⟨rfl, fun hb => absurd hb hborn⟩) (fun ht => nomatch ht)
  delayed := htodo
  unborn := fun hb => absurd hb hq
  early := fun he => absurd (h.early he) hborn
  closing := fun hc => ⟨(hclosing hc).1, Or.inr (hclosing hc).2⟩
  aborted := h.aborted
  rebalancing := h.rebalancing
  checking := hchecking
  looked := hlooked
  ended := h.ended

/-- A strand that is neither over nor unborn is not in a coordinator that closes. -/
theorem not_closing (h : w.Disciplined) (hborn : w.delayedPoint ≠ .unborn)
    (hlive : w.delayedPoint ≠ .ended ∨ w.delayedTodo ≠ []) : w.point.isClosing ≠ true := by
  intro hclosing
  obtain ⟨htodo, hpoint⟩ := h.closing hclosing
  rcases hlive with hlive | hlive
  · rcases hpoint with hpoint | hpoint
    · exact hborn hpoint
    · exact hlive hpoint
  · exact hlive htodo

/-- The main strand goes on with what it has to do. -/
theorem setTodo (h : w.Disciplined) {a : Action} {rest l : List Action}
    (hrest : w.todo = a :: rest) (ha : a ≠ .acquire) (hask : a = .ask → l = [])
    (htodo : Orderly .main (w.owner = some .main) w.point w.delayedPoint l) :
    Disciplined { w with todo := l } := by
  refine h.goMain htodo h.early h.closing h.aborted ?_ ?_
  · intro hpoint
    have hasking := h.rebalancing hpoint
    rw [hrest] at hasking
    rcases hasking with ⟨howner, hnone | hone⟩ | hwaits
    · cases hnone
    · exact Or.inl ⟨howner, Or.inl (hask (List.cons.inj hone).1)⟩
    · exact absurd (List.cons.inj hwaits).1 ha
  · intro o hpoint
    rw [h.ended o hpoint] at hrest
    cases hrest

/-- The delayed strand goes on with what it has to do. -/
theorem setDelayedTodo (h : w.Disciplined) {a : Action} {rest todo : List Action}
    (hrest : w.delayedTodo = a :: rest) (ha : a ≠ .acquire)
    (hlook : a = .look → todo = [] ∧ w.suspended = false)
    (htodo : Orderly .delayed (w.owner = some .delayed) w.point w.delayedPoint todo) :
    Disciplined { w with delayedTodo := todo } := by
  have hborn : w.delayedPoint ≠ .unborn := h.born hrest
  have hlooks : w.delayedPoint = .checking → w.owner = some .delayed ∧ a = .look := by
    intro hpoint
    have hchecking := h.checking hpoint
    rw [hrest] at hchecking
    rcases hchecking with ⟨howner, hnone | hone⟩ | hwaits
    · cases hnone
    · exact ⟨howner, (List.cons.inj hone).1⟩
    · exact absurd (List.cons.inj hwaits).1 ha
  refine h.goDelayed hborn hborn htodo ?_ ?_ ?_
  · intro hclosing
    rw [(h.closing hclosing).1] at hrest
    cases hrest
  · intro hpoint
    obtain ⟨howner, hlook'⟩ := hlooks hpoint
    exact Or.inl ⟨howner, Or.inl (hlook hlook').1⟩
  · intro hpoint _
    exact (hlook (hlooks hpoint).2).2

/-- The ownership passes while the delayed strand does not hold it, and the main strand goes on. -/
theorem passMain (h : w.Disciplined) (hfree : w.owner ≠ some .delayed) {rest : List Action}
    {owner : Option Task}
    (hrest : Orderly .main (owner = some .main) w.point w.delayedPoint rest)
    (hrebalancing : w.point = .rebalancing → owner = some .main ∧ rest = [.ask])
    (hended : ∀ o, w.point = .ended o → rest = []) :
    Disciplined { w with todo := rest, owner } where
  main := hrest
  delayed := h.delayed.mono (fun ho => absurd ho hfree) (fun ht => nomatch ht) (fun _ => rfl)
  unborn := h.unborn
  early := h.early
  closing := h.closing
  aborted := h.aborted
  rebalancing := fun hp => Or.inl ⟨(hrebalancing hp).1, Or.inr (hrebalancing hp).2⟩
  checking := fun hp => Or.inr ((h.checking hp).resolve_left fun hc => hfree hc.1)
  looked := h.looked
  ended := hended

/-- The ownership passes while the main strand does not hold it, and the delayed strand goes on. -/
theorem passDelayed (h : w.Disciplined) (hborn : w.delayedPoint ≠ .unborn)
    (hfree : w.owner ≠ some .main) {q : DelayedPoint} (hq : q ≠ .unborn) {rest : List Action}
    {owner : Option Task}
    (hrest : Orderly .delayed (owner = some .delayed) w.point q rest)
    (hclosing : w.point.isClosing = true → rest = [] ∧ q = .ended)
    (hchecking : q = .checking → owner = some .delayed ∧ rest = [.look]) :
    Disciplined { w with delayedPoint := q, delayedTodo := rest, owner } where
  main := h.main.mono (fun ho => absurd ho hfree) (fun _ => ⟨rfl, fun hb => absurd hb hborn⟩)
    (fun ht => nomatch ht)
  delayed := hrest
  unborn := fun hb => absurd hb hq
  early := fun he => absurd (h.early he) hborn
  closing := fun hc => ⟨(hclosing hc).1, Or.inr (hclosing hc).2⟩
  aborted := h.aborted
  rebalancing := fun hp => Or.inr ((h.rebalancing hp).resolve_left fun hr => hfree hr.1)
  checking := fun hp => Or.inl ⟨(hchecking hp).1, Or.inr (hchecking hp).2⟩
  looked := fun hp hrest => by
    rw [(hchecking hp).2] at hrest
    cases hrest
  ended := h.ended

end Disciplined

end Work

variable {c c' : Coordinator}

/-- In the steady loop nothing has been told to stop. -/
theorem not_aborted_of_steady (h : c.work.Disciplined) (hpoint : c.main.point = .steady) :
    c.work.aborted ≠ true := by
  have hp : c.work.point = .steady := hpoint
  exact h.not_aborted (by rw [hp]; nofun) (by rw [hp]; nofun)

/-- The main strand does something ordinary. -/
theorem disciplined_ordinary_main (h : c.work.Disciplined) {a : Action} {rest : List Action}
    (htodo : c.main.todo = a :: rest) (ha : a.isOrdinary = true) :
    (exec .main a (c.setTodo .main rest)).1.work.Disciplined := by
  have hw : c.work.todo = a :: rest := htodo
  have hmain : Orderly .main (c.owner = some .main) c.main.point c.delayed.point (a :: rest) :=
    htodo ▸ h.main
  rw [orderly_cons ha] at hmain
  cases a with
  | dropMain =>
      exact h.setTodo hw (by nofun) (by nofun)
        ((orderly_cons rfl).2 ⟨fun _ => hmain.1 rfl, hmain.2⟩)
  | dropExtra hadMain =>
      simp only [exec]
      split
      · exact h.setTodo hw (by nofun) (by nofun) ((orderly_cons rfl).2 ⟨nofun, hmain.2⟩)
      · exact h.setTodo hw (by nofun) (by nofun) hmain.2
  | setSuspended on =>
      have hnext := h.setTodo hw (by nofun) (by nofun) hmain.2
      refine { hnext with looked := fun hpoint htodo' => ?_ }
      -- The delayed strand would hold the ownership, and so the main strand could not write.
      have howner : c.owner = some .delayed := h.owner_of_checking hpoint htodo'
      rcases hmain.1 rfl with hmine | ⟨-, hborn⟩
      · exact nomatch (hmine.symm.trans howner)
      · exact nomatch (hborn.symm.trans hpoint)
  | acquire | unlock | ask | look | settle | startTicker | spawnDelayed | abortDelayed
  | finish => cases ha
  | _ => exact h.setTodo hw (by nofun) (by nofun) hmain.2

/-- The main strand takes the ownership, before it asks or before it releases everything. -/
theorem disciplined_acquire_main (h : c.work.Disciplined) {rest : List Action}
    (htodo : c.main.todo = .acquire :: rest) (hfree : c.isBlocked .main = false)
    (hended : ∀ o, c.work.point ≠ .ended o) :
    (exec .main .acquire (c.setTodo .main rest)).1.work.Disciplined := by
  have hmain : Orderly .main (c.owner = some .main) c.main.point c.delayed.point
      (.acquire :: rest) := htodo ▸ h.main
  have hnotDelayed : c.work.owner ≠ some .delayed := by
    intro howner
    have howner' : c.owner = some .delayed := howner
    simp [isBlocked, todo, htodo, mayAcquire, howner'] at hfree
  rcases hmain with ⟨-, -, rfl⟩ | ⟨ht, -⟩ | ⟨-, hpoint, o, ho, hrelease⟩
  · exact h.passMain hnotDelayed ⟨rfl, rfl⟩ (fun _ => ⟨rfl, rfl⟩)
      (fun o ho => absurd ho (hended o))
  · cases ht
  · obtain rfl := (List.cons.inj hrelease).2
    refine h.passMain hnotDelayed ?_ (fun hp => nomatch (hpoint.symm.trans hp))
      (fun o ho => absurd ho (hended o))
    refine (orderly_cons rfl).2 ⟨fun _ => Or.inl rfl, (orderly_cons rfl).2
      ⟨fun _ => Or.inl rfl, rfl, Or.inr (Or.inr ⟨rfl, hpoint, o, ho, rfl⟩)⟩⟩

/-- The main strand gives up the ownership, after a decision or after the release. -/
theorem disciplined_unlock_main (h : c.work.Disciplined) {rest : List Action}
    (htodo : c.main.todo = .unlock :: rest) (hended : ∀ o, c.work.point ≠ .ended o) :
    (exec .main .unlock (c.setTodo .main rest)).1.work.Disciplined := by
  have hmain : Orderly .main (c.owner = some .main) c.main.point c.delayed.point
      (.unlock :: rest) := htodo ▸ h.main
  obtain ⟨hholds, hrest⟩ := hmain
  have hnotDelayed : c.work.owner ≠ some .delayed := by
    intro howner
    exact nomatch (hholds.symm.trans howner)
  simp only [exec, handOver_eq]
  refine h.passMain hnotDelayed ?_ ?_ (fun o ho => absurd ho (hended o))
  · rcases hrest with ⟨-, hpoint, rfl | rfl⟩ | ⟨ht, -⟩ | ⟨-, hpoint, o, ho, rfl⟩
    · trivial
    · exact ⟨rfl, hpoint, rfl⟩
    · cases ht
    · exact ⟨rfl, hpoint, ho, rfl⟩
  · intro hpoint
    rcases hrest with ⟨-, hsteady, -⟩ | ⟨ht, -⟩ | ⟨-, hreleasing, -⟩
    · exact nomatch (hsteady.symm.trans hpoint)
    · cases ht
    · exact nomatch (hreleasing.symm.trans hpoint)

/-- The main strand's actions keep the discipline. -/
theorem disciplined_exec_main (h : c.work.Disciplined) {a : Action} {rest : List Action}
    (htodo : c.main.todo = a :: rest) (hfree : c.isBlocked .main = false) :
    (exec .main a (c.setTodo .main rest)).1.work.Disciplined := by
  have hw : c.work.todo = a :: rest := htodo
  have hmain : Orderly .main (c.owner = some .main) c.main.point c.delayed.point (a :: rest) :=
    htodo ▸ h.main
  have hended : ∀ o, c.work.point ≠ .ended o := by
    intro o ho
    rw [h.ended o ho] at hw
    cases hw
  by_cases ha : a.isOrdinary = true
  · exact disciplined_ordinary_main h htodo ha
  · cases a with
    | acquire => exact disciplined_acquire_main h htodo hfree hended
    | unlock => exact disciplined_unlock_main h htodo hended
    | ask =>
        obtain ⟨-, rfl⟩ := hmain
        exact h.setTodo hw (by nofun) (fun _ => rfl) trivial
    | look => cases hmain.1
    | settle =>
        obtain ⟨-, -, rfl⟩ := hmain
        exact h.setTodo hw (by nofun) (fun _ => rfl) trivial
    | startTicker =>
        obtain ⟨-, hpoint, rfl⟩ := hmain
        simp only [exec]
        split
        · have hnotAborted : c.work.aborted ≠ true := not_aborted_of_steady h hpoint
          exact h.goMain (p := .ended .crashed) (l := []) trivial (fun he => nomatch he)
            (fun hc => nomatch hc) (fun ha => absurd ha hnotAborted) (fun hp => nomatch hp)
            (fun _ _ => rfl)
        · exact h.setTodo hw (by nofun) (fun _ => rfl) trivial
    | spawnDelayed =>
        obtain ⟨-, hpoint, hborn, rfl⟩ := hmain
        have hearly : c.main.point.isEarly ≠ true := by rw [hpoint]; nofun
        have hclosing : c.main.point.isClosing ≠ true := by rw [hpoint]; nofun
        exact {
          main := ⟨rfl, hpoint, rfl⟩
          delayed := (orderly_cons rfl).2 ⟨nofun, trivial⟩
          unborn := fun hb => nomatch hb
          early := fun he => absurd he hearly
          closing := fun hc => absurd hc hclosing
          aborted := h.aborted
          rebalancing := fun hp => nomatch (hpoint.symm.trans hp)
          checking := fun hp => nomatch hp
          looked := fun hp => nomatch hp
          ended := fun o ho => absurd ho (hended o) }
    | abortDelayed =>
        obtain ⟨-, hpoint, rfl⟩ := hmain
        have hnext := h.setTodo hw (by nofun) (fun _ => rfl) (l := []) trivial
        exact { hnext with aborted := fun _ => Or.inl hpoint }
    | finish o =>
        obtain ⟨-, hpoint, ho, rfl⟩ := hmain
        refine h.goMain (p := .ended o) (l := []) trivial (fun he => nomatch he) ?_ ?_
          (fun hp => nomatch hp) (fun _ _ => rfl)
        · intro _
          exact h.closing (by rw [show c.work.point = .releasing from hpoint]; rfl)
        · intro _
          exact Or.inr (MainPoint.isClosing_ended ho)
    | _ => exact absurd rfl ha

/-- The delayed strand does something ordinary. -/
theorem disciplined_ordinary_delayed (h : c.work.Disciplined) {a : Action} {rest : List Action}
    (htodo : c.delayed.todo = a :: rest) (ha : a.isOrdinary = true) :
    (exec .delayed a (c.setTodo .delayed rest)).1.work.Disciplined := by
  have hw : c.work.delayedTodo = a :: rest := htodo
  have hdelayed : Orderly .delayed (c.owner = some .delayed) c.main.point c.delayed.point
      (a :: rest) := htodo ▸ h.delayed
  rw [orderly_cons ha] at hdelayed
  cases a with
  | dropMain =>
      exact h.setDelayedTodo hw (by nofun) (by nofun)
        ((orderly_cons rfl).2 ⟨fun _ => hdelayed.1 rfl, hdelayed.2⟩)
  | dropExtra hadMain =>
      simp only [exec]
      split
      · exact h.setDelayedTodo hw (by nofun) (by nofun)
          ((orderly_cons rfl).2 ⟨nofun, hdelayed.2⟩)
      · exact h.setDelayedTodo hw (by nofun) (by nofun) hdelayed.2
  | setSuspended on =>
      have hnext := h.setDelayedTodo hw (by nofun) (by nofun) hdelayed.2
      refine { hnext with looked := fun hpoint _ => ?_ }
      have hchecking := h.checking hpoint
      rw [hw] at hchecking
      rcases hchecking with ⟨-, hnone | hone⟩ | hwaits
      · cases hnone
      · cases (List.cons.inj hone).1
      · cases (List.cons.inj hwaits).1
  | acquire | unlock | ask | look | settle | startTicker | spawnDelayed | abortDelayed
  | finish => cases ha
  | _ => exact h.setDelayedTodo hw (by nofun) (by nofun) hdelayed.2

/-- The delayed strand's actions keep the discipline. -/
theorem disciplined_exec_delayed (h : c.work.Disciplined) {a : Action} {rest : List Action}
    (htodo : c.delayed.todo = a :: rest) (hfree : c.isBlocked .delayed = false) :
    (exec .delayed a (c.setTodo .delayed rest)).1.work.Disciplined := by
  have hw : c.work.delayedTodo = a :: rest := htodo
  have hdelayed : Orderly .delayed (c.owner = some .delayed) c.main.point c.delayed.point
      (a :: rest) := htodo ▸ h.delayed
  have hborn : c.work.delayedPoint ≠ .unborn := h.born hw
  have hopen : c.work.point.isClosing ≠ true :=
    h.not_closing hborn (Or.inr (by rw [hw]; nofun))
  by_cases ha : a.isOrdinary = true
  · exact disciplined_ordinary_delayed h htodo ha
  · cases a with
    | acquire =>
        have hnotMain : c.work.owner ≠ some .main := by
          intro howner
          have howner' : c.owner = some .main := howner
          simp [isBlocked, todo, htodo, mayAcquire, howner'] at hfree
        rcases hdelayed with ⟨ht, -⟩ | ⟨-, hpoint, rfl⟩ | ⟨ht, -⟩
        · cases ht
        · exact h.passDelayed hborn hnotMain hborn ⟨rfl, hpoint, rfl, rfl⟩
            (fun hc => absurd hc hopen) (fun _ => ⟨rfl, rfl⟩)
        · cases ht
    | unlock =>
        obtain ⟨hholds, hrest⟩ := hdelayed
        have hnotMain : c.work.owner ≠ some .main := by
          intro howner
          exact nomatch (hholds.symm.trans howner)
        simp only [exec, handOver_eq]
        rcases hrest with ⟨ht, -⟩ | ⟨-, hpoint, rfl⟩ | ⟨ht, -⟩
        · cases ht
        · exact h.passDelayed hborn hnotMain hborn trivial (fun hc => absurd hc hopen)
            (fun hp => nomatch (hpoint.symm.trans hp))
        · cases ht
    | look =>
        obtain ⟨-, hpoint, hholds, rfl⟩ := hdelayed
        simp only [exec]
        split
        · exact h.goDelayed hborn (q := .ended) (by nofun)
            ⟨hholds, Or.inr (Or.inl ⟨rfl, rfl, rfl⟩)⟩ (fun hc => absurd hc hopen)
            (fun hp => nomatch hp) (fun hp => nomatch hp)
        · next hsuspended =>
          exact h.setDelayedTodo hw (by nofun)
            (fun _ => ⟨rfl, Bool.eq_false_iff.2 hsuspended⟩) trivial
    | ask | settle | startTicker | spawnDelayed | abortDelayed | finish => cases hdelayed.1
    | _ => exact absurd rfl ha

/-- The delayed strand leaves the main strand alone, and all that is known of changes. -/
theorem exec_delayed_frame (h : c.work.Disciplined) {a : Action} {rest : List Action}
    (htodo : c.delayed.todo = a :: rest) :
    (exec .delayed a (c.setTodo .delayed rest)).1.main = c.main ∧
      (exec .delayed a (c.setTodo .delayed rest)).1.changes = c.changes ∧
      (exec .delayed a (c.setTodo .delayed rest)).1.dirty = c.dirty ∧
      (exec .delayed a (c.setTodo .delayed rest)).1.listening = c.listening := by
  have hdelayed : Orderly .delayed (c.owner = some .delayed) c.main.point c.delayed.point
      (a :: rest) := htodo ▸ h.delayed
  cases a with
  | unlock =>
      simp only [exec, handOver_eq]
      exact ⟨rfl, rfl, rfl, rfl⟩
  | look | dropExtra =>
      simp only [exec]
      split <;> exact ⟨rfl, rfl, rfl, rfl⟩
  | ask | settle | startTicker | spawnDelayed | abortDelayed | finish => cases hdelayed.1
  | _ => exact ⟨rfl, rfl, rfl, rfl⟩

section Decisions

variable {cluster : ClusterConfig} {slot : Nat} {slots : SlotMap} {source : String}
  {suspended : Bool} {members : List Member} {a : Action}

/-- What takes over, or takes nothing over, is part of a decision. -/
theorem ofDecision_of_mem_takeoverActions (ha : a ∈ takeoverActions slot slots source) :
    a.OfDecision := by
  unfold takeoverActions at ha
  grind [Action.OfDecision]

/-- A decision of the steady loop is carried out by nothing else. -/
theorem ofDecision_of_mem_rebalanceActions
    (ha : a ∈ rebalanceActions cluster slot suspended members) : a.OfDecision := by
  unfold rebalanceActions at ha
  simp only [List.mem_append, List.mem_map] at ha
  rcases ha with ((⟨e, -, rfl⟩ | ha) | ha) | ha
  · exact .report e
  · obtain rfl := List.mem_singleton.1 ha
    exact .measure _
  · split at ha
    · rcases List.mem_append.1 ha with ha | ha
      · unfold unsuspendActions at ha
        grind [Action.OfDecision]
      · exact ofDecision_of_mem_takeoverActions ha
    · unfold suspendActions at ha
      grind [Action.OfDecision]
  · grind [Action.OfDecision]

/-- Nor is what the delayed strand does about failed slots. -/
theorem ofDecision_of_mem_delayedActions (ha : a ∈ delayedActions cluster slot members) :
    a.OfDecision := by
  unfold delayedActions at ha
  rcases List.mem_cons.1 ha with rfl | ha
  · exact .measure _
  · split at ha
    · cases ha
    · rcases List.mem_append.1 ha with ha | ha
      · exact ofDecision_of_mem_takeoverActions ha
      · grind [Action.OfDecision]

/-- So both are made of ordinary actions. -/
theorem isOrdinary_of_mem_rebalanceActions
    (ha : a ∈ rebalanceActions cluster slot suspended members) : a.isOrdinary = true :=
  (ofDecision_of_mem_rebalanceActions ha).isOrdinary

/-- A takeover of the delayed strand is, too. -/
theorem isOrdinary_of_mem_delayedActions (ha : a ∈ delayedActions cluster slot members) :
    a.isOrdinary = true :=
  (ofDecision_of_mem_delayedActions ha).isOrdinary

end Decisions

/-- Looking once more, or giving up, keeps the discipline. -/
theorem disciplined_retry (h : c.work.Disciplined) (hearly : c.main.point.isEarly = true)
    {attempt : Nat} {before : List Action} (hbefore : ∀ a ∈ before, a.isOrdinary = true)
    (hwrites : ∀ a ∈ before, a.isWrite = false) : (c.retry attempt before).work.Disciplined := by
  have hborn : c.work.delayedPoint = .unborn := h.early hearly
  unfold retry
  split
  · exact h.goMain_of_early hearly (Or.inl rfl)
      (orderly_append hbefore (Or.inl hwrites) ((orderly_cons rfl).2 ⟨nofun, trivial⟩))
  · exact h.goReleasing (by nofun) ⟨h.unborn hborn, Or.inl hborn⟩ hbefore hwrites

/-- An answer while the coordinator looks for itself. -/
theorem disciplined_registration (h : c.work.Disciplined) {attempt : Nat}
    (hpoint : c.main.point = .registering attempt) (a : Answer) :
    (c.onRegistration attempt a).work.Disciplined := by
  have hearly : c.main.point.isEarly = true := by rw [hpoint]; rfl
  cases a with
  | ok members =>
      unfold onRegistration
      dsimp only
      split
      · exact h.goMain_of_early hearly (Or.inl rfl)
          (orderly_append (l := [_, _]) (by simp [Action.isOrdinary])
            (Or.inr (Or.inr ⟨rfl, rfl⟩)) ⟨rfl, rfl⟩)
      · exact disciplined_retry h hearly (by simp [Action.isOrdinary]) (by simp [Action.isWrite])
  | error e =>
      exact disciplined_retry h hearly (by simp [Action.isOrdinary]) (by simp [Action.isWrite])

/-- An answer while the coordinator waits for enough members. -/
theorem disciplined_warmup (h : c.work.Disciplined) (hpoint : c.main.point = .warming)
    (a : Answer) : (c.onWarmup a).work.Disciplined := by
  have hearly : c.main.point.isEarly = true := by rw [hpoint]; rfl
  have halone : ∀ {p : MainPoint} {l : List Action}, (∀ a ∈ l, a.isOrdinary = true) →
      Orderly .main (c.owner = some .main) p .unborn l := by
    intro p l hl
    rw [← List.append_nil l]
    exact orderly_append hl (Or.inr (Or.inr ⟨rfl, rfl⟩)) trivial
  cases a with
  | ok members =>
      unfold onWarmup
      dsimp only
      split
      · exact h.goMain_of_early hearly (Or.inl rfl)
          (halone (l := [_, _, _, _]) (by simp [Action.isOrdinary]))
      · exact h.goMain_of_early hearly (Or.inl rfl)
          (halone (l := [_, _, _]) (by simp [Action.isOrdinary]))
  | error e =>
      exact h.goMain_of_early hearly (Or.inl rfl)
        (halone (l := [_, _, _, _]) (by simp [Action.isOrdinary]))

/-- An answer in the steady loop. -/
theorem disciplined_rebalance (h : c.work.Disciplined) (htodo : c.main.todo = [])
    (hpoint : c.main.point = .rebalancing) (a : Answer) :
    (c.onRebalance a).work.Disciplined := by
  have hp : c.work.point = .rebalancing := hpoint
  have howner : c.owner = some .main := h.owner_of_rebalancing hpoint htodo
  have hnotAborted : c.work.aborted ≠ true :=
    h.not_aborted (by rw [hp]; nofun) (by rw [hp]; nofun)
  have hsteady : ∀ {todo : List Action},
      Orderly .main (c.owner = some .main) .steady c.delayed.point todo →
      (c.goMain .steady todo).work.Disciplined := by
    intro todo htodo'
    exact h.goMain htodo' (fun he => nomatch he) (fun hc => nomatch hc)
      (fun ha => absurd ha hnotAborted) (fun hp => nomatch hp) (fun o hp => nomatch hp)
  cases a with
  | ok members =>
      exact hsteady (orderly_append (fun a => isOrdinary_of_mem_rebalanceActions)
        (Or.inr (Or.inl howner)) ⟨howner, Or.inl ⟨rfl, rfl, Or.inr rfl⟩⟩)
  | error e =>
      exact hsteady (orderly_append (l := [_, _, _, _]) (by simp [Action.isOrdinary])
        (Or.inr (Or.inl howner)) ⟨howner, Or.inl ⟨rfl, rfl, Or.inl rfl⟩⟩)

/-- While the delayed strand waits or asks, nothing is released. -/
theorem not_closing_of_alive (h : c.work.Disciplined) (hborn : c.delayed.point ≠ .unborn)
    (halive : c.delayed.point ≠ .ended) : c.main.point.isClosing ≠ true :=
  h.not_closing hborn (Or.inl halive)

/-- An answer to the delayed strand. -/
theorem disciplined_check (h : c.work.Disciplined) (htodo : c.delayed.todo = [])
    (hpoint : c.delayed.point = .checking) (a : Answer) : (c.onDelayed a).work.Disciplined := by
  have hborn : c.delayed.point ≠ .unborn := by rw [hpoint]; nofun
  have hopen : c.main.point.isClosing ≠ true :=
    not_closing_of_alive h hborn (by rw [hpoint]; nofun)
  have howner : c.owner = some .delayed := h.owner_of_checking hpoint htodo
  have hended : ∀ {l : List Action}, (∀ a ∈ l, a.isOrdinary = true) →
      (c.goDelayed .ended (l ++ [.unlock])).work.Disciplined := by
    intro l hl
    exact h.goDelayed hborn (by nofun)
      (orderly_append hl (Or.inr (Or.inl howner)) ⟨howner, Or.inr (Or.inl ⟨rfl, rfl, rfl⟩)⟩)
      (fun hc => absurd hc hopen) (fun hp => nomatch hp) (fun hp => nomatch hp)
  cases a with
  | ok members => exact hended fun a => isOrdinary_of_mem_delayedActions
  | error e => exact hended (l := [_, _, _]) (by simp [Action.isOrdinary])

/-- What is cut off was born. -/
theorem born_of_mayCut (h : c.work.Disciplined) (hcut : c.mayCut = true) :
    c.delayed.point ≠ .unborn := by
  intro hborn
  have hnone : c.delayed.todo = [] := h.unborn hborn
  simp [mayCut, delayedIsOver, hnone, hborn] at hcut

/-- Cut off, the delayed strand has nothing more to do, and gives up the ownership. -/
theorem disciplined_cutDelayed (h : c.work.Disciplined) (hborn : c.delayed.point ≠ .unborn) :
    c.cutDelayed.work.Disciplined := by
  unfold cutDelayed
  dsimp only
  split
  · next howner =>
    rw [handOver_eq]
    have hnotMain : c.work.owner ≠ some .main := by
      intro hmain
      exact nomatch (howner.symm.trans hmain)
    exact h.passDelayed hborn hnotMain (by nofun) trivial (fun _ => ⟨rfl, rfl⟩)
      (fun hp => nomatch hp)
  · exact h.goDelayed hborn (by nofun) trivial (fun _ => ⟨rfl, rfl⟩) (fun hp => nomatch hp)
      (fun hp => nomatch hp)

/-- **Every move keeps the discipline.** -/
theorem disciplined_of_moves {s : Step} {es : List Effect} (hm : Moves c s c' es)
    (h : c.work.Disciplined) : c'.work.Disciplined := by
  cases hm with
  | queue => exact h
  | @act t a rest htodo hfree =>
      cases t with
      | main => exact disciplined_exec_main h htodo hfree
      | delayed => exact disciplined_exec_delayed h htodo hfree
  | registration _ hpoint => exact disciplined_registration h hpoint _
  | warmup _ hpoint => exact disciplined_warmup h hpoint _
  | rebalance htodo hpoint => exact disciplined_rebalance h htodo hpoint _
  | check htodo hpoint => exact disciplined_check h htodo hpoint _
  | wakeRetrying htodo hpoint =>
      exact h.goMain_of_early (by rw [show c.work.point = _ from hpoint]; rfl) (Or.inl rfl)
        ⟨rfl, rfl⟩
  | wakeWaiting htodo hpoint =>
      exact h.goMain_of_early (by rw [show c.work.point = _ from hpoint]; rfl) (Or.inl rfl)
        ⟨rfl, rfl⟩
  | enter htodo hpoint _ =>
      exact h.goMain_of_early (by rw [show c.work.point = _ from hpoint]; rfl) (Or.inr rfl)
        (orderly_append (l := [_, _, _, _]) (by simp [Action.isOrdinary])
          (Or.inr (Or.inr ⟨rfl, rfl⟩)) ⟨rfl, rfl, rfl, rfl⟩)
  | wakeDelayed htodo hpoint =>
      have hborn : c.delayed.point ≠ .unborn := by rw [hpoint]; nofun
      have hopen : c.main.point.isClosing ≠ true :=
        not_closing_of_alive h hborn (by rw [hpoint]; nofun)
      exact h.goDelayed hborn (by nofun) (Or.inr (Or.inl ⟨rfl, rfl, rfl⟩))
        (fun hc => absurd hc hopen) (fun _ => Or.inr rfl) (fun _ htodo => nomatch htodo)
  | leave htodo hpoint hpause _ =>
      have hearly : c.work.point.isEarly = true := by
        rw [show c.work.point = _ from hpoint]
        rcases hpause with rfl | rfl | ⟨attempt, rfl⟩ <;> rfl
      have hborn : c.work.delayedPoint = .unborn := h.early hearly
      exact h.goReleasing (l := []) (by nofun) ⟨h.unborn hborn, Or.inl hborn⟩ (by nofun)
        (by nofun)
  | halt htodo hpoint _ =>
      exact h.goMain ⟨rfl, rfl, rfl⟩ (fun he => nomatch he) (fun hc => nomatch hc)
        (fun _ => Or.inl rfl) (fun hp => nomatch hp) (fun o hp => nomatch hp)
  | stopDelayed htodo hpoint _ =>
      have hborn : c.delayed.point ≠ .unborn := by rw [hpoint]; nofun
      exact h.goDelayed hborn (by nofun) trivial (fun _ => ⟨rfl, rfl⟩) (fun hp => nomatch hp)
        (fun hp => nomatch hp)
  | tick htodo hpoint _ =>
      exact h.goMain (Or.inl ⟨rfl, rfl, rfl⟩) (fun he => nomatch he) (fun hc => nomatch hc)
        (fun ha => absurd ha (not_aborted_of_steady h hpoint)) (fun _ => Or.inr rfl)
        (fun o hp => nomatch hp)
  | tickIdle => exact h
  | hear => exact h
  | hearEnd => exact h
  | cut hcut => exact disciplined_cutDelayed h (born_of_mayCut h hcut)
  | join htodo hpoint hover =>
      simp only [delayedIsOver, Bool.and_eq_true, List.isEmpty_iff, Bool.or_eq_true,
        beq_iff_eq] at hover
      exact h.goReleasing (l := []) (by nofun) hover (by nofun) (by nofun)
  | pass => exact h
  | request => exact h
  | change => exact h
  | changesEnd => exact h

/-- A coordinator about to start keeps the discipline. -/
theorem disciplined_start (cluster : ClusterConfig) (timers : TimerConfig) (devices : List Device)
    (updates changes : Signal) (clock : Nat) :
    (start cluster timers devices updates changes clock).work.Disciplined where
  main := ⟨rfl, rfl⟩
  delayed := trivial
  unborn := fun _ => rfl
  early := fun _ => rfl
  closing := fun hc => nomatch hc
  aborted := fun ha => nomatch ha
  rebalancing := fun hp => nomatch hp
  checking := fun hp => nomatch hp
  looked := fun hp => nomatch hp
  ended := fun _ hp => nomatch hp

/-- A run keeps the discipline that it started with. -/
theorem disciplined_of_run {c₀ : Coordinator} {log : List Moment} (hrun : Run c₀ log c)
    (h₀ : c₀.work.Disciplined) : c.work.Disciplined := by
  induction hrun with
  | start => exact h₀
  | step _ hstep ih => exact disciplined_of_moves (moves_of_step? hstep) ih

/-! ### What actions and moves leave alone -/

/-- No action moves the main strand to another point, unless to an end. -/
theorem point_exec (t : Task) (a : Action) (c : Coordinator) :
    (exec t a c).1.main.point = c.main.point ∨
      (a = .startTicker ∧ c.timers.watchInterval.isZero = true ∧
        (exec t a c).1.main.point = .ended .crashed) ∨
      ∃ o, a = .finish o ∧ (exec t a c).1.main.point = .ended o := by
  cases a with
  | unlock =>
      left
      show c.handOver.main.point = c.main.point
      rw [handOver_eq]
  | look =>
      simp only [exec]
      split <;> exact Or.inl rfl
  | dropExtra =>
      simp only [exec]
      cases t <;> split <;> exact Or.inl rfl
  | startTicker =>
      simp only [exec]
      split
      · next hzero => exact Or.inr (Or.inl ⟨trivial, hzero, rfl⟩)
      · exact Or.inl rfl
  | finish o => exact Or.inr (Or.inr ⟨o, rfl, rfl⟩)
  | _ => cases t <;> exact Or.inl rfl

/-- No action changes the timers, and none takes time. -/
theorem timers_exec (t : Task) (a : Action) (c : Coordinator) :
    (exec t a c).1.timers = c.timers ∧ (exec t a c).1.clock = c.clock := by
  cases a with
  | unlock =>
      show c.handOver.timers = c.timers ∧ c.handOver.clock = c.clock
      rw [handOver_eq]
      exact ⟨rfl, rfl⟩
  | look | startTicker =>
      simp only [exec]
      split <;> exact ⟨rfl, rfl⟩
  | dropExtra =>
      simp only [exec]
      cases t <;> split <;> exact ⟨rfl, rfl⟩
  | _ => cases t <;> exact ⟨rfl, rfl⟩

/-- **No move changes the timers, and none goes back in time.** -/
theorem timers_of_moves {c' : Coordinator} {s : Step} {es : List Effect}
    (hm : Moves c s c' es) : c'.timers = c.timers ∧ c.clock ≤ c'.clock := by
  cases hm with
  | @act t a rest _ _ =>
      obtain ⟨htimers, hclock⟩ := timers_exec t a (c.setTodo t rest)
      rw [htimers, hclock]
      cases t <;> exact ⟨rfl, Nat.le_refl _⟩
  | registration =>
      obtain ⟨slot, p, l, hgo⟩ := exists_onRegistration_eq c _ _
      rw [hgo]
      exact ⟨rfl, Nat.le_refl _⟩
  | warmup =>
      obtain ⟨p, l, hgo⟩ := exists_onWarmup_eq c _
      rw [hgo]
      exact ⟨rfl, Nat.le_refl _⟩
  | @rebalance a _ _ | @check a _ _ => cases a <;> exact ⟨rfl, Nat.le_refl _⟩
  | cut =>
      obtain ⟨owner, queue, hcut⟩ := exists_cutDelayed_eq c
      rw [hcut]
      exact ⟨rfl, Nat.le_refl _⟩
  | pass hclock => exact ⟨rfl, hclock⟩
  | _ => exact ⟨rfl, Nat.le_refl _⟩

end Coordinator

/-- A run leaves the timers alone, and does not go back in time. -/
theorem Run.timers {c₀ c : Coordinator} {log : List Moment} (h : Run c₀ log c) :
    c.timers = c₀.timers ∧ c₀.clock ≤ c.clock := by
  induction h with
  | start => exact ⟨rfl, Nat.le_refl _⟩
  | step _ hstep ih =>
      obtain ⟨htimers, hclock⟩ := Coordinator.timers_of_moves (Coordinator.moves_of_step? hstep)
      exact ⟨htimers.trans ih.1, Nat.le_trans ih.2 hclock⟩

end FleetSharding
