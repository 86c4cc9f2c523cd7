import FleetSharding.Proofs.Coordinator.Attention
import FleetSharding.Proofs.Membership

/-!
# A coordinator that watches a membership

Whoever changes a membership writes the list first and signals the change some time later; a query
takes its snapshot of the list some time after it was made and returns it later still.  In between
anything may happen, and signals that do not fit into the channel are dropped.

* `Watching.act?`: all that can happen, one write, signal, snapshot, answer or step at a time.
* `Watching.Alert`: no change is lost, while a snapshot is on its way and while it is acted on.
* `Watching.change_is_known`: in the steady loop a change is to be signalled, or pending, or known
  of, until a decision was made on a list that has it.
-/

namespace FleetSharding

/-- A coordinator and the membership that it watches. -/
structure Watching where
  core : Coordinator
  membership : Membership
  /-- How many writes there were; each has its number. -/
  writes : Nat
  /-- The writes that changed the list. -/
  changing : List Nat
  /-- The writes that are still to be signalled. -/
  owed : List Nat
  /-- The snapshots on their way, with the number of the last write in them. -/
  held : Task → Option (Nat × List Member)
  /-- The last write in the snapshot that the main strand acts on. -/
  deciding : Nat
  /-- The last write in a snapshot that a decision was made on and carried out. -/
  used : Nat

/-- Something that happens. -/
inductive Deed where
  /-- Somebody writes the list. -/
  | write (a : MembershipAction)
  /-- Whoever made a write signals it. -/
  | notify (n : Nat)
  /-- A query takes its snapshot. -/
  | take (t : Task)
  /-- A query returns what it took. -/
  | deliver (t : Task)
  /-- Any other step; of answers only failures. -/
  | step (s : Step)

namespace Watching

/-- The watch is registered, and the coordinator about to start. -/
def start (cluster : ClusterConfig) (timers : TimerConfig) (devices : List Device)
    (updates : Signal) (capacity clock : Nat) (membership : Membership) : Watching where
  core := .start cluster timers devices updates (.ofCapacity capacity) clock
  membership
  writes := 0
  changing := []
  owed := []
  held := fun _ => none
  deciding := 0
  used := 0

/-- The snapshots on their way, with one more, or with one less. -/
def put (w : Watching) (t : Task) (snapshot : Option (Nat × List Member)) (t' : Task) :
    Option (Nat × List Member) :=
  if t' = t then snapshot else w.held t'

/-- The coordinator takes a step. -/
def advance (w : Watching) (s : Step) : Option Watching :=
  (w.core.step? s).map fun r => { w with core := r.1 }

/-- Whether the next action of the main strand ends a successful decision. -/
def isDone (w : Watching) : Bool :=
  match w.core.main.todo with
  | .settle :: _ => true
  | _ => false

/-- What there is after something has happened, if it can. -/
def act? (w : Watching) : Deed → Option Watching
  | .write a =>
    let after := w.membership.apply a
    some
      { w with
        membership := after
        writes := w.writes + 1
        changing :=
          if after.members = w.membership.members then w.changing
          else (w.writes + 1) :: w.changing
        owed := if w.membership.signals a then (w.writes + 1) :: w.owed else w.owed }
  | .notify n =>
    if n ∈ w.owed then (w.advance .change).map fun w' => { w' with owed := w.owed.erase n }
    else none
  | .take t =>
    match w.membership.query with
    | .ok members =>
      if w.core.awaits t then some { w with held := w.put t (some (w.writes, members)) } else none
    | .error _ => none
  | .deliver t =>
    match w.held t with
    | none => none
    | some (n, members) =>
      (w.advance (.answer t (.ok members))).map fun w' =>
        { w' with
          held := w.put t none
          deciding :=
            if t = .main ∧ w.core.main.point = .rebalancing then n else w.deciding }
  | .step (.answer _ (.ok _)) => none
  | .step (.answer t (.error e)) =>
    (w.advance (.answer t (.error e))).map fun w' => { w' with held := w.put t none }
  | .step (.run .main) =>
    (w.advance (.run .main)).map fun w' =>
      { w' with used := if w.isDone then max w.used w.deciding else w.used }
  | .step s => w.advance s

/-- What can come to be. -/
inductive Reaches (w₀ : Watching) : Watching → Prop
  | start : Reaches w₀ w₀
  | act {w w' : Watching} {d : Deed} (hreach : Reaches w₀ w) (hact : w.act? d = some w') :
      Reaches w₀ w'

/-- A write is still to be heard of: it is to be signalled, or a signal is pending. -/
def Unheard (w : Watching) (n : Nat) : Prop := n ∈ w.owed ∨ 0 < w.core.changes.pending

/-- No change is lost. -/
structure Alert (w : Watching) : Prop where
  disciplined : w.core.work.Disciplined
  limit : w.core.changes.isOpen = true → 0 < w.core.changes.limit
  written : ∀ n ∈ w.changing, n ≤ w.writes
  awaits : ∀ snapshot, w.held .main = some snapshot → w.core.awaits .main = true
  opened : w.core.changes.isOpen = true ∨ ∃ o, w.core.main.point = .ended o
  /-- A change that no decision was made on is known of, or still to be heard of. -/
  known : w.core.changes.isOpen = true → ∀ n ∈ w.changing, w.used < n →
    w.Unheard n ∨ w.core.dirty = true
  /-- Nothing is heard of while a snapshot is on its way: what came after it is still to be. -/
  held : w.core.changes.isOpen = true → ∀ m members, w.held .main = some (m, members) →
    ∀ n ∈ w.changing, m < n → w.Unheard n ∨ w.core.listening = false
  /-- Nor is anything while the snapshot is acted on. -/
  settles : w.core.changes.isOpen = true → w.core.settles = true →
    ∀ n ∈ w.changing, w.deciding < n → w.Unheard n ∨ w.core.listening = false

variable {w w' : Watching}

/-- While no signal is taken and the flag stays, no change is lost: snapshots may only get fewer,
and what is acted on next must have missed nothing that is not still to be heard of. -/
theorem Alert.keep (h : w.Alert) {core : Coordinator}
    {held : Task → Option (Nat × List Member)} {deciding used : Nat}
    (hdisciplined : core.work.Disciplined)
    (hawaits : ∀ snapshot, held .main = some snapshot → core.awaits .main = true)
    (hended : ∀ o, w.core.main.point = .ended o → core.main.point = .ended o)
    (hopen : core.changes.isOpen = w.core.changes.isOpen)
    (hlimit : core.changes.limit = w.core.changes.limit)
    (hpending : w.core.changes.pending ≤ core.changes.pending)
    (hdirty : core.dirty = w.core.dirty) (hlistening : core.listening = w.core.listening)
    (hheld : ∀ snapshot, held .main = some snapshot → w.held .main = some snapshot)
    (hused : w.used ≤ used)
    (hdeciding : core.changes.isOpen = true → core.settles = true →
      ∀ n ∈ w.changing, deciding < n → w.Unheard n ∨ w.core.listening = false) :
    Alert { w with core, held, deciding, used } := by
  have hunheard : ∀ {n}, w.Unheard n → n ∈ w.owed ∨ 0 < core.changes.pending := by
    intro n hunheard
    rcases hunheard with howed | hpos
    · exact Or.inl howed
    · exact Or.inr (by omega)
  refine ⟨hdisciplined, ?_, h.written, hawaits, ?_, ?_, ?_, ?_⟩
  · intro hisOpen
    rw [hlimit]
    exact h.limit (hopen.symm.trans hisOpen)
  · rcases h.opened with hwas | ⟨o, ho⟩
    · exact Or.inl (hopen.trans hwas)
    · exact Or.inr ⟨o, hended o ho⟩
  · intro hisOpen n hn hnew
    have hnew' : w.used < n := Nat.lt_of_le_of_lt hused hnew
    rcases h.known (hopen.symm.trans hisOpen) n hn hnew' with hun | hflag
    · exact Or.inl (hunheard hun)
    · exact Or.inr (hdirty.trans hflag)
  · intro hisOpen m members hsnapshot n hn hnew
    have hbefore := hheld _ hsnapshot
    rcases h.held (hopen.symm.trans hisOpen) m members hbefore n hn hnew with hun | hdeaf
    · exact Or.inl (hunheard hun)
    · exact Or.inr (hlistening.trans hdeaf)
  · intro hisOpen hset n hn hnew
    rcases hdeciding hisOpen hset n hn hnew with hun | hdeaf
    · exact Or.inl (hunheard hun)
    · exact Or.inr (hlistening.trans hdeaf)

/-- A step of the coordinator loses no change, whatever comes of the snapshots on their way, if what
it acts on next is one of them. -/
theorem Alert.step (h : w.Alert) {s : Step} {core : Coordinator} {es : List Effect}
    {held : Task → Option (Nat × List Member)} {deciding used : Nat}
    (hstep : w.core.step? s = some (core, es))
    (hheld : ∀ snapshot, held .main = some snapshot →
      w.held .main = some snapshot ∧ ∀ a, s ≠ .answer .main a)
    (hused : w.used ≤ used)
    (hdone : s = .run .main → w.core.main.todo = [.settle] → w.deciding ≤ used)
    (hdeciding : core.changes.isOpen = true → core.settles = true →
      (w.core.settles = true ∧ deciding = w.deciding) ∨
        ∀ n ∈ w.changing, deciding < n → w.Unheard n ∨ w.core.listening = false) :
    Alert { w with core, held, deciding, used } := by
  have hm : w.core.Moves s core es := Coordinator.moves_of_step? hstep
  have hheeds : w.core.Heeds s core := Coordinator.heeds_of_moves h.disciplined hm
  have hawaits : ∀ snapshot, held .main = some snapshot → core.awaits .main = true := by
    intro snapshot hsnapshot
    obtain ⟨hbefore, hs⟩ := hheld snapshot hsnapshot
    exact Coordinator.awaits_of_moves h.disciplined hm (h.awaits snapshot hbefore) hs
  have hdisciplined : core.work.Disciplined := Coordinator.disciplined_of_moves hm h.disciplined
  -- A main strand that waits for an answer is not where signals are taken or the flag is lowered.
  have hwaits : ∀ snapshot, held .main = some snapshot →
      w.core.main.todo = [] ∧ w.core.main.point ≠ .steady := by
    intro snapshot hsnapshot
    exact Coordinator.idle_of_awaits (h.awaits snapshot (hheld snapshot hsnapshot).1)
  cases hheeds with
  | keep hopen hlimit hpending hdirty hlistening hsettles =>
      refine h.keep hdisciplined hawaits
        (fun o ho => Coordinator.ended_of_moves h.disciplined hm ho) hopen hlimit hpending hdirty
        hlistening (fun snapshot hsnapshot => (hheld snapshot hsnapshot).1) hused ?_
      intro hisOpen hset n hn hnew
      rcases hdeciding hisOpen hset with ⟨hset', heq⟩ | hall
      · exact h.settles (hopen.symm.trans hisOpen) hset' n hn (heq ▸ hnew)
      · exact hall n hn hnew
  | hear htodo hpoint =>
      refine ⟨hdisciplined, h.limit, h.written, hawaits, h.opened, ?_, ?_, ?_⟩
      · intro _ n _ _
        exact Or.inr rfl
      · intro _ m members hsnapshot
        exact absurd hpoint (hwaits _ hsnapshot).2
      · intro _ hset
        have hsame : w.core.settles = true := hset
        rw [Coordinator.settles, htodo] at hsame
        cases hsame
  | hearEnd =>
      refine ⟨hdisciplined, h.limit, h.written, hawaits, h.opened, ?_, ?_, ?_⟩
      · intro _ n _ _
        exact Or.inr rfl
      · intro _ m members _ n _ _
        exact Or.inr rfl
      · intro _ _ n _ _
        exact Or.inr rfl
  | settle htodo =>
      refine ⟨hdisciplined, h.limit, h.written, hawaits, h.opened, ?_, ?_, ?_⟩
      · intro hisOpen n hn hnew
        have hset : w.core.settles = true := by
          rw [Coordinator.settles, htodo]
          rfl
        have hnew' : w.deciding < n := Nat.lt_of_le_of_lt (hdone rfl htodo) hnew
        rcases h.settles hisOpen hset n hn hnew' with hun | hdeaf
        · exact Or.inl hun
        · refine Or.inr ?_
          show (!w.core.listening) = true
          rw [hdeaf]
          rfl
      · intro _ m members hsnapshot
        rw [(hwaits _ hsnapshot).1] at htodo
        cases htodo
      · intro _ hset
        cases hset
  | close hclosed hended =>
      have hnever : ∀ {p : Prop}, core.changes.isOpen = true → p := by
        intro p hisOpen
        rw [hclosed] at hisOpen
        cases hisOpen
      exact ⟨hdisciplined, hnever, h.written, hawaits, Or.inr hended, hnever, hnever, hnever⟩

/-- Unless the main strand gets a list, it was already about to lower the flag if it is now. -/
theorem Alert.settles_before (h : w.Alert) {s : Step} {core : Coordinator} {es : List Effect}
    (hstep : w.core.step? s = some (core, es)) (hs : ∀ members, s ≠ .answer .main (.ok members))
    (hopen : core.changes.isOpen = true) (hset : core.settles = true) :
    w.core.settles = true := by
  have hheeds := Coordinator.heeds_of_moves h.disciplined (Coordinator.moves_of_step? hstep)
  rcases hheeds.settles_before hopen hset with hbefore | ⟨-, members, hanswer⟩
  · exact hbefore
  · exact absurd hanswer (hs members)

/-- So does a step that has nothing to do with snapshots. -/
theorem Alert.plain (h : w.Alert) {s : Step} {core : Coordinator} {es : List Effect}
    (hstep : w.core.step? s = some (core, es)) (hs : ∀ t a, s ≠ .answer t a)
    (hrun : s ≠ .run .main) : Alert { w with core } := by
  refine h.step hstep (fun snapshot hsnapshot => ⟨hsnapshot, hs .main⟩) (Nat.le_refl _)
    (fun hr => absurd hr hrun) ?_
  intro hopen hset
  exact Or.inl ⟨h.settles_before hstep (fun _ => hs _ _) hopen hset, rfl⟩

/-- Whoever watches moves by the steps of its coordinator. -/
theorem exists_of_advance {s : Step} (h : w.advance s = some w') :
    ∃ core es, w.core.step? s = some (core, es) ∧ w' = { w with core } := by
  obtain ⟨⟨core, es⟩, hstep, rfl⟩ := Option.map_eq_some_iff.1 h
  exact ⟨core, es, hstep, rfl⟩

/-- Writing the list loses no change: each one is to be signalled. -/
theorem Alert.write (h : w.Alert) {a : MembershipAction} (hact : w.act? (.write a) = some w') :
    w'.Alert := by
  simp only [act?, Option.some.injEq] at hact
  subst hact
  have howed : ∀ {n}, n ∈ w.owed →
      n ∈ if w.membership.signals a then (w.writes + 1) :: w.owed else w.owed := by
    intro n hn
    split
    · exact List.mem_cons_of_mem _ hn
    · exact hn
  have hchanging : ∀ {n}, (n ∈ if (w.membership.apply a).members = w.membership.members then
      w.changing else (w.writes + 1) :: w.changing) → n ∈ w.changing ∨ (n = w.writes + 1 ∧
        n ∈ if w.membership.signals a then (w.writes + 1) :: w.owed else w.owed) := by
    intro n hn
    split at hn
    · exact Or.inl hn
    · next hchanges =>
      rcases List.mem_cons.1 hn with rfl | hn
      · rw [if_pos (Membership.signals_of_changes hchanges)]
        exact Or.inr ⟨rfl, List.mem_cons_self⟩
      · exact Or.inl hn
  refine ⟨h.disciplined, h.limit, ?_, h.awaits, h.opened, ?_, ?_, ?_⟩
  · intro n hn
    rcases hchanging hn with hn | ⟨rfl, -⟩
    · exact Nat.le_succ_of_le (h.written n hn)
    · exact Nat.le_refl _
  · intro hopen n hn hnew
    rcases hchanging hn with hn | ⟨-, hnow⟩
    · exact (h.known hopen n hn hnew).imp_left (Or.imp_left howed)
    · exact Or.inl (Or.inl hnow)
  · intro hopen m members hsnapshot n hn hnew
    rcases hchanging hn with hn | ⟨-, hnow⟩
    · exact (h.held hopen m members hsnapshot n hn hnew).imp_left (Or.imp_left howed)
    · exact Or.inl (Or.inl hnow)
  · intro hopen hset n hn hnew
    rcases hchanging hn with hn | ⟨-, hnow⟩
    · exact (h.settles hopen hset n hn hnew).imp_left (Or.imp_left howed)
    · exact Or.inl (Or.inl hnow)

/-- A signal that is sent is pending, as long as somebody listens. -/
theorem Alert.notify (h : w.Alert) {n : Nat} (hact : w.act? (.notify n) = some w') :
    w'.Alert := by
  simp only [act?] at hact
  split at hact
  · obtain ⟨w₁, hadvance, rfl⟩ := Option.map_eq_some_iff.1 hact
    obtain ⟨core, es, hstep, rfl⟩ := exists_of_advance hadvance
    have hnext : Alert { w with core } := h.plain hstep nofun nofun
    have hpending : core.changes.isOpen = true → 0 < core.changes.pending := by
      cases hstep
      intro hopen
      have hwas : w.core.changes.isOpen = true := (Signal.isOpen_notify _).symm.trans hopen
      exact Signal.pending_notify_pos hwas (h.limit hwas)
    exact ⟨hnext.disciplined, hnext.limit, hnext.written, hnext.awaits, hnext.opened,
      fun hopen _ _ _ => Or.inl (Or.inr (hpending hopen)),
      fun hopen _ _ _ _ _ _ => Or.inl (Or.inr (hpending hopen)),
      fun hopen _ _ _ _ => Or.inl (Or.inr (hpending hopen))⟩
  · cases hact

/-- What a snapshot is taken of has all changes so far. -/
theorem Alert.take (h : w.Alert) {t : Task} (hact : w.act? (.take t) = some w') : w'.Alert := by
  simp only [act?] at hact
  split at hact
  · next members hquery =>
    split at hact
    · next hawaits =>
      cases hact
      refine ⟨h.disciplined, h.limit, h.written, ?_, h.opened, h.known, ?_, h.settles⟩
      · intro snapshot hsnapshot
        cases t with
        | main => exact hawaits
        | delayed => exact h.awaits snapshot hsnapshot
      · intro hopen m members' hsnapshot n hn hnew
        cases t with
        | main =>
            obtain ⟨rfl, -⟩ := Prod.mk.inj (Option.some.inj hsnapshot)
            exact absurd hnew (Nat.not_lt.2 (h.written n hn))
        | delayed => exact h.held hopen m members' hsnapshot n hn hnew
    · cases hact
  · cases hact

/-- A snapshot that is returned is acted on. -/
theorem Alert.deliver (h : w.Alert) {t : Task} (hact : w.act? (.deliver t) = some w') :
    w'.Alert := by
  simp only [act?] at hact
  split at hact
  · cases hact
  · next m members hsnapshot =>
    obtain ⟨w₁, hadvance, rfl⟩ := Option.map_eq_some_iff.1 hact
    obtain ⟨core, es, hstep, rfl⟩ := exists_of_advance hadvance
    refine h.step hstep ?_ (Nat.le_refl _) (fun hrun => nomatch hrun) ?_
    · intro snapshot hheld
      cases t with
      | main => cases hheld
      | delayed => exact ⟨hheld, nofun⟩
    · intro hopen hset
      have hheeds := Coordinator.heeds_of_moves h.disciplined (Coordinator.moves_of_step? hstep)
      by_cases hmain : t = .main ∧ w.core.main.point = .rebalancing
      · rw [if_pos hmain]
        rw [hmain.1] at hsnapshot
        exact Or.inr fun n hn hnew =>
          h.held (hheeds.open_before hopen) m members hsnapshot n hn hnew
      · rw [if_neg hmain]
        rcases hheeds.settles_before hopen hset with hbefore | ⟨hpoint, members', hanswer⟩
        · exact Or.inl ⟨hbefore, rfl⟩
        · cases hanswer
          exact absurd ⟨rfl, hpoint⟩ hmain

/-- A query that fails takes its snapshot with it. -/
theorem Alert.fail (h : w.Alert) {t : Task} {e : DiscoveryError}
    (hact : w.act? (.step (.answer t (.error e))) = some w') : w'.Alert := by
  obtain ⟨w₁, hadvance, rfl⟩ := Option.map_eq_some_iff.1 hact
  obtain ⟨core, es, hstep, rfl⟩ := exists_of_advance hadvance
  refine h.step hstep ?_ (Nat.le_refl _) (fun hrun => nomatch hrun) ?_
  · intro snapshot hheld
    cases t with
    | main => cases hheld
    | delayed => exact ⟨hheld, nofun⟩
  · intro hopen hset
    exact Or.inl ⟨h.settles_before hstep (by nofun) hopen hset, rfl⟩

/-- When the main strand lowers the flag it has used the snapshot that it acted on. -/
theorem Alert.runMain (h : w.Alert) (hact : w.act? (.step (.run .main)) = some w') :
    w'.Alert := by
  obtain ⟨w₁, hadvance, rfl⟩ := Option.map_eq_some_iff.1 hact
  obtain ⟨core, es, hstep, rfl⟩ := exists_of_advance hadvance
  refine h.step hstep (fun snapshot hheld => ⟨hheld, nofun⟩) ?_ ?_ ?_
  · split
    · exact Nat.le_max_left _ _
    · exact Nat.le_refl _
  · intro _ htodo
    have hdone : w.isDone = true := by
      rw [isDone, htodo]
    rw [if_pos hdone]
    exact Nat.le_max_right _ _
  · intro hopen hset
    exact Or.inl ⟨h.settles_before hstep (by nofun) hopen hset, rfl⟩

/-- The other steps have nothing to do with snapshots. -/
theorem Alert.other (h : w.Alert) {s : Step} (hact : w.act? (.step s) = some w') : w'.Alert := by
  have hplain : (∀ t a, s ≠ .answer t a) → s ≠ .run .main → w.advance s = some w' → w'.Alert := by
    intro hs hrun hadvance
    obtain ⟨core, es, hstep, rfl⟩ := exists_of_advance hadvance
    exact h.plain hstep hs hrun
  cases s with
  | answer t a =>
      cases a with
      | ok members => cases hact
      | error e => exact h.fail hact
  | run t =>
      cases t with
      | main => exact h.runMain hact
      | delayed => exact hplain nofun nofun hact
  | _ => exact hplain nofun nofun hact

/-- **Whatever happens, no change is lost.** -/
theorem alert_of_act {d : Deed} (h : w.Alert) (hact : w.act? d = some w') : w'.Alert := by
  cases d with
  | write a => exact h.write hact
  | notify n => exact h.notify hact
  | take t => exact h.take hact
  | deliver t => exact h.deliver hact
  | step s => exact h.other hact

/-- A change is known of from the registration of the watch on. -/
theorem alert_start (cluster : ClusterConfig) (timers : TimerConfig) (devices : List Device)
    (updates : Signal) (capacity clock : Nat) (membership : Membership) :
    (start cluster timers devices updates capacity clock membership).Alert where
  disciplined := Coordinator.disciplined_start ..
  limit := fun _ => Nat.le_max_right capacity 1
  written := nofun
  awaits := nofun
  opened := Or.inl rfl
  known := nofun
  held := nofun
  settles := nofun

/-- Nor is one lost later on. -/
theorem alert_of_reaches {w₀ : Watching} (hreach : Reaches w₀ w) (h : w₀.Alert) : w.Alert := by
  induction hreach with
  | start => exact h
  | act _ hact ih => exact alert_of_act ih hact

/-- **No change of the membership is lost by coalescing.**  In every state of the steady loop, for
every write that changed the list and that no decision of the loop was made on yet: the write is
still to be signalled, or a signal is pending, or the flag is up. -/
theorem change_is_known {cluster : ClusterConfig} {timers : TimerConfig} {devices : List Device}
    {updates : Signal} {capacity clock : Nat} {membership : Membership}
    (hreach : Reaches (start cluster timers devices updates capacity clock membership) w)
    (hloop : w.core.main.point = .steady ∨ w.core.main.point = .rebalancing) {n : Nat}
    (hn : n ∈ w.changing) (hnew : w.used < n) :
    n ∈ w.owed ∨ 0 < w.core.changes.pending ∨ w.core.dirty = true := by
  have halert : w.Alert := alert_of_reaches hreach (alert_start ..)
  have hopen : w.core.changes.isOpen = true := by
    rcases halert.opened with hopen | ⟨o, ho⟩
    · exact hopen
    · rcases hloop with hpoint | hpoint <;> exact nomatch (ho.symm.trans hpoint)
  rcases halert.known hopen n hn hnew with (howed | hpending) | hdirty
  · exact Or.inl howed
  · exact Or.inr (Or.inl hpending)
  · exact Or.inr (Or.inr hdirty)

/-- What there is after several things have happened, if they can. -/
def follow (w : Watching) : List Deed → Option Watching
  | [] => some w
  | d :: deeds => (w.act? d).bind fun w' => w'.follow deeds

/-- Deeds that can be done lead on. -/
theorem reaches_of_follow {w₀ : Watching} {deeds : List Deed} (hreach : Reaches w₀ w)
    (h : w.follow deeds = some w') : Reaches w₀ w' := by
  induction deeds generalizing w with
  | nil =>
      cases h
      exact hreach
  | cons d deeds ih =>
      obtain ⟨w₁, hact, hrest⟩ := Option.bind_eq_some_iff.1 h
      exact ih (hreach.act hact) hrest

/-- A node starts, hears of one change, and while it acts on it there is another. -/
def twoChanges : List Deed :=
  let acts (k : Nat) : List Deed := List.replicate k (.step (.run .main))
  let query : List Deed := [.take .main, .deliver .main]
  acts 1 ++ query ++ acts 3 ++ query ++ acts 4 ++
    [.step (.pass 35000000000), .step (.wake .main)] ++ acts 6 ++
    [ .write (.setStatus "1" .critical), .notify 1, .step .hear, .step (.pass 65000000000),
      .step .tick ] ++ acts 2 ++
    [.take .main, .write (.setStatus "0" .critical), .notify 2, .deliver .main] ++ acts 9

/-- The second change is not in the snapshot that is acted on, and the flag is lowered all the same:
its signal is pending. -/
theorem change_is_known_of_two :
    ∃ w, Reaches (start { nodeAddress := "a", numberOfNodes := 2 } {}
        Coordinator.devicesOfTwo (.ofCapacity 1) 0 0
        (.ofMembers 2 (Coordinator.membersOfTwo .passing))) w ∧
      w.core.main.point = .steady ∧ w.used = 1 ∧ 2 ∈ w.changing ∧ w.core.dirty = false ∧
      (2 ∈ w.owed ∨ 0 < w.core.changes.pending ∨ w.core.dirty = true) := by
  obtain ⟨w, hfollow, hcheck⟩ := (Option.any_eq_true
    (fun w : Watching => w.core.main.point == .steady && w.used == 1 && w.changing.contains 2 &&
      !w.core.dirty)
    ((start { nodeAddress := "a", numberOfNodes := 2 } {} Coordinator.devicesOfTwo
      (.ofCapacity 1) 0 0 (.ofMembers 2 (Coordinator.membersOfTwo .passing))).follow
      twoChanges)).1 (by decide +kernel)
  simp only [Bool.and_eq_true, beq_iff_eq, List.contains_iff_mem, Bool.not_eq_true'] at hcheck
  obtain ⟨⟨⟨hpoint, hused⟩, hchanging⟩, hdirty⟩ := hcheck
  have hreach := reaches_of_follow .start hfollow
  exact ⟨w, hreach, hpoint, hused, hchanging, hdirty,
    change_is_known hreach (Or.inl hpoint) hchanging (by omega)⟩

end Watching

end FleetSharding
