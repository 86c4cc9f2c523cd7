import FleetSharding.Proofs.Coordinator.Announcement
import FleetSharding.Proofs.Coordinator.Watching
import FleetSharding.Proofs.Reachable
import FleetSharding.Subscription

/-!
# The active devices follow the owned ones

A coordinator writes filters and asks for a refresh afterwards; a tracker takes one request,
discards the others that are pending, reads the selected devices and makes them the active ones.
Requests that do not fit into the channel are dropped, and those discarded are never acted on by
themselves.
Nothing is lost by that, because a tracker reads only after it has discarded.

* `Tracking.act?`: all steps of the two, in any order.
* `Tracking.Tracked`, `tracked_of_act`: at each place in the tracker's loop, what it has seen is
  current, or it will look again.
* `Tracking.change_reaches_tracker`: no change of what is owned is lost on its way to the tracker.
-/

namespace FleetSharding

/-- A coordinator, and the tracker that shares its registry and receives its requests. -/
structure Tracking where
  core : Coordinator
  tracker : Tracker
  /-- Whether a filter was written and no refresh asked for since. -/
  unannounced : Bool

/-- A step of one of the two. -/
inductive TrackingStep where
  | core (s : Step)
  | track
  /-- The tracker, where it waits, sees the shutdown. -/
  | quit

/-- Whether the tracker waits for a request. -/
def TrackerPoint.isWaiting : TrackerPoint → Bool
  | .waiting => true
  | _ => false

/-- There is one place where a tracker waits. -/
theorem TrackerPoint.isWaiting_iff {p : TrackerPoint} : p.isWaiting = true ↔ p = .waiting := by
  cases p <;> simp [isWaiting]

namespace Tracking

def start (cluster : ClusterConfig) (timers : TimerConfig) (devices : List Device)
    (capacity : Nat) (changes : Signal) (clock : Nat) : Tracking where
  core := .start cluster timers devices (.ofCapacity capacity) changes clock
  tracker := .start
  unannounced := false

/-- What there is after a step, if it can be taken. -/
def act? (t : Tracking) : TrackingStep → Option Tracking
  | .core s =>
    (t.core.step? s).map fun r =>
      { t with
        core := r.1
        unannounced := !t.core.refreshes s && (t.unannounced || t.core.changesFilters s) }
  | .track =>
    (t.tracker.step? t.core.updates t.core.registry).map fun r =>
      { t with core := { t.core with updates := r.2.1 }, tracker := r.1 }
  | .quit =>
    if t.tracker.point.isWaiting && t.core.shutdown.isDue then
      some
        { t with
          core := { t.core with updates := t.core.updates.close }
          tracker := { t.tracker with point := .stopped } }
    else none

variable {t t' : Tracking}

/-- The tracker will look again: a request is pending, or will be made for what was written. -/
def Told (t : Tracking) : Prop := 0 < t.core.updates.pending ∨ t.unannounced = true

/-- What the tracker has seen is current, or it will look again. -/
def Current (t : Tracking) : Prop :=
  match t.tracker.point with
  | .waiting => t.tracker.active = t.core.registry.selected ∨ t.Told
  | .storing selected => selected = t.core.registry.selected ∨ t.Told
  | .draining | .reading | .stopped => True

/-- The tracker is told of every change. -/
structure Tracked (t : Tracking) : Prop where
  disciplined : t.core.work.Disciplined
  delays : ∀ a ∈ t.core.delayed.todo, a.mayDelay = true
  heralding : t.core.Heralding
  opened : t.core.updates.isOpen = true ∨ t.tracker.point = .stopped
  limit : 0 < t.core.updates.limit
  owed : t.unannounced = true → ∃ u, t.core.owes u = true
  current : t.Current

/-- Whatever the tracker is about to do, it is told enough if a request is pending or owed. -/
theorem current_of_told (h : t.Told) : t.Current := by
  unfold Current
  split
  · exact Or.inr h
  · exact Or.inr h
  all_goals trivial

/-- With the same devices selected, and told as before, the tracker stays current. -/
theorem Current.congr (h : t.Current) (htracker : t'.tracker = t.tracker)
    (hselected : t'.core.registry.selected = t.core.registry.selected)
    (htold : t.Told → t'.Told) : t'.Current := by
  unfold Current at h ⊢
  rw [htracker, hselected]
  split at h
  · exact h.imp_right htold
  · exact h.imp_right htold
  all_goals trivial

/-- The coordinator's steps leave the tracker told. -/
theorem Tracked.core (h : t.Tracked) {s : Step} (hact : t.act? (.core s) = some t') :
    t'.Tracked := by
  obtain ⟨⟨core, es⟩, hstep, rfl⟩ := Option.map_eq_some_iff.1 hact
  have hm : t.core.Moves s core es := Coordinator.moves_of_step? hstep
  have hdisciplined : core.work.Disciplined := Coordinator.disciplined_of_moves hm h.disciplined
  have hdelays := Coordinator.mayDelay_of_moves h.disciplined hm h.delays
  have hheralding := Coordinator.heralding_of_moves h.disciplined h.delays h.heralding hm
  cases Coordinator.announces_of_moves h.disciplined h.delays h.heralding hm with
  | quiet hrefreshes hchanges hregistry hopen hlimit hpending howes =>
      refine ⟨hdisciplined, hdelays, hheralding, ?_, ?_, ?_, ?_⟩
      · exact h.opened.imp_left hopen.trans
      · exact hlimit ▸ h.limit
      · intro hun
        simp only [hrefreshes, hchanges, Bool.not_false, Bool.true_and, Bool.or_false] at hun
        obtain ⟨u, hu⟩ := h.owed hun
        exact ⟨u, howes u hu⟩
      · refine h.current.congr rfl (by rw [hregistry]) ?_
        intro htold
        rcases htold with hpos | hun
        · exact Or.inl (hpending ▸ hpos)
        · exact Or.inr (by rw [hrefreshes, hun]; rfl)
  | write hrefreshes hchanges hupdates howes =>
      refine ⟨hdisciplined, hdelays, hheralding, ?_, ?_, fun _ => howes, ?_⟩
      · exact hupdates ▸ h.opened
      · exact hupdates ▸ h.limit
      · exact current_of_told (Or.inr (by rw [hrefreshes, hchanges, Bool.or_true]; rfl))
  | refresh hrefreshes hregistry hupdates =>
      refine ⟨hdisciplined, hdelays, hheralding, ?_, ?_, ?_, ?_⟩
      · rw [hupdates, Signal.isOpen_notify]
        exact h.opened
      · rw [hupdates, Signal.limit_notify]
        exact h.limit
      · intro hun
        rw [hrefreshes] at hun
        cases hun
      · rcases h.opened with hopen | hstopped
        · refine current_of_told (Or.inl ?_)
          rw [hupdates]
          exact Signal.pending_notify_pos hopen h.limit
        · rw [Current, hstopped]
          trivial

/-- What the tracker does to the channel is nothing to the coordinator. -/
theorem Tracked.withUpdates (h : t.Tracked) {updates : Signal} {tracker : Tracker}
    (hopened : updates.isOpen = true ∨ tracker.point = .stopped) (hlimit : 0 < updates.limit)
    (hcurrent : Current { t with core := { t.core with updates }, tracker }) :
    Tracked { t with core := { t.core with updates }, tracker } where
  disciplined := h.disciplined
  delays := h.delays
  heralding := ⟨h.heralding.main, h.heralding.delayed⟩
  opened := hopened
  limit := hlimit
  owed := by
    intro hun
    obtain ⟨u, hu⟩ := h.owed hun
    exact ⟨u, by cases u <;> exact hu⟩
  current := hcurrent

/-- The tracker's own steps: it discards before it reads, and reads before it stores. -/
theorem Tracked.track (h : t.Tracked) (hact : t.act? .track = some t') : t'.Tracked := by
  obtain ⟨⟨tracker, updates, refresh⟩, hstep, rfl⟩ := Option.map_eq_some_iff.1 hact
  have hlive : t.tracker.point ≠ .stopped := by
    intro hstopped
    rw [Tracker.step?, hstopped] at hstep
    cases hstep
  have hopen : t.core.updates.isOpen = true := h.opened.resolve_right hlive
  unfold Tracker.step? at hstep
  split at hstep
  · split at hstep
    · cases hstep
      exact h.withUpdates (Or.inl hopen) h.limit trivial
    · cases hstep
      exact h.withUpdates (Or.inr rfl) h.limit trivial
    · cases hstep
  · cases hstep
    exact h.withUpdates (Or.inl hopen) h.limit trivial
  · cases hstep
    exact h.withUpdates (Or.inl hopen) h.limit (Or.inl rfl)
  · next selected hpoint =>
    cases hstep
    have hcurrent := h.current
    rw [Current, hpoint] at hcurrent
    exact h.withUpdates (Or.inl hopen) h.limit hcurrent
  · cases hstep

/-- **Every step leaves the tracker told.** -/
theorem tracked_of_act {s : TrackingStep} (h : t.Tracked) (hact : t.act? s = some t') :
    t'.Tracked := by
  cases s with
  | core s => exact h.core hact
  | track => exact h.track hact
  | quit =>
      simp only [act?] at hact
      split at hact
      · cases hact
        exact h.withUpdates (Or.inr rfl) h.limit trivial
      · cases hact

section Started

variable {cluster : ClusterConfig} {timers : TimerConfig} {devices : List Device} {capacity : Nat}
  {changes : Signal} {clock : Nat}

/-- **Whatever happens, the tracker is told of every change.** -/
theorem tracked_of_reachable
    (hreach : Reachable act? (start cluster timers devices capacity changes clock) t) :
    t.Tracked := by
  induction hreach with
  | start =>
      exact ⟨Coordinator.disciplined_start .., nofun, ⟨⟨nofun, trivial⟩, trivial⟩, Or.inl rfl,
        Nat.le_max_right capacity 1, nofun, Or.inl (Registry.selected_ofDevices devices).symm⟩
  | act _ hact ih => exact tracked_of_act ih hact

/-- **No change of what is owned is lost on its way to the tracker.**  As long as the tracker has
not stopped, the active devices are those selected, or a request is pending, or the tracker has
taken one and not yet read the registry, or a filter was written and no refresh asked for yet, or
the tracker has read what is selected and not yet stored it.  So once both strands of the
coordinator are idle, the channel is empty and the tracker waits, the active devices are those
selected. -/
theorem change_reaches_tracker
    (hreach : Reachable act? (start cluster timers devices capacity changes clock) t)
    (hlive : t.tracker.point ≠ .stopped) :
    (t.tracker.active = t.core.registry.selected ∨ 0 < t.core.updates.pending ∨
        (t.tracker.point = .draining ∨ t.tracker.point = .reading) ∨ t.unannounced = true ∨
        t.tracker.point = .storing t.core.registry.selected) ∧
      ((∀ u, t.core.isIdle u = true) → t.core.updates.pending = 0 → t.tracker.point = .waiting →
        t.tracker.active = t.core.registry.selected) := by
  have htracked : t.Tracked := tracked_of_reachable hreach
  have hcurrent := htracked.current
  constructor
  · unfold Current Told at hcurrent
    cases hpoint : t.tracker.point with
    | waiting =>
        rw [hpoint] at hcurrent
        rcases hcurrent with hactive | hpos | hun
        · exact Or.inl hactive
        · exact Or.inr (Or.inl hpos)
        · exact Or.inr (Or.inr (Or.inr (Or.inl hun)))
    | draining => exact Or.inr (Or.inr (Or.inl (Or.inl rfl)))
    | reading => exact Or.inr (Or.inr (Or.inl (Or.inr rfl)))
    | storing selected =>
        rw [hpoint] at hcurrent
        rcases hcurrent with rfl | hpos | hun
        · exact Or.inr (Or.inr (Or.inr (Or.inr rfl)))
        · exact Or.inr (Or.inl hpos)
        · exact Or.inr (Or.inr (Or.inr (Or.inl hun)))
    | stopped => exact absurd hpoint hlive
  · intro hidle hempty hpoint
    rw [Current, hpoint] at hcurrent
    rcases hcurrent with hactive | hpos | hun
    · exact hactive
    · omega
    · obtain ⟨u, hu⟩ := htracked.owed hun
      have hnot : t.core.owes u = false :=
        Coordinator.owes_eq_false_of_isIdle htracked.disciplined (hidle u)
      exact nomatch hnot.symm.trans hu

end Started

/-- The second of two nodes, with room for one request. -/
def startOfSecond : Tracking :=
  start { nodeAddress := "b", numberOfNodes := 2 } {} Coordinator.devicesOfTwo 1 (.ofCapacity 1) 0

/-- The second of two nodes takes over the device of the first while the tracker is about to store
what it read before. -/
def trackedFailover : List TrackingStep :=
  let steps : List TrackingStep := Coordinator.failoverSteps.map .core
  steps.take 15 ++ List.replicate 3 .track ++ steps.drop 15 ++ [.core (.run .delayed)] ++
    List.replicate 5 .track

/-- The refresh for the takeover was asked for while the tracker stored, and is acted on after. -/
theorem change_reaches_tracker_after_failover :
    ∃ t, Reachable act? startOfSecond t ∧
      t.tracker.point = .waiting ∧ t.core.registry.selected = Coordinator.devicesOfTwo ∧
      t.tracker.active = Coordinator.devicesOfTwo := by
  obtain ⟨t, hreach, hcheck⟩ := exists_reachable act? startOfSecond trackedFailover
    (fun t =>
      t.tracker.point.isWaiting && t.core.registry.selected == Coordinator.devicesOfTwo &&
        t.core.isIdle .main && t.core.isIdle .delayed && t.core.updates.pending == 0)
    (by decide +kernel)
  simp only [Bool.and_eq_true, beq_iff_eq, TrackerPoint.isWaiting_iff] at hcheck
  obtain ⟨⟨⟨⟨hpoint, hselected⟩, hmain⟩, hdelayed⟩, hempty⟩ := hcheck
  have hactive := (change_reaches_tracker hreach (by rw [hpoint]; nofun)).2
    (fun u => by cases u <;> assumption) hempty hpoint
  exact ⟨t, hreach, hpoint, hselected, hactive.trans hselected⟩

end Tracking

end FleetSharding
