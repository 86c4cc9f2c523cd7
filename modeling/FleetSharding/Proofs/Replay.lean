import FleetSharding.Proofs.SortedMap
import FleetSharding.Subscription

/-!
# Subscriptions replayed from their events

Filters come and go, and now and then a refresh brings the active devices in line with what is
selected.  Only the refreshes are reported, each as the difference from the one before, so whoever
reads the events alone has to be able to tell what is active.

* `Collecting`: a registry with one tracker, over any sequence of changes and refreshes.
* `filter_concerns_events`: what one difference says about one host.
* `replays_of_run`: the events about a host alternate, and their number tells whether it is active.
* `Collecting.events_replay_to_active`: so the events replay to the active devices.
-/

namespace FleetSharding

/-- Whether an event says that a host was entered or left. -/
def Event.concerns (host : String) : Event → Bool
  | .deviceSubscribed h | .deviceUnsubscribed h => h == host
  | _ => false

/-- So many events about a host, which is entered and left in turn, and entered first. -/
def alternation (host : String) : Nat → List Event
  | 0 => []
  | n + 1 =>
    alternation host n ++ [if n % 2 = 0 then .deviceSubscribed host else .deviceUnsubscribed host]

/-- The last one says that the host was entered exactly if their number is odd. -/
theorem getLast?_alternation_iff (host : String) (n : Nat) :
    (alternation host n).getLast? = some (.deviceSubscribed host) ↔ n % 2 = 1 := by
  cases n with
  | zero => simp [alternation]
  | succ n =>
      rw [alternation, List.getLast?_concat, Option.some.injEq]
      split
      · next heven => simp only [true_iff]; omega
      · next hodd => simp only [reduceCtorEq, false_iff]; omega

/-- The hosts of some devices are those of each. -/
theorem mem_hostSet_iff {devices : List Device} {host : String} :
    host ∈ hostSet devices ↔ ∃ d ∈ devices, d.host = host := by
  rw [hostSet, SortedMap.mem_keys_ofList_iff, List.map_map, List.mem_map]
  rfl

/-- Of the texts of an ascending list one is a given one, or none is. -/
theorem filter_eq_of_ascending {texts : List String} (h : texts.Pairwise (· < ·)) (text : String) :
    texts.filter (· == text) = if text ∈ texts then [text] else [] := by
  have hnodup : texts.Nodup := h.imp String.ne_of_lt
  rw [List.filter_beq]
  split
  · next hmem => rw [List.count_eq_one_of_mem hnodup hmem]; rfl
  · next hnot => rw [List.count_eq_zero_of_not_mem hnot]; rfl

namespace SubscriptionDiff

variable {before after : List Device} {host : String}

/-- What is added is collected now, and was not before. -/
theorem mem_added_iff :
    host ∈ (between before after).added ↔ host ∈ hostSet after ∧ host ∉ hostSet before := by
  simp [between]

/-- What is removed was collected before, and is not now. -/
theorem mem_removed_iff :
    host ∈ (between before after).removed ↔ host ∈ hostSet before ∧ host ∉ hostSet after := by
  simp [between]

/-- What is added comes in the order of the hosts, and no host twice. -/
theorem added_ascending (before after : List Device) :
    (between before after).added.Pairwise (· < ·) :=
  (SortedMap.keys_sorted _).filter _

/-- So does what is removed. -/
theorem removed_ascending (before after : List Device) :
    (between before after).removed.Pairwise (· < ·) :=
  (SortedMap.keys_sorted _).filter _

/-- Nobody enters and leaves at once. -/
theorem added_disjoint_removed (before after : List Device) :
    (between before after).added.Disjoint (between before after).removed := by
  intro host hadded hremoved
  exact (mem_removed_iff.1 hremoved).2 (mem_added_iff.1 hadded).1

/-- **What a difference says about a host**: nothing, unless it is in one of the lists only. -/
theorem filter_concerns_events (before after : List Device) (host : String) :
    (between before after).events.filter (·.concerns host) =
      if host ∈ hostSet before then
        if host ∈ hostSet after then [] else [.deviceUnsubscribed host]
      else if host ∈ hostSet after then [.deviceSubscribed host] else [] := by
  have hremoved : (Event.concerns host ∘ Event.deviceUnsubscribed) = (· == host) := rfl
  have hadded : (Event.concerns host ∘ Event.deviceSubscribed) = (· == host) := rfl
  rw [events, List.filter_append, List.filter_map, List.filter_map, hremoved, hadded,
    filter_eq_of_ascending (removed_ascending ..), filter_eq_of_ascending (added_ascending ..)]
  simp only [mem_removed_iff, mem_added_iff]
  by_cases hbefore : host ∈ hostSet before <;> by_cases hafter : host ∈ hostSet after <;>
    simp [hbefore, hafter]

end SubscriptionDiff

/-- A registry and its tracker: the devices that are active, what was reported of them, in order,
and what was measured. -/
structure Collecting where
  registry : Registry
  active : List Device
  journal : List Event
  metrics : Metrics

/-- Something done to the registry, or by the tracker. -/
inductive CollectingStep where
  | add (name : String) (claim : Claim)
  | remove (name : String)
  | refresh

namespace Collecting

/-- No filter is installed, and nothing is collected. -/
def start (devices : List Device) : Collecting := ⟨.ofDevices devices, [], [], .empty⟩

/-- What a refresh does now. -/
def refresh (c : Collecting) : Refresh := .of c.active c.registry

def step (c : Collecting) : CollectingStep → Collecting
  | .add name claim => { c with registry := c.registry.add name claim }
  | .remove name => { c with registry := c.registry.remove name }
  | .refresh =>
    { c with
      active := c.refresh.active
      journal := c.journal ++ c.refresh.diff.events
      metrics := c.metrics.record c.refresh.measurement }

def run (c : Collecting) (steps : List CollectingStep) : Collecting := steps.foldl step c

/-- What was reported of a host. -/
def heardOf (c : Collecting) (host : String) : List Event := c.journal.filter (·.concerns host)

variable {c : Collecting} {host : String}

/-- The events about a host tell whether it is active. -/
def Replays (c : Collecting) (host : String) : Prop :=
  ∃ n, c.heardOf host = alternation host n ∧ (n % 2 = 1 ↔ host ∈ hostSet c.active)

/-- A refresh adds the event that is due, if the host has entered or left. -/
theorem replays_refresh (h : c.Replays host) : (c.step .refresh).Replays host := by
  obtain ⟨n, hheard, hactive⟩ := h
  have hnext : (c.step .refresh).heardOf host = alternation host n ++
      (SubscriptionDiff.between c.active c.registry.selected).events.filter (·.concerns host) := by
    rw [← hheard]
    exact List.filter_append ..
  rw [SubscriptionDiff.filter_concerns_events] at hnext
  show ∃ n, (c.step .refresh).heardOf host = alternation host n ∧
    (n % 2 = 1 ↔ host ∈ hostSet c.registry.selected)
  by_cases hbefore : host ∈ hostSet c.active
  · by_cases hafter : host ∈ hostSet c.registry.selected
    · refine ⟨n, ?_, by simp [hactive, hbefore, hafter]⟩
      rw [hnext, if_pos hbefore, if_pos hafter, List.append_nil]
    · have hodd : n % 2 = 1 := hactive.2 hbefore
      refine ⟨n + 1, ?_, by simp only [hafter, iff_false]; omega⟩
      rw [hnext, if_pos hbefore, if_neg hafter, alternation, if_neg (by omega)]
  · have heven : ¬ n % 2 = 1 := fun hodd => hbefore (hactive.1 hodd)
    by_cases hafter : host ∈ hostSet c.registry.selected
    · refine ⟨n + 1, ?_, by simp only [hafter, iff_true]; omega⟩
      rw [hnext, if_neg hbefore, if_pos hafter, alternation, if_pos (by omega)]
    · refine ⟨n, ?_, by simp only [hafter, iff_false]; omega⟩
      rw [hnext, if_neg hbefore, if_neg hafter, List.append_nil]

/-- Changes of the registry are not heard of before the next refresh. -/
theorem replays_step (h : c.Replays host) (s : CollectingStep) : (c.step s).Replays host := by
  cases s with
  | add | remove => exact h
  | refresh => exact replays_refresh h

/-- **After any changes and refreshes the events about a host tell whether it is active.** -/
theorem replays_of_run (h : c.Replays host) (steps : List CollectingStep) :
    (c.run steps).Replays host := by
  induction steps generalizing c with
  | nil => exact h
  | cons s steps ih => exact ih (replays_step h s)

/-- At the start nothing was told, and nothing is collected. -/
theorem replays_start (devices : List Device) (host : String) : (start devices).Replays host :=
  ⟨0, rfl, by simp [start, hostSet, SortedMap.ofList, SortedMap.empty, SortedMap.keys]⟩

/-- **The events replay to the active devices.**  After any changes of the registry and any
refreshes, the events about a host alternate, and the first one is that it was entered.  After every
refresh the last one is that it was entered exactly if a device with the host is active, which is so
exactly if one was selected.  The two lists of each difference are ascending and disjoint, and the
number of active devices is what is measured. -/
theorem events_replay_to_active (devices : List Device) (steps : List CollectingStep) :
    let c := (start devices).run steps
    let c' := c.step .refresh
    (∀ host,
      (∃ n, c.heardOf host = alternation host n) ∧
      ((∃ d ∈ c'.active, d.host = host) ↔
        (c'.heardOf host).getLast? = some (.deviceSubscribed host)) ∧
      ((c'.heardOf host).getLast? = some (.deviceSubscribed host) ↔
        ∃ d ∈ c.registry.selected, d.host = host)) ∧
    (c.refresh.diff.added.Pairwise (· < ·) ∧ c.refresh.diff.removed.Pairwise (· < ·) ∧
      c.refresh.diff.added.Disjoint c.refresh.diff.removed) ∧
    c'.metrics.gauges.get? Metrics.ownedDevices = some c'.active.length := by
  intro c c'
  refine ⟨fun host => ?_, ?_, ?_⟩
  · have hreplays : c.Replays host := replays_of_run (replays_start devices host) steps
    obtain ⟨n', hheard', hactive⟩ := replays_refresh hreplays
    obtain ⟨n, hheard, -⟩ := hreplays
    have hlast : (∃ d ∈ c'.active, d.host = host) ↔
        (c'.heardOf host).getLast? = some (.deviceSubscribed host) := by
      rw [hheard', getLast?_alternation_iff, hactive, mem_hostSet_iff]
    exact ⟨⟨n, hheard⟩, hlast, hlast.symm⟩
  · exact ⟨SubscriptionDiff.added_ascending .., SubscriptionDiff.removed_ascending ..,
      SubscriptionDiff.added_disjoint_removed ..⟩
  · show (c.metrics.gauges.insert _ _).get? _ = _
    rw [SortedMap.get?_insert, if_pos rfl]
    rfl

end Collecting

end FleetSharding
