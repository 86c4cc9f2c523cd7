import FleetSharding.Proofs.Reachable
import FleetSharding.Proofs.SortedMap
import FleetSharding.Registry
import Mathlib.Data.List.Induction
import Mathlib.Logic.Function.Basic

/-!
# Live claims

Several tasks may install and remove filters of one registry at the same time, and share their
names.  What the registry selects depends on the most recent operation on each name alone: a claim
is live if that operation installed it.

* `lastOn?`: the most recent operation on a name.
* `get?_foldl_apply`: after any operations a name stands for its live claim.
* `Writers`: tasks with operations of their own, which are done in any order of the tasks.
* `lastOn?_eq_of_done`: the most recent operation on a name is the last one of some task.
* `Writers.selects_live_claims`: what is selected at every point, and in the end.
-/

namespace FleetSharding

/-- One operation on a registry. -/
inductive FilterOperation where
  | add (name : String) (claim : Claim)
  | remove (name : String)

namespace FilterOperation

def name : FilterOperation → String
  | .add name _ | .remove name => name

/-- The claim that an operation leaves under its name. -/
def claim? : FilterOperation → Option Claim
  | .add _ claim => some claim
  | .remove _ => none

def apply (r : Registry) : FilterOperation → Registry
  | .add name claim => r.add name claim
  | .remove name => r.remove name

/-- An operation that leaves a claim installs it under its name. -/
theorem claim?_eq_some_iff {op : FilterOperation} {claim : Claim} :
    op.claim? = some claim ↔ op = .add op.name claim := by
  cases op <;> simp [claim?, name]

/-- An operation says what stands under its name, and leaves the others alone. -/
theorem get?_apply (r : Registry) (op : FilterOperation) (name : String) :
    (op.apply r).filters.get? name = if op.name = name then op.claim? else r.filters.get? name := by
  cases op with
  | add name' claim => exact SortedMap.get?_insert ..
  | remove name' => exact SortedMap.get?_erase ..

/-- No operation on filters changes the devices. -/
theorem devices_apply (r : Registry) (op : FilterOperation) :
    (op.apply r).devices = r.devices := by
  cases op <;> rfl

end FilterOperation

section Operations

variable (name : String) (ops : List FilterOperation)

/-- The most recent operation on a name. -/
def lastOn? : Option FilterOperation := (ops.filter (·.name == name)).getLast?

/-- The claim that is live under a name. -/
def liveClaim? : Option Claim := (lastOn? name ops).bind FilterOperation.claim?

/-- Whether some live claim takes a device. -/
def takes (d : Device) : Bool :=
  (ops.map FilterOperation.name).any fun name => (liveClaim? name ops).any (· d)

/-- One more operation is the most recent one on its name. -/
theorem lastOn?_concat (op : FilterOperation) :
    lastOn? name (ops ++ [op]) = if op.name = name then some op else lastOn? name ops := by
  rw [lastOn?, List.filter_append]
  split
  · next hname =>
    rw [List.filter_cons_of_pos (by simpa using hname), List.filter_nil, List.getLast?_concat]
  · next hname =>
    rw [List.filter_cons_of_neg (by simpa using hname), List.filter_nil, List.append_nil]
    rfl

variable {name ops}

/-- The last operation on a name is one of them, and on that name. -/
theorem mem_of_lastOn? {op : FilterOperation} (h : lastOn? name ops = some op) :
    op ∈ ops ∧ op.name = name := by
  have hmem := List.mem_filter.1 (List.mem_of_getLast? h)
  exact ⟨hmem.1, eq_of_beq hmem.2⟩

/-- A claim is live if the most recent operation on its name installed it. -/
theorem liveClaim?_eq_some_iff {claim : Claim} :
    liveClaim? name ops = some claim ↔ lastOn? name ops = some (.add name claim) := by
  rw [liveClaim?, Option.bind_eq_some_iff]
  constructor
  · rintro ⟨op, hlast, hclaim⟩
    rw [FilterOperation.claim?_eq_some_iff, (mem_of_lastOn? hlast).2] at hclaim
    rw [hlast, hclaim]
  · intro hlast
    exact ⟨_, hlast, rfl⟩

/-- A device is taken if the last operation on some name adds a claim on it. -/
theorem takes_iff {d : Device} :
    takes ops d = true ↔
      ∃ name claim, lastOn? name ops = some (.add name claim) ∧ claim d = true := by
  simp only [takes, List.any_eq_true, Option.any_eq_true, liveClaim?_eq_some_iff]
  constructor
  · rintro ⟨name, -, claim, hlast, hd⟩
    exact ⟨name, claim, hlast, hd⟩
  · rintro ⟨name, claim, hlast, hd⟩
    have hmem := List.mem_map_of_mem (f := FilterOperation.name) (mem_of_lastOn? hlast).1
    exact ⟨name, hmem, claim, hlast, hd⟩

/-- **After any operations a name stands for its live claim**, and the devices are as configured. -/
theorem get?_foldl_apply (devices : List Device) (ops : List FilterOperation) :
    (ops.foldl FilterOperation.apply (.ofDevices devices)).devices = devices ∧
      ∀ name, (ops.foldl FilterOperation.apply (.ofDevices devices)).filters.get? name =
        liveClaim? name ops := by
  induction ops using List.reverseRecOn with
  | nil => exact ⟨rfl, fun _ => rfl⟩
  | append_singleton ops op ih =>
      obtain ⟨hdevices, hget⟩ := ih
      rw [List.foldl_append, List.foldl_cons, List.foldl_nil]
      refine ⟨(FilterOperation.devices_apply _ op).trans hdevices, fun name => ?_⟩
      rw [FilterOperation.get?_apply, liveClaim?, lastOn?_concat]
      split
      · rfl
      · exact hget name

/-- A registry in which each name stands for its live claim selects what the live claims take. -/
theorem Registry.claims_eq_takes {r : Registry}
    (hget : ∀ name, r.filters.get? name = liveClaim? name ops) (d : Device) :
    r.claims d = takes ops d := by
  rw [Bool.eq_iff_iff, claims, List.any_eq_true, takes_iff]
  simp only [SortedMap.mem_values_iff, hget, liveClaim?_eq_some_iff]
  constructor
  · rintro ⟨claim, ⟨name, hlast⟩, hd⟩
    exact ⟨name, claim, hlast, hd⟩
  · rintro ⟨name, claim, hlast, hd⟩
    exact ⟨claim, ⟨name, hlast⟩, hd⟩

end Operations

/-- A registry, what each task has yet to do, and what was done, by whom, in order. -/
structure Writers (ι : Type) where
  registry : Registry
  todo : ι → List FilterOperation
  history : List (ι × FilterOperation)

namespace Writers

variable {ι : Type} [DecidableEq ι]

def start (devices : List Device) (tasks : ι → List FilterOperation) : Writers ι :=
  ⟨.ofDevices devices, tasks, []⟩

/-- A task does its next operation. -/
def act? (w : Writers ι) (i : ι) : Option (Writers ι) :=
  match w.todo i with
  | [] => none
  | op :: rest =>
    some ⟨op.apply w.registry, Function.update w.todo i rest, w.history ++ [(i, op)]⟩

/-- What was done so far. -/
def done (w : Writers ι) : List FilterOperation := w.history.map (·.2)

/-- What one task has done of a history. -/
def doneBy (i : ι) (history : List (ι × FilterOperation)) : List FilterOperation :=
  (history.filter (·.1 == i)).map (·.2)

/-- One more operation is one of the task that does it, and of no other. -/
theorem doneBy_concat (i : ι) (history : List (ι × FilterOperation)) (e : ι × FilterOperation) :
    doneBy i (history ++ [e]) =
      if e.1 = i then doneBy i history ++ [e.2] else doneBy i history := by
  rw [doneBy, List.filter_append, List.map_append]
  split
  · next hown => rw [List.filter_cons_of_pos (by simpa using hown)]; rfl
  · next hown =>
    rw [List.filter_cons_of_neg (by simpa using hown), List.filter_nil, List.map_nil,
      List.append_nil]
    rfl

/-- The most recent operation on a name is the most recent one on it of some task. -/
theorem exists_lastOn?_doneBy {name : String} {op : FilterOperation}
    {history : List (ι × FilterOperation)} (hlast : lastOn? name (history.map (·.2)) = some op) :
    ∃ i, lastOn? name (doneBy i history) = some op := by
  induction history using List.reverseRecOn with
  | nil => cases hlast
  | append_singleton history e ih =>
      rw [List.map_append, List.map_singleton, lastOn?_concat] at hlast
      split at hlast
      · next hname =>
        refine ⟨e.1, ?_⟩
        rw [doneBy_concat, if_pos rfl, lastOn?_concat, if_pos hname, hlast]
      · next hname =>
        obtain ⟨i, hi⟩ := ih hlast
        refine ⟨i, ?_⟩
        rw [doneBy_concat]
        split
        · rw [lastOn?_concat, if_neg hname, hi]
        · exact hi

variable {w w' : Writers ι} {devices : List Device} {tasks : ι → List FilterOperation}

/-- Whoever acts does the first thing that it has to do. -/
theorem exists_of_act {i : ι} (hact : w.act? i = some w') :
    ∃ op rest, w.todo i = op :: rest ∧
      w' = ⟨op.apply w.registry, Function.update w.todo i rest, w.history ++ [(i, op)]⟩ := by
  unfold act? at hact
  split at hact
  · cases hact
  · next op rest htodo => exact ⟨op, rest, htodo, (Option.some.inj hact).symm⟩

/-- The registry is what the operations make of it, and what was done is an interleaving: each task
has done a part of its operations, in order, and has the others yet to do. -/
theorem interleaved_of_reachable (hreach : Reachable act? (start devices tasks) w) :
    w.registry = w.done.foldl FilterOperation.apply (.ofDevices devices) ∧
      ∀ i, doneBy i w.history ++ w.todo i = tasks i := by
  induction hreach with
  | start => exact ⟨rfl, fun _ => rfl⟩
  | @act w w' i _ hact ih =>
      obtain ⟨hregistry, hparts⟩ := ih
      obtain ⟨op, rest, htodo, rfl⟩ := exists_of_act hact
      refine ⟨?_, fun j => ?_⟩
      · rw [done, List.map_append, List.foldl_append, hregistry]
        rfl
      · rw [← hparts j, doneBy_concat]
        dsimp only
        by_cases hij : i = j
        · subst hij
          rw [if_pos rfl, Function.update_self, htodo, List.append_assoc, List.singleton_append]
        · rw [if_neg hij, Function.update_of_ne (Ne.symm hij)]

/-- Once all is done, the most recent operation on a name is the last one on it of some task. -/
theorem lastOn?_eq_of_done (hreach : Reachable act? (start devices tasks) w)
    (hdone : ∀ i, w.todo i = []) {name : String} {op : FilterOperation}
    (hlast : lastOn? name w.done = some op) : ∃ i, lastOn? name (tasks i) = some op := by
  obtain ⟨i, hi⟩ := exists_lastOn?_doneBy hlast
  have hparts := (interleaved_of_reachable hreach).2 i
  rw [hdone i, List.append_nil] at hparts
  exact ⟨i, hparts ▸ hi⟩

/-- **A registry selects what its live claims take.**  However the operations of any tasks are
interleaved, at every point the selected devices are the configured ones that some live claim takes,
in their order, and the names are those with a live claim, ascending.  If each task ends on each of
its names with a removal, nothing is left once all is done. -/
theorem selects_live_claims (hreach : Reachable act? (start devices tasks) w) :
    w.registry.selected = devices.filter (takes w.done) ∧
      w.registry.names.Pairwise (· < ·) ∧
      (∀ name, name ∈ w.registry.names ↔
        ∃ claim, lastOn? name w.done = some (.add name claim)) ∧
      ((∀ i, w.todo i = []) →
        (∀ i name op, lastOn? name (tasks i) = some op → op = .remove name) →
          w.registry.names = [] ∧ w.registry.selected = []) := by
  obtain ⟨hdevices, hget⟩ := get?_foldl_apply devices w.done
  rw [← (interleaved_of_reachable hreach).1] at hdevices hget
  have hselected : w.registry.selected = devices.filter (takes w.done) := by
    rw [Registry.selected, hdevices]
    exact List.filter_congr fun d _ => Registry.claims_eq_takes hget d
  have hnames : ∀ name, name ∈ w.registry.names ↔
      ∃ claim, lastOn? name w.done = some (.add name claim) := by
    intro name
    rw [Registry.names, SortedMap.mem_keys_iff, hget, Option.isSome_iff_exists]
    simp only [liveClaim?_eq_some_iff]
  refine ⟨hselected, SortedMap.keys_sorted _, hnames, fun hdone hremoved => ?_⟩
  have hdead : ∀ name claim, lastOn? name w.done ≠ some (.add name claim) := by
    intro name claim hlast
    obtain ⟨i, hi⟩ := lastOn?_eq_of_done hreach hdone hlast
    cases hremoved i name _ hi
  constructor
  · refine List.eq_nil_iff_forall_not_mem.2 fun name hname => ?_
    obtain ⟨claim, hlast⟩ := (hnames name).1 hname
    exact hdead name claim hlast
  · rw [hselected, List.filter_eq_nil_iff]
    intro d _ htakes
    obtain ⟨name, claim, hlast, -⟩ := takes_iff.1 htakes
    exact hdead name claim hlast

/-- Two tasks share a name: each installs a claim on one device of two under it, and removes it. -/
def twoWriters : Bool → List FilterOperation
  | false => [.add "site" fun d => d.host == "x", .remove "site"]
  | true => [.add "site" fun d => d.host == "y", .remove "site"]

/-- The claim that was installed last is live until either task removes it, and in the end nothing
is left. -/
theorem selects_live_claims_of_two :
    (∃ w, Reachable act? (start [{ host := "x" }, { host := "y" }] twoWriters) w ∧
      w.registry.selected = [{ host := "y" }]) ∧
    ∃ w, Reachable act? (start [{ host := "x" }, { host := "y" }] twoWriters) w ∧
      w.done.length = 4 ∧ w.registry.names = [] ∧ w.registry.selected = [] := by
  obtain ⟨w, hreach, hcheck⟩ := exists_reachable act?
    (start [{ host := "x" }, { host := "y" }] twoWriters) [false, true]
    (fun w => [{ host := "x" }, { host := "y" }].filter (takes w.done) == [{ host := "y" }])
    (by decide +kernel)
  obtain ⟨w', hreach', hcheck'⟩ := exists_reachable act?
    (start [{ host := "x" }, { host := "y" }] twoWriters) [false, true, false, true]
    (fun w => w.done.length == 4 && (w.todo false).isEmpty && (w.todo true).isEmpty)
    (by decide +kernel)
  simp only [Bool.and_eq_true, beq_iff_eq, List.isEmpty_iff] at hcheck'
  have hdone : ∀ i, w'.todo i = [] := by
    intro i
    cases i
    · exact hcheck'.1.2
    · exact hcheck'.2
  have hremoved : ∀ i name op, lastOn? name (twoWriters i) = some op → op = .remove name := by
    intro i name op hlast
    have hname := (mem_of_lastOn? hlast).2
    by_cases hsite : "site" = name
    · subst hsite
      cases i <;> exact (Option.some.inj hlast).symm
    · cases i <;> simp [lastOn?, twoWriters, FilterOperation.name, hsite] at hlast
  refine ⟨⟨w, hreach, ?_⟩, w', hreach', hcheck'.1.1, ?_⟩
  · rw [(selects_live_claims hreach).1]
    exact eq_of_beq hcheck
  · exact (selects_live_claims hreach').2.2.2 hdone hremoved

end Writers

end FleetSharding
