import FleetSharding.Proofs.Coordinator.Attention
import FleetSharding.Proofs.Coordinator.Overlap
import FleetSharding.Proofs.Membership
import FleetSharding.Proofs.Reachable

/-!
# Several nodes over one membership

A node adopts the slot of its own record once, and from then on its decisions look at the layout of
the slots only.  As long as the records stay, slots are unique and so are those adopted.  A record
may disappear while its node still runs, though, and then registering hands the slot out again; the
node does not notice, because its main shard is not looked at again.

* `Coordinator.adopted_of_run`: whoever has decided has adopted a slot from a list with its record.
* `Fleet.act?`: any number of nodes and their membership, one event at a time.
* `Fleet.main_held_twice_only_if_displaced`: of two nodes with the main shard of one slot, one has
  lost its record.
* `Fleet.exists_main_held_twice`: it happens.
-/

namespace FleetSharding

/-- A list has a record of an address with a slot. -/
def Listed (members : List Member) (address : String) (slot : Nat) : Prop :=
  ∃ m ∈ members, m.address = address ∧ m.slot = some slot

/-- Whoever finds its own slot is listed with it. -/
theorem listed_of_ownSlot? {cluster : ClusterConfig} {members : List Member} {slot : Nat}
    (h : ownSlot? cluster members = some slot) : Listed members cluster.nodeAddress slot := by
  obtain ⟨m, hfound, hm⟩ := Option.bind_eq_some_iff.1 h
  have hown := List.find?_some hfound
  simp only [Bool.and_eq_true, beq_iff_eq] at hown
  exact ⟨m, List.mem_of_find?_eq_some hfound, hown.1, (Option.filter_eq_some_iff.1 hm).1⟩

/-- Whether a slot was adopted for sure. -/
def Stage.hasSlot : Stage → Bool
  | .gated | .aloft | .stopping => true
  | _ => false

/-- A slot is adopted from a list, or it was before. -/
theorem adopts_of_turn {cluster : ClusterConfig} {v v' : Picture} {s : Step} {d : Option Decision}
    (h : Turn cluster v s d v') :
    (∃ members, s = .answer .main (.ok members) ∧ ownSlot? cluster members = some v'.slot) ∨
      (v'.slot = v.slot ∧ (v'.stage.hasSlot = true ∨ d ≠ none → v.stage.hasSlot = true)) := by
  cases h with
  | adopt hown => exact Or.inl ⟨_, rfl, hown⟩
  | quiet => exact Or.inr ⟨rfl, fun h => h.resolve_right fun hd => hd rfl⟩
  | fail => exact Or.inr ⟨rfl, fun h => h.resolve_right fun hd => hd rfl⟩
  | wait | settle | enter | rebalance | halt => exact Or.inr ⟨rfl, fun _ => rfl⟩
  | takeOver hg _ _ _ => exact Or.inr ⟨rfl, fun _ => by rcases hg with rfl | rfl <;> rfl⟩
  | leave | release =>
      refine Or.inr ⟨rfl, ?_⟩
      intro h
      rcases h with hslot | hd
      · cases hslot
      · exact absurd rfl hd

namespace Coordinator

section Started

variable {cluster : ClusterConfig} {timers : TimerConfig} {devices : List Device}
  {updates changes : Signal} {clock : Nat} {log : List Moment} {c : Coordinator}

/-- **Whoever has decided has adopted a slot**, from a list that had its record. -/
theorem adopted_of_run (hrun : Run (start cluster timers devices updates changes clock) log c)
    (h : c.stage.hasSlot = true ∨ latestDecision log ≠ none) :
    ∃ m ∈ log, ∃ members, m.step = .answer .main (.ok members) ∧
      Listed members cluster.nodeAddress c.slot := by
  induction hrun with
  | start =>
      rcases h with hslot | hlatest
      · cases hslot
      · exact absurd rfl hlatest
  | @step log c c' s es hrun hstep ih =>
      have hm : Moves c s c' es := moves_of_step? hstep
      have hbefore : (c'.slot = c.slot ∧ (c.stage.hasSlot = true ∨ latestDecision log ≠ none)) →
          ∃ m ∈ (⟨c, s, es⟩ :: log : List Moment), ∃ members,
            m.step = .answer .main (.ok members) ∧
              Listed members cluster.nodeAddress c'.slot := by
        intro hparts
        obtain ⟨hslot, hwas⟩ := hparts
        obtain ⟨m, hmem, members, hanswer, hlisted⟩ := ih hwas
        exact ⟨m, List.mem_cons_of_mem _ hmem, members, hanswer, hslot ▸ hlisted⟩
      have hdisciplined : c.work.Disciplined := disciplined_of_run hrun (disciplined_start ..)
      cases hint : c.interrupts s with
      | true =>
          -- Only the delayed strand ends here.
          cases hm with
          | cut =>
              obtain ⟨owner, queue, hcut⟩ := exists_cutDelayed_eq c
              rw [hcut] at h
              refine hbefore ⟨by rw [hcut]; rfl, h.imp_right fun hlatest => ?_⟩
              exact hlatest
          | _ => cases hint
      | false =>
          have hcluster : c.cluster = cluster := cluster_of_run hrun
          have hturn : Turn cluster c.picture s (c.decision? s) c'.picture :=
            hcluster ▸ turn_of_moves hdisciplined hm hint
          rcases adopts_of_turn hturn with ⟨members, hanswer, hown⟩ | ⟨hslot, hstage⟩
          · exact ⟨_, List.mem_cons_self, members, hanswer, listed_of_ownSlot? hown⟩
          · refine hbefore ⟨hslot, ?_⟩
            rcases h with hafter | hlatest
            · exact Or.inl (hstage (Or.inl hafter))
            · by_cases hd : c.decision? s = none
              · rw [latestDecision, hd, Option.none_or] at hlatest
                exact Or.inr hlatest
              · exact Or.inl (hstage (Or.inr hd))

end Started

/-- The main shard of a slot is installed, and the slot is the adopted one. -/
def HoldsMain (c : Coordinator) (slot : Nat) : Prop :=
  c.status.shardId = some slot ∧
    c.registry.filters.get? mainFilter = some (mainShard slot c.cluster.numberOfNodes)

/-- After a decision the main shard is in exactly if enough members are healthy: whose record the
slot has makes no difference. -/
theorem DecidedOn.holdsMain_iff {cluster : ClusterConfig} {devices : List Device}
    {members : List Member} {c : Coordinator} (h : DecidedOn cluster devices members c)
    (slot : Nat) :
    c.HoldsMain slot ↔
      c.status.shardId = some slot ∧ cluster.minimumShards ≤ healthyCount members := by
  obtain ⟨hdecided, hshard, -, -⟩ := h.decided
  obtain ⟨⟨timers, updates, changes, clock, log, hrun, -, -⟩, -⟩ := h
  have hcluster : c.cluster = cluster := cluster_of_run hrun
  have hmain : c.registry.filters.get? mainFilter = _ := hdecided.holds.main
  rw [HoldsMain, hmain, hcluster]
  refine and_congr_right ?_
  intro hslot
  obtain rfl : c.slot = slot := Option.some.inj (hshard.symm.trans hslot)
  by_cases henough : cluster.minimumShards ≤ healthyCount members
  · simp [henough]
  · simp [henough]

end Coordinator

/-- What a process brings along when it starts. -/
structure Process where
  timers : TimerConfig
  devices : List Device
  updates : Signal
  changes : Signal
  clock : Nat

/-- The coordinator of a process that starts. -/
def Process.coordinator (p : Process) (cluster : ClusterConfig) : Coordinator :=
  .start cluster p.timers p.devices p.updates p.changes p.clock

/-- Nodes that share a membership. -/
structure Fleet (ι : Type) where
  membership : Membership
  /-- The lists of members so far. -/
  past : List (List Member)
  core : ι → Coordinator
  /-- What each coordinator did since it started. -/
  log : ι → List Moment
  /-- The lists on their way to those who asked. -/
  held : ι → Task → Option (List Member)

/-- Something that happens to one of the nodes, or to the membership. -/
inductive FleetEvent (ι : Type) where
  | act (a : MembershipAction)
  /-- A node's process starts again. -/
  | restart (i : ι) (p : Process)
  /-- A query takes its list. -/
  | take (i : ι) (t : Task)
  /-- A query returns what it took. -/
  | deliver (i : ι) (t : Task)
  /-- Any other step of a node; of answers only failures. -/
  | step (i : ι) (s : Step)

namespace Fleet

variable {ι : Type} [DecidableEq ι] {cluster : ι → ClusterConfig}

/-- Nobody is registered, and all nodes are about to start. -/
def start (cluster : ι → ClusterConfig) (limit : Nat) (process : ι → Process) : Fleet ι where
  membership := .ofMembers limit []
  past := [[]]
  core := fun i => (process i).coordinator (cluster i)
  log := fun _ => []
  held := fun _ _ => none

/-- One node goes on. -/
def setNode (f : Fleet ι) (i : ι) (core : Coordinator) (log : List Moment)
    (held : Task → Option (List Member)) : Fleet ι :=
  { f with
    core := Function.update f.core i core
    log := Function.update f.log i log
    held := Function.update f.held i held }

/-- One node takes a step. -/
def advance (f : Fleet ι) (i : ι) (s : Step) : Option (Fleet ι) :=
  ((f.core i).step? s).map fun r =>
    f.setNode i r.1 (⟨f.core i, s, r.2⟩ :: f.log i) (stillHeld (f.held i) s)

/-- What there is after something has happened, if it can.  Records come and go, but slots are
handed out only by registering. -/
def act? (cluster : ι → ClusterConfig) (f : Fleet ι) : FleetEvent ι → Option (Fleet ι)
  | .act (.upsert _) => none
  | .act a =>
    some
      { f with
        membership := f.membership.apply a
        past := (f.membership.apply a).members :: f.past }
  | .restart i p => some (f.setNode i (p.coordinator (cluster i)) [] fun _ => none)
  | .take i t =>
    match f.membership.query with
    | .ok members =>
      if (f.core i).awaits t then
        some (f.setNode i (f.core i) (f.log i) (Function.update (f.held i) t (some members)))
      else none
    | .error _ => none
  | .deliver i t => (f.held i t).bind fun members => f.advance i (.answer t (.ok members))
  | .step _ (.answer _ (.ok _)) => none
  | .step i s => f.advance i s

/-- Slots are unique now, and whatever the nodes were told was so once. -/
structure Sound (cluster : ι → ClusterConfig) (f : Fleet ι) : Prop where
  unique : SlotsUnique f.membership.members
  now : f.membership.members ∈ f.past
  runs : ∀ i, ∃ p : Process, Run (p.coordinator (cluster i)) (f.log i) (f.core i)
  held : ∀ i t members, f.held i t = some members → members ∈ f.past
  answered : ∀ i, ∀ m ∈ f.log i, ∀ t members, m.step = .answer t (.ok members) → members ∈ f.past

variable {f f' : Fleet ι}

/-- One node goes on, told only what was so. -/
theorem Sound.setNode (h : f.Sound cluster) {i : ι} {core : Coordinator} {log : List Moment}
    {held : Task → Option (List Member)}
    (hrun : ∃ p : Process, Run (p.coordinator (cluster i)) log core)
    (hheld : ∀ t members, held t = some members → members ∈ f.past)
    (hanswered : ∀ m ∈ log, ∀ t members, m.step = .answer t (.ok members) → members ∈ f.past) :
    (f.setNode i core log held).Sound cluster where
  unique := h.unique
  now := h.now
  runs := by
    intro j
    by_cases hj : j = i
    · subst hj
      simpa only [Fleet.setNode, Function.update_self] using hrun
    · simpa only [Fleet.setNode, Function.update_of_ne hj] using h.runs j
  held := (Function.forall_update_iff f.held fun _ held =>
      ∀ t members, held t = some members → members ∈ f.past).2 ⟨hheld, fun j _ => h.held j⟩
  answered := (Function.forall_update_iff f.log fun _ log =>
      ∀ m ∈ log, ∀ t members, m.step = .answer t (.ok members) → members ∈ f.past).2
    ⟨hanswered, fun j _ => h.answered j⟩

/-- A step of one node, with a list that was on its way to it if it is an answer. -/
theorem Sound.advance (h : f.Sound cluster) {i : ι} {s : Step}
    (hs : ∀ t members, s = .answer t (.ok members) → f.held i t = some members)
    (hadvance : f.advance i s = some f') : f'.Sound cluster := by
  obtain ⟨⟨core, es⟩, hstep, rfl⟩ := Option.map_eq_some_iff.1 hadvance
  obtain ⟨p, hrun⟩ := h.runs i
  refine h.setNode ⟨p, hrun.step hstep⟩ ?_ ?_
  · intro t members hheld
    exact h.held i t members (held_of_stillHeld hheld).1
  · intro m hm t members hanswer
    rcases List.mem_cons.1 hm with rfl | hm
    · exact h.held i t members (hs t members hanswer)
    · exact h.answered i m hm t members hanswer

omit [DecidableEq ι] in
/-- The membership changes. -/
theorem Sound.change (h : f.Sound cluster) {a : MembershipAction}
    (ha : ∀ member, a ≠ .upsert member) :
    Sound cluster
      { f with
        membership := f.membership.apply a
        past := (f.membership.apply a).members :: f.past } where
  unique := Membership.slotsUnique_apply h.unique ha
  now := List.mem_cons_self
  runs := h.runs
  held := fun i t members hheld => List.mem_cons_of_mem _ (h.held i t members hheld)
  answered := fun i m hm t members hanswer =>
    List.mem_cons_of_mem _ (h.answered i m hm t members hanswer)

/-- A node that starts again knows nothing. -/
theorem Sound.restart (h : f.Sound cluster) (i : ι) (p : Process) :
    (f.setNode i (p.coordinator (cluster i)) [] fun _ => none).Sound cluster :=
  h.setNode ⟨p, .start⟩ (by simp) (by simp)

/-- A query takes what the membership has. -/
theorem Sound.take (h : f.Sound cluster) (i : ι) (t : Task) {members : List Member}
    (hquery : f.membership.query = .ok members) :
    (f.setNode i (f.core i) (f.log i) (Function.update (f.held i) t (some members))).Sound
      cluster := by
  have hnow : members ∈ f.past := by
    unfold Membership.query at hquery
    split at hquery
    · cases hquery
      exact h.now
    · cases hquery
  have htold : ∀ t' members', Function.update (f.held i) t (some members) t' = some members' →
      members' ∈ f.past := by
    intro t' members' hheld
    by_cases ht : t' = t
    · subst ht
      rw [Function.update_self] at hheld
      exact Option.some.inj hheld ▸ hnow
    · rw [Function.update_of_ne ht] at hheld
      exact h.held i t' members' hheld
  exact h.setNode (h.runs i) htold (h.answered i)

/-- **Whatever happens, slots stay unique and nodes are told only what was so.** -/
theorem sound_of_act {e : FleetEvent ι} (h : f.Sound cluster)
    (hact : f.act? cluster e = some f') : f'.Sound cluster := by
  cases e with
  | act a =>
      cases a with
      | upsert member => cases hact
      | _ =>
          cases hact
          exact h.change nofun
  | restart i p =>
      cases hact
      exact h.restart i p
  | take i t =>
      simp only [act?] at hact
      split at hact
      · next members hquery =>
        split at hact
        · cases hact
          exact h.take i t hquery
        · cases hact
      · cases hact
  | deliver i t =>
      obtain ⟨members, hheld, hadvance⟩ := Option.bind_eq_some_iff.1 hact
      refine h.advance ?_ hadvance
      intro t' members' hs
      cases hs
      exact hheld
  | step i s =>
      have hplain : (∀ t members, s ≠ .answer t (.ok members)) → f.advance i s = some f' →
          f'.Sound cluster := fun hs => h.advance fun t members heq => absurd heq (hs t members)
      cases s with
      | answer t a =>
          cases a with
          | ok members => cases hact
          | error e => exact hplain nofun hact
      | _ => exact hplain nofun hact

/-- Every run of a fleet is sound. -/
theorem sound_of_reachable {limit : Nat} {process : ι → Process}
    (hreach : Reachable (act? cluster) (start cluster limit process) f) : f.Sound cluster := by
  induction hreach with
  | start =>
      refine ⟨List.nodup_nil, List.mem_cons_self, ?_, ?_, ?_⟩
      · intro i
        exact ⟨process i, .start⟩
      · intro i t members hheld
        cases hheld
      · intro i m hm
        cases hm
  | act _ hact ih => exact sound_of_act ih hact

/-- A node whose latest decision is one of the steady loop on the current list, with nothing of it
left to do and nothing released. -/
structure DecidedNow (f : Fleet ι) (i : ι) : Prop where
  latest : latestDecision (f.log i) = some (.rebalance f.membership.members)
  idle : Coordinator.inProgress (f.log i) (f.core i) = false
  held : (f.core i).status.phase ≠ .stopped

/-- A node's record with a slot was listed once, and is not listed any more. -/
def Displaced (cluster : ι → ClusterConfig) (f : Fleet ι) (i : ι) (slot : Nat) : Prop :=
  (∃ members ∈ f.past, Listed members (cluster i).nodeAddress slot) ∧
    ¬ Listed f.membership.members (cluster i).nodeAddress slot

omit [DecidableEq ι] in
/-- Whoever has decided now has decided on the members that there are now. -/
theorem DecidedNow.decidedOn {i : ι} (h : f.DecidedNow i) (hsound : f.Sound cluster) :
    ∃ devices, Coordinator.DecidedOn (cluster i) devices f.membership.members (f.core i) := by
  obtain ⟨p, hrun⟩ := hsound.runs i
  exact ⟨p.devices,
    ⟨p.timers, p.updates, p.changes, p.clock, f.log i, hrun, h.latest, h.idle⟩, h.held⟩

omit [DecidableEq ι] in
/-- Whoever has decided was listed with the slot that it adopted. -/
theorem DecidedNow.listed {i : ι} (h : f.DecidedNow i) (hsound : f.Sound cluster) :
    ∃ members ∈ f.past, Listed members (cluster i).nodeAddress (f.core i).slot := by
  obtain ⟨p, hrun⟩ := hsound.runs i
  obtain ⟨m, hm, members, hanswer, hlisted⟩ :=
    Coordinator.adopted_of_run hrun (Or.inr (by rw [h.latest]; nofun))
  exact ⟨members, hsound.answered i m hm .main members hanswer, hlisted⟩

/-- **Two nodes have the main shard of one slot only if one of them has lost its record.**  Each
node that decided on the current list has its main shard exactly if enough members are healthy,
whoever is listed with the slot now. -/
theorem main_held_twice_only_if_displaced {limit : Nat} {process : ι → Process}
    (haddresses : ∀ i j, i ≠ j → (cluster i).nodeAddress ≠ (cluster j).nodeAddress)
    (hreach : Reachable (act? cluster) (start cluster limit process) f) {i j : ι} (hij : i ≠ j)
    (hi : f.DecidedNow i) (hj : f.DecidedNow j) (slot : Nat) :
    ((f.core i).HoldsMain slot ↔ (f.core i).status.shardId = some slot ∧
        (cluster i).minimumShards ≤ healthyCount f.membership.members) ∧
      ((f.core i).HoldsMain slot → (f.core j).HoldsMain slot →
        f.Displaced cluster i slot ∨ f.Displaced cluster j slot) := by
  have hsound : f.Sound cluster := sound_of_reachable hreach
  obtain ⟨devices, hdecidedi⟩ := hi.decidedOn hsound
  obtain ⟨devices', hdecidedj⟩ := hj.decidedOn hsound
  have hslots : ∀ {k : ι} {devices : List Device},
      Coordinator.DecidedOn (cluster k) devices f.membership.members (f.core k) →
      (f.core k).HoldsMain slot → (f.core k).slot = slot := by
    intro k devices hdecided hholds
    exact Option.some.inj (hdecided.decided.2.1.symm.trans hholds.1)
  refine ⟨?_, ?_⟩
  · exact hdecidedi.holdsMain_iff slot
  · intro hholdsi hholdsj
    have honcei := hi.listed hsound
    have honcej := hj.listed hsound
    rw [hslots hdecidedi hholdsi] at honcei
    rw [hslots hdecidedj hholdsj] at honcej
    by_contra hnot
    rw [not_or, Displaced, Displaced, not_and_not_right, not_and_not_right] at hnot
    -- Both are listed now, so they are listed as one.
    obtain ⟨a, ha, haddressa, hslota⟩ := hnot.1 honcei
    obtain ⟨b, hb, haddressb, hslotb⟩ := hnot.2 honcej
    obtain rfl := hsound.unique.eq_of_slot ha hb hslota hslotb
    exact haddresses i j hij (haddressa.symm.trans haddressb)

/-- Two nodes for one slot. -/
def twoForOne (i : Bool) : ClusterConfig := { nodeAddress := bif i then "a" else "b" }

/-- The fleet of the two, with nobody registered. -/
def startOfTwo : Fleet Bool :=
  start twoForOne 1 fun _ => ⟨{}, [], .ofCapacity 1, .ofCapacity 1, 0⟩

/-- A node finds itself and begins to collect. -/
def begins (i : Bool) : List (FleetEvent Bool) :=
  let acts (k : Nat) : List (FleetEvent Bool) := List.replicate k (.step i (.run .main))
  acts 1 ++ [.take i .main, .deliver i .main] ++ acts 3 ++ [.take i .main, .deliver i .main] ++
    acts 4 ++ [.step i (.pass 35000000000), .step i (.wake .main)] ++ acts 6

/-- A node hears of a change and decides anew. -/
def decides (i : Bool) : List (FleetEvent Bool) :=
  let acts (k : Nat) : List (FleetEvent Bool) := List.replicate k (.step i (.run .main))
  [.step i .change, .step i .hear, .step i (.pass 65000000000), .step i .tick] ++ acts 2 ++
    [.take i .main, .deliver i .main] ++ acts 7

/-- The first node's record disappears while it runs, the second is given the slot, and both decide
on that. -/
def replacement : List (FleetEvent Bool) :=
  [.act (.register "a")] ++ begins true ++ [.act (.remove "0"), .act (.register "b")] ++
    begins false ++ decides true ++ decides false

/-- What can be checked of a node that decided on the current list and has the main shard. -/
def keepsMain (f : Fleet Bool) (i : Bool) : Bool :=
  latestDecision (f.log i) == some (.rebalance f.membership.members) &&
    !Coordinator.inProgress (f.log i) (f.core i) && (f.core i).status.phase != .stopped &&
    (f.core i).status.shardId == some 0 && decide (1 ≤ healthyCount f.membership.members)

/-- Whether it keeps its main filter by that can be computed. -/
theorem decidedNow_of_keepsMain {f : Fleet Bool} {i : Bool} (h : f.keepsMain i = true)
    (hsound : f.Sound twoForOne) : f.DecidedNow i ∧ (f.core i).HoldsMain 0 := by
  simp only [keepsMain, Bool.and_eq_true, beq_iff_eq, Bool.not_eq_true', bne_iff_ne,
    decide_eq_true_eq] at h
  obtain ⟨⟨⟨⟨hlatest, hidle⟩, hheld⟩, hshard⟩, henough⟩ := h
  have hnow : f.DecidedNow i := ⟨hlatest, hidle, hheld⟩
  obtain ⟨devices, hdecided⟩ := hnow.decidedOn hsound
  exact ⟨hnow, (hdecided.holdsMain_iff 0).2 ⟨hshard, henough⟩⟩

/-- The slot of a node whose record disappeared is handed out again, and both nodes have its main
shard after they decided on the new list. -/
theorem exists_main_held_twice :
    ∃ f : Fleet Bool, Reachable (act? twoForOne) startOfTwo f ∧
      (twoForOne true).nodeAddress ≠ (twoForOne false).nodeAddress ∧
      (∀ i, f.DecidedNow i) ∧ ∀ i, (f.core i).HoldsMain 0 := by
  obtain ⟨f, hreach, hcheck⟩ := exists_reachable (act? twoForOne) startOfTwo replacement
    (fun f => f.keepsMain true && f.keepsMain false) (by decide +kernel)
  rw [Bool.and_eq_true] at hcheck
  have hsound : f.Sound twoForOne := sound_of_reachable hreach
  have hnow : ∀ i, f.DecidedNow i ∧ (f.core i).HoldsMain 0 := by
    intro i
    cases i with
    | true => exact decidedNow_of_keepsMain hcheck.1 hsound
    | false => exact decidedNow_of_keepsMain hcheck.2 hsound
  exact ⟨f, hreach, by decide, fun i => (hnow i).1, fun i => (hnow i).2⟩

/-- Of the two it is the first that has lost its record. -/
theorem main_held_twice_of_two :
    ∃ f : Fleet Bool, Reachable (act? twoForOne) startOfTwo f ∧
      f.DecidedNow true ∧ f.DecidedNow false ∧
      (f.core true).HoldsMain 0 ∧ (f.core false).HoldsMain 0 ∧ f.Displaced twoForOne true 0 := by
  obtain ⟨f, hreach, hcheck⟩ := exists_reachable (act? twoForOne) startOfTwo replacement
    (fun f => f.keepsMain true && f.keepsMain false &&
      f.membership.members == [Member.sharded 0 "b"]) (by decide +kernel)
  simp only [Bool.and_eq_true, beq_iff_eq] at hcheck
  obtain ⟨⟨hfirst, hsecond⟩, hmembers⟩ := hcheck
  have hsound : f.Sound twoForOne := sound_of_reachable hreach
  obtain ⟨hnowa, hholdsa⟩ := decidedNow_of_keepsMain hfirst hsound
  obtain ⟨hnowb, hholdsb⟩ := decidedNow_of_keepsMain hsecond hsound
  have haddresses : ∀ i j, i ≠ j → (twoForOne i).nodeAddress ≠ (twoForOne j).nodeAddress := by
    intro i j hij
    cases i <;> cases j <;> first | exact absurd rfl hij | decide
  have hlisted : Listed f.membership.members (twoForOne false).nodeAddress 0 := by
    rw [hmembers]
    exact ⟨_, List.mem_singleton_self _, rfl, Member.slot_sharded (by decide) "b"⟩
  have hdisplaced := (main_held_twice_only_if_displaced haddresses hreach (i := true) (j := false)
    (by decide) hnowa hnowb 0).2 hholdsa hholdsb
  exact ⟨f, hreach, hnowa, hnowb, hholdsa, hholdsb,
    hdisplaced.resolve_right fun hother => hother.2 hlisted⟩

end Fleet

end FleetSharding
