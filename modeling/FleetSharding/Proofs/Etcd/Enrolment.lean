import FleetSharding.Etcd.Registration
import FleetSharding.Proofs.Etcd.Store
import FleetSharding.Proofs.Reachable
import Mathlib.Logic.Function.Basic

/-!
# Several nodes register at one store

Any number of nodes go through their registrations, one request at a time, while leases end and
sessions are given up.  A free slot is claimed by writing a key that is not there, so of two claims
the second fails as long as the record of the first stands.  A node that finds its own record from
an earlier run puts a new one over it, without another look.  If the old lease ends in between, the
slot may have been claimed by then, and the put takes it from whoever has it.

* `Enrolment.act?`: the nodes and the store, one event at a time.
* `Enrolment.sound_of_reachable`: the record of a session stands as long as its lease is alive,
  unless another node put its own over it.
* `Enrolment.one_holder_unless_overwritten`: so two nodes have one id only after such a put.
* `Enrolment.exists_two_holders`: it happens.
-/

namespace FleetSharding.Etcd

namespace Registration

/-- The lease that a node works with. -/
def lease? : Registration → Option Nat
  | .listing lease | .adopting lease _ | .claiming lease _ _ | .yielding lease
  | .opening lease _ => some lease
  | .ended (.ok s) => some s.lease
  | .start | .ended (.error _) => none

/-- The slot that a node has written its record to. -/
def written? : Registration → Option Nat
  | .opening _ slot => some slot
  | .ended (.ok s) => some s.slot
  | _ => none

/-- A node hears that its record was written to a slot. -/
def Writes (lease slot : Nat) : Registration → Outcome → Prop
  | .adopting l k, .answered _ => l = lease ∧ k = slot
  | .claiming l k _, .answered (.claimed true) => l = lease ∧ k = slot
  | _, _ => False

/-- What a node may be at after an answer or a failure. -/
inductive Heard (r : Registrant) (g : Registration) (o : Outcome) : Registration → Prop
  | same : Heard r g o g
  | granted {lease : Nat} (hg : g = .start) (ho : o = .answered (.lease lease)) :
      Heard r g o (.listing lease)
  /-- It has a slot in view, or none is left. -/
  | onward {g' : Registration} (hlease : g'.lease? = g.lease?) (hslot : g'.written? = none) :
      Heard r g o g'
  | wrote {lease slot : Nat} (hw : g.Writes lease slot o) : Heard r g o (.opening lease slot)
  | opened {lease slot : Nat} (hg : g = .opening lease slot) :
      Heard r g o (.ended (.ok (r.session lease slot)))
  | failed (e : DiscoveryError) : Heard r g o (.ended (.error e))

variable {r : Registrant} {g g' : Registration} {o : Outcome} {lease slot : Nat}

/-- A node that looks for a slot to claim has one in view, or none is left. -/
theorem heard_claimFrom {listed : List Member} (hlease : g.lease? = some lease) (first : Nat) :
    Heard r g o (r.claimFrom lease first listed) := by
  unfold Registrant.claimFrom
  split
  · exact .onward hlease.symm rfl
  · exact .onward hlease.symm rfl

/-- Whatever comes of its request, a node is at one of these places then. -/
theorem heard_receive (r : Registrant) (g : Registration) (o : Outcome) :
    Heard r g o (receive r g o).1 := by
  cases o with
  | refused | silent =>
      cases g with
      | ended result => exact .same
      | _ => exact .failed _
  | answered a =>
      show Heard r g (.answered a) (answer r g a).1
      unfold answer
      split
      · exact .granted rfl rfl
      · next lease found =>
        dsimp only
        split
        · exact .onward rfl rfl
        · exact heard_claimFrom rfl 0
      · exact .wrote ⟨rfl, rfl⟩
      · exact .wrote ⟨rfl, rfl⟩
      · exact heard_claimFrom rfl _
      · exact .failed _
      · exact .opened rfl
      · exact .same

/-- Whoever writes does so on its own lease. -/
theorem Writes.lease? (h : g.Writes lease slot o) : g.lease? = some lease := by
  unfold Writes at h
  split at h
  · exact congrArg some h.1
  · exact congrArg some h.1
  · exact h.elim

/-- A node works with one lease only, the one that it was granted. -/
theorem Heard.lease? (h : Heard r g o g') (hlease : g'.lease? = some lease) :
    g.lease? = some lease ∨ (g = .start ∧ o = .answered (.lease lease)) := by
  cases h with
  | same => exact Or.inl hlease
  | granted hg ho =>
      cases hlease
      exact Or.inr ⟨hg, ho⟩
  | onward hsame _ => exact Or.inl (hsame ▸ hlease)
  | wrote hw =>
      cases hlease
      exact Or.inl hw.lease?
  | opened hg =>
      cases hlease
      exact Or.inl (hg ▸ rfl)
  | failed => cases hlease

/-- A node's record is at a slot if it was before, or if it hears that it was written. -/
theorem Heard.written? (h : Heard r g o g') (hslot : g'.written? = some slot)
    (hlease : g'.lease? = some lease) :
    (g.written? = some slot ∧ g.lease? = some lease) ∨ g.Writes lease slot o := by
  cases h with
  | same => exact Or.inl ⟨hslot, hlease⟩
  | granted => cases hslot
  | onward _ hnone =>
      rw [hnone] at hslot
      cases hslot
  | wrote hw =>
      cases hslot
      cases hlease
      exact Or.inr hw
  | opened hg =>
      cases hslot
      cases hlease
      exact Or.inl ⟨hg ▸ rfl, hg ▸ rfl⟩
  | failed => cases hslot

/-- A session is what its lease and its slot make it. -/
theorem Heard.session {s : Session} (h : Heard r g o (.ended (.ok s))) :
    g = .ended (.ok s) ∨ s = r.session s.lease s.slot := by
  cases h with
  | same => exact Or.inl rfl
  | onward _ hnone => cases hnone
  | opened hg => exact Or.inr rfl

end Registration

/-- Nodes that register at one store. -/
structure Enrolment (ι : Type) where
  store : Store
  /-- How far each node is, up to its session. -/
  place : ι → Registration
  /-- The leases of sessions that were given up, while the store is yet to end them. -/
  leaving : List Nat
  /-- Who put a record at which key, and what was there before. -/
  puts : List (ι × String × Option Stored)

/-- Something that happens to one of the nodes, or to the store. -/
inductive EnrolmentEvent (ι : Type) where
  /-- A node's request is carried out and answered. -/
  | serve (i : ι)
  /-- A node's request fails, though it may have been carried out. -/
  | fail (i : ι) (isCarriedOut isRefused : Bool)
  /-- Leases run out. -/
  | expire (ended : List Nat)
  /-- A node registers anew, after a failure or in a new process. -/
  | restart (i : ι)
  /-- A node gives up its session. -/
  | leave (i : ι)
  /-- The lease of a session that was given up is ended. -/
  | revoke (lease : Nat)

namespace Enrolment

variable {ι : Type} [DecidableEq ι] {node : ι → Registrant}

/-- No node has asked for anything yet. -/
def start (store : Store) : Enrolment ι := ⟨store, fun _ => .start, [], []⟩

def moveTo (f : Enrolment ι) (i : ι) (g : Registration) : Enrolment ι :=
  { f with place := Function.update f.place i g }

/-- A node goes on with what came of its request. -/
def hear (node : ι → Registrant) (f : Enrolment ι) (i : ι) (o : Outcome) : Enrolment ι :=
  f.moveTo i ((f.place i).receive (node i) o).1

/-- What a request puts over what. -/
def putOver (s : Store) (i : ι) : Request → List (ι × String × Option Stored)
  | .put key _ _ => [(i, key, s.records.get? key)]
  | _ => []

/-- The store carries out a node's request. -/
def carryOut (f : Enrolment ι) (i : ι) (q : Request) : Enrolment ι :=
  { f with store := (f.store.serve q).1, puts := putOver f.store i q ++ f.puts }

/-- What there is after something has happened, if it can. -/
def act? (node : ι → Registrant) (f : Enrolment ι) : EnrolmentEvent ι → Option (Enrolment ι)
  | .serve i =>
    ((f.place i).request? (node i)).map fun q =>
      (f.carryOut i q).hear node i (.answered (f.store.serve q).2)
  | .fail i isCarriedOut isRefused =>
    ((f.place i).request? (node i)).map fun q =>
      (if isCarriedOut then f.carryOut i q else f).hear node i
        (if isRefused then .refused else .silent)
  | .expire ended => some { f with store := f.store.endLeases (ended.contains ·) }
  | .restart i => some (f.moveTo i .start)
  | .leave i =>
    match f.place i with
    | .ended (.ok s) => some { f.moveTo i .start with leaving := s.lease :: f.leaving }
    | _ => none
  | .revoke lease =>
    if lease ∈ f.leaving then some { f with store := (f.store.serve (.revoke lease)).1 } else none

/-- The record of a node stands at a key. -/
def Stands (node : ι → Registrant) (f : Enrolment ι) (i : ι) (key : String) (lease : Nat) : Prop :=
  ∃ created, f.store.records.get? key = some ⟨(node i).value, created, some lease⟩

/-- Another node has put its record over one of a node. -/
def Overwritten (node : ι → Registrant) (f : Enrolment ι) (i : ι) (key : String) (lease : Nat) :
    Prop :=
  ∃ j, j ≠ i ∧ ∃ created, (j, key, some ⟨(node i).value, created, some lease⟩) ∈ f.puts

/-- Each node works with a lease of its own, and its record stands unless it was put over. -/
structure Sound (node : ι → Registrant) (f : Enrolment ι) : Prop where
  granted : ∀ i lease, (f.place i).lease? = some lease → lease ≤ f.store.granted
  apart : ∀ i j lease, (f.place i).lease? = some lease → (f.place j).lease? = some lease → i = j
  made : ∀ i s, f.place i = .ended (.ok s) → s = (node i).session s.lease s.slot
  stands : ∀ i slot lease, (f.place i).written? = some slot → (f.place i).lease? = some lease →
    lease ∈ f.store.leases →
      f.Overwritten node i ((node i).key slot) lease ∨ f.Stands node i ((node i).key slot) lease

variable {f f' : Enrolment ι}

omit [DecidableEq ι] in
/-- At the start no node has a lease. -/
theorem sound_start (node : ι → Registrant) (store : Store) : (start store).Sound node where
  granted := nofun
  apart := nofun
  made := nofun
  stands := nofun

/-- One node goes on. -/
theorem Sound.moveTo (h : f.Sound node) {i : ι} {g : Registration}
    (hlease : ∀ lease, g.lease? = some lease →
      lease ≤ f.store.granted ∧ ∀ j, j ≠ i → (f.place j).lease? ≠ some lease)
    (hmade : ∀ s, g = .ended (.ok s) → s = (node i).session s.lease s.slot)
    (hstands : ∀ slot lease, g.written? = some slot → g.lease? = some lease →
      lease ∈ f.store.leases →
        f.Overwritten node i ((node i).key slot) lease ∨
          f.Stands node i ((node i).key slot) lease) :
    (f.moveTo i g).Sound node where
  granted := (Function.forall_update_iff f.place fun _ g =>
      ∀ lease, g.lease? = some lease → lease ≤ f.store.granted).2
    ⟨fun lease hg => (hlease lease hg).1, fun j _ => h.granted j⟩
  apart := by
    intro j k lease hj hk
    by_cases hji : j = i <;> by_cases hki : k = i
    · exact hji.trans hki.symm
    · subst hji
      simp only [Enrolment.moveTo, Function.update_self, Function.update_of_ne hki] at hj hk
      exact absurd hk ((hlease lease hj).2 k hki)
    · subst hki
      simp only [Enrolment.moveTo, Function.update_self, Function.update_of_ne hji] at hj hk
      exact absurd hj ((hlease lease hk).2 j hji)
    · simp only [Enrolment.moveTo, Function.update_of_ne hji, Function.update_of_ne hki] at hj hk
      exact h.apart j k lease hj hk
  made := (Function.forall_update_iff f.place fun j g =>
      ∀ s, g = .ended (.ok s) → s = (node j).session s.lease s.slot).2
    ⟨hmade, fun j _ => h.made j⟩
  stands := (Function.forall_update_iff f.place fun j g =>
      ∀ slot lease, g.written? = some slot → g.lease? = some lease → lease ∈ f.store.leases →
        f.Overwritten node j ((node j).key slot) lease ∨
          f.Stands node j ((node j).key slot) lease).2
    ⟨hstands, fun j _ => h.stands j⟩

/-- A node that registers anew knows nothing. -/
theorem Sound.restart (h : f.Sound node) (i : ι) : (f.moveTo i .start).Sound node :=
  h.moveTo nofun nofun nofun

/-- A node goes on with what it hears, if that is so. -/
theorem Sound.hear (h : f.Sound node) {i : ι} {o : Outcome}
    (hfresh : ∀ lease, f.place i = .start → o = .answered (.lease lease) →
      lease ≤ f.store.granted ∧ ∀ j, (f.place j).lease? ≠ some lease)
    (hwrites : ∀ lease slot, (f.place i).Writes lease slot o →
      f.Stands node i ((node i).key slot) lease) :
    (f.hear node i o).Sound node := by
  refine h.moveTo ?_ ?_ ?_
  · intro lease hlease
    rcases (Registration.heard_receive ..).lease? hlease with hbefore | ⟨hstart, rfl⟩
    · exact ⟨h.granted i lease hbefore, fun j hji hj => hji (h.apart j i lease hj hbefore)⟩
    · obtain ⟨hgranted, hnobody⟩ := hfresh lease hstart rfl
      exact ⟨hgranted, fun j _ => hnobody j⟩
  · intro s hs
    rcases (hs ▸ Registration.heard_receive ..).session with hbefore | hs
    · exact h.made i s hbefore
    · exact hs
  · intro slot lease hslot hlease halive
    rcases (Registration.heard_receive ..).written? hslot hlease with ⟨hslot, hlease⟩ | hw
    · exact h.stands i slot lease hslot hlease halive
    · exact Or.inr (hwrites lease slot hw)

/-- Who has written its record puts no other. -/
theorem request?_ne_put {r : Registrant} {g : Registration} {slot : Nat}
    (h : g.written? = some slot) (key value : String) (lease : Nat) :
    g.request? r ≠ some (.put key value lease) := by
  cases g with
  | opening l k => nofun
  | ended result => nofun
  | _ => cases h

omit [DecidableEq ι] in
/-- A record stands through what others ask for, unless they put over it. -/
theorem Sound.carryOut (h : f.Sound node) {i : ι} {q : Request}
    (hq : (f.place i).request? (node i) = some q) : (f.carryOut i q).Sound node where
  granted := fun j lease hj =>
    Nat.le_trans (h.granted j lease hj) (f.store.granted_le_serve q)
  apart := h.apart
  made := h.made
  stands := by
    intro j slot lease hslot hlease halive
    rcases Store.mem_leases_serve halive with ⟨hbefore, hkept⟩ | ⟨-, hnew⟩
    · rcases h.stands j slot lease hslot hlease hbefore with hover | ⟨created, hr⟩
      · obtain ⟨k, hk, created, hmem⟩ := hover
        exact Or.inl ⟨k, hk, created, List.mem_append_right _ hmem⟩
      · rcases Store.get?_serve hr q with hstays | ⟨value, on, rfl⟩ | ⟨on, rfl, hon⟩
        · exact Or.inr ⟨created, hstays⟩
        · have hij : i ≠ j := by
            rintro rfl
            exact request?_ne_put hslot _ _ _ hq
          refine Or.inl ⟨i, hij, created, List.mem_append_left _ ?_⟩
          rw [putOver, hr]
          exact List.mem_singleton_self _
        · cases hon
          exact absurd rfl hkept
    · have hle : lease ≤ f.store.granted := h.granted j lease hlease
      omega

omit [DecidableEq ι] in
/-- Leases end, and with them what hangs on them. -/
theorem Sound.endLeases (h : f.Sound node) (ended : Nat → Bool) :
    Sound node { f with store := f.store.endLeases ended } where
  granted := h.granted
  apart := h.apart
  made := h.made
  stands := by
    intro j slot lease hslot hlease halive
    obtain ⟨hbefore, hkept⟩ := Store.mem_leases_endLeases.1 halive
    refine (h.stands j slot lease hslot hlease hbefore).imp_right ?_
    rintro ⟨created, hr⟩
    exact ⟨created, Store.get?_endLeases_of_alive hr rfl hkept⟩

omit [DecidableEq ι] in
/-- A record that a node hears of as written is there. -/
theorem stands_of_writes {i : ι} {q : Request} {lease slot : Nat}
    (hq : (f.place i).request? (node i) = some q)
    (hw : (f.place i).Writes lease slot (.answered (f.store.serve q).2)) :
    (f.carryOut i q).Stands node i ((node i).key slot) lease := by
  cases hplace : f.place i with
  | adopting l k =>
      rw [hplace] at hq hw
      cases hq
      obtain ⟨rfl, rfl⟩ := hw
      exact ⟨_, (Store.get?_put ..).trans (if_pos rfl)⟩
  | claiming l k listed =>
      rw [hplace] at hq hw
      cases hq
      by_cases hthere : f.store.records.contains ((node i).key k) = true
      · rw [Store.serve, if_pos hthere] at hw
        cases hw
      · have hserve : f.store.serve (.claim ((node i).key k) (node i).value l) =
            (f.store.put ((node i).key k) (node i).value (some l), .claimed true) := if_neg hthere
        rw [hserve] at hw
        obtain ⟨rfl, rfl⟩ := hw
        rw [Stands, Enrolment.carryOut, hserve]
        exact ⟨_, (Store.get?_put ..).trans (if_pos rfl)⟩
  | _ =>
      rw [hplace] at hw
      cases hw

/-- It stays so when a request is served, and its node hears of it. -/
theorem Sound.serve (h : f.Sound node) {i : ι} {q : Request}
    (hq : (f.place i).request? (node i) = some q) :
    ((f.carryOut i q).hear node i (.answered (f.store.serve q).2)).Sound node := by
  refine (h.carryOut hq).hear ?_ fun lease slot hw => stands_of_writes hq hw
  intro lease hstart hanswer
  have hplace : f.place i = .start := hstart
  rw [hplace] at hq
  cases hq
  cases hanswer
  refine ⟨Nat.le_refl _, ?_⟩
  intro j hj
  have hle : f.store.granted + 1 ≤ f.store.granted := h.granted j _ hj
  omega

/-- And when one fails or is never answered. -/
theorem Sound.fail (h : f.Sound node) (i : ι) (isRefused : Bool) :
    (f.hear node i (if isRefused then .refused else .silent)).Sound node := by
  refine h.hear ?_ ?_
  · intro lease _ ho
    cases isRefused <;> cases ho
  · intro lease slot hw
    cases hplace : f.place i <;> cases isRefused <;> rw [hplace] at hw <;> cases hw

/-- Whatever happens, the records of sessions stand unless they are put over. -/
theorem sound_of_act {e : EnrolmentEvent ι} (h : f.Sound node) (hact : f.act? node e = some f') :
    f'.Sound node := by
  cases e with
  | serve i =>
      obtain ⟨q, hq, rfl⟩ := Option.map_eq_some_iff.1 hact
      exact h.serve hq
  | fail i isCarriedOut isRefused =>
      obtain ⟨q, hq, rfl⟩ := Option.map_eq_some_iff.1 hact
      cases isCarriedOut with
      | true => exact (h.carryOut hq).fail i isRefused
      | false => exact h.fail i isRefused
  | expire ended =>
      cases hact
      exact h.endLeases _
  | restart i =>
      cases hact
      exact h.restart i
  | leave i =>
      simp only [act?] at hact
      split at hact
      · cases hact
        exact ⟨(h.restart i).granted, (h.restart i).apart, (h.restart i).made, (h.restart i).stands⟩
      · cases hact
  | revoke lease =>
      simp only [act?] at hact
      split at hact
      · cases hact
        exact h.endLeases _
      · cases hact

/-- So it is whatever the nodes ask, and in whatever order. -/
theorem sound_of_reachable {store : Store} (hreach : Reachable (act? node) (start store) f) :
    f.Sound node := by
  induction hreach with
  | start => exact sound_start node store
  | act _ hact ih => exact sound_of_act ih hact

/-- A node has a session with an id, on a lease that is alive. -/
def Holds (f : Enrolment ι) (i : ι) (id : String) (lease : Nat) : Prop :=
  ∃ s, f.place i = .ended (.ok s) ∧ s.member.id = id ∧ s.lease = lease ∧ lease ∈ f.store.leases

omit [DecidableEq ι] in
/-- The record of whoever holds an id stands, or has been overwritten. -/
theorem Holds.stands {i : ι} {id : String} {lease : Nat} (hi : f.Holds i id lease)
    (h : f.Sound node) :
    f.Overwritten node i (membersPrefix (node i).clusterId ++ id) lease ∨
      f.Stands node i (membersPrefix (node i).clusterId ++ id) lease := by
  obtain ⟨s, hplace, rfl, rfl, halive⟩ := hi
  have hid : s.member.id = toString s.slot := by rw [h.made i s hplace]; rfl
  rw [hid]
  exact h.stands i s.slot s.lease (by rw [hplace]; rfl) (by rw [hplace]; rfl) halive

/-- **Two nodes have one id only after a put over a record.**  A session's record stands at the key
of its id as long as the lease is alive, unless another node that found an older record of its own
has put a new one over it. -/
theorem one_holder_unless_overwritten {cluster : String} {store : Store}
    (hcluster : ∀ i, (node i).clusterId = cluster) (hreach : Reachable (act? node) (start store) f)
    {i : ι} {id : String} {lease : Nat} (hi : f.Holds i id lease) :
    (f.Overwritten node i (membersPrefix cluster ++ id) lease ∨
        f.Stands node i (membersPrefix cluster ++ id) lease) ∧
      ∀ j other, j ≠ i → f.Holds j id other →
        f.Overwritten node i (membersPrefix cluster ++ id) lease ∨
          f.Overwritten node j (membersPrefix cluster ++ id) other := by
  have hsound : f.Sound node := sound_of_reachable hreach
  have hstandsi := hcluster i ▸ hi.stands hsound
  refine ⟨hstandsi, ?_⟩
  intro j other hji hj
  rcases hstandsi with hover | ⟨created, hri⟩
  · exact Or.inl hover
  · rcases hcluster j ▸ hj.stands hsound with hover | ⟨created', hrj⟩
    · exact Or.inr hover
    · -- One key has one record, and a record hangs on one lease.
      have hlease : other = lease := by
        have hsame := hrj.symm.trans hri
        simp only [Option.some.injEq, Stored.mk.injEq] at hsame
        exact hsame.2.2
      obtain ⟨s, hplacei, -, rfl, -⟩ := hi
      obtain ⟨t, hplacej, -, rfl, -⟩ := hj
      exact absurd (hsound.apart j i s.lease (by rw [hplacej, ← hlease]; rfl)
        (by rw [hplacei]; rfl)) hji

/-- Two nodes of one cluster. -/
def rivals (i : Bool) : Registrant := ⟨"lab", bif i then "a" else "b", 2, 15⟩

/-- What an earlier run of the first node left behind. -/
def leftBehind : Store :=
  ((Store.empty.serve (.grant 15)).1.serve (.put ((rivals true).key 0) (rivals true).value 1)).1

/-- The first node has seen its old record when the old lease ends, and the second node claims the
slot before the first puts its new record. -/
def overtaken : List (EnrolmentEvent Bool) :=
  [.serve true, .serve true, .expire [1]] ++ List.replicate 4 (.serve false) ++
    List.replicate 2 (.serve true)

/-- Whether a node has a session with an id, on a lease that is alive. -/
def hasId (f : Enrolment Bool) (i : Bool) (id : String) : Bool :=
  match f.place i with
  | .ended (.ok s) => s.member.id == id && f.store.leases.contains s.lease
  | _ => false

/-- Whether a node holds an id can be computed. -/
theorem holds_of_hasId {f : Enrolment Bool} {i : Bool} {id : String} (h : f.hasId i id = true) :
    ∃ lease, f.Holds i id lease := by
  unfold hasId at h
  split at h
  · next s hs =>
    obtain ⟨hid, halive⟩ := Bool.and_eq_true_iff.1 h
    exact ⟨s.lease, s, hs, beq_iff_eq.1 hid, rfl, List.contains_iff_mem.1 halive⟩
  · cases h

/-- Two nodes at different addresses register, and both get the same id. -/
theorem exists_two_holders :
    ∃ f : Enrolment Bool, Reachable (act? rivals) (start leftBehind) f ∧
      (rivals true).address ≠ (rivals false).address ∧ ∀ i, ∃ lease, f.Holds i "0" lease := by
  obtain ⟨f, hreach, hcheck⟩ := exists_reachable (act? rivals) (start leftBehind) overtaken
    (fun f => f.hasId true "0" && f.hasId false "0") (by decide +kernel)
  rw [Bool.and_eq_true] at hcheck
  refine ⟨f, hreach, by decide, ?_⟩
  intro i
  cases i with
  | true => exact holds_of_hasId hcheck.1
  | false => exact holds_of_hasId hcheck.2

/-- The node that was overtaken has put its record over that of the other. -/
theorem two_holders_after_put :
    ∃ f : Enrolment Bool, Reachable (act? rivals) (start leftBehind) f ∧
      ∃ lease, f.Holds true "0" lease ∧ ∃ other, f.Holds false "0" other ∧
        (f.Overwritten rivals true (membersPrefix "lab" ++ "0") lease ∨
          f.Overwritten rivals false (membersPrefix "lab" ++ "0") other) := by
  obtain ⟨f, hreach, hcheck⟩ := exists_reachable (act? rivals) (start leftBehind) overtaken
    (fun f => f.hasId true "0" && f.hasId false "0") (by decide +kernel)
  rw [Bool.and_eq_true] at hcheck
  obtain ⟨lease, hfirst⟩ := holds_of_hasId hcheck.1
  obtain ⟨other, hsecond⟩ := holds_of_hasId hcheck.2
  have hcluster : ∀ i, (rivals i).clusterId = "lab" := fun _ => rfl
  exact ⟨f, hreach, lease, hfirst, other, hsecond,
    (one_holder_unless_overwritten hcluster hreach hfirst).2 false other (by decide) hsecond⟩

end Enrolment

end FleetSharding.Etcd
