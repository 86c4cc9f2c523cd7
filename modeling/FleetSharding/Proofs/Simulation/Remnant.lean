import FleetSharding.Proofs.Etcd.Client
import FleetSharding.Proofs.Membership
import FleetSharding.Proofs.Simulation.Node

/-!
# What a node leaves behind when it fails

A node may fail once its record is written: when it cannot keep its lease alive, when its admin
interface cannot listen, and when its coordinator does not see it among the members.  Only in the
last case it gives up its registration first.  In the others it returns without, and its record
stays, for all that it does itself: while a name is looked up, others may do to the membership what
they like.

* `ListedNode.Left`, `Etcd.Client.Left`: what is left, by the kind of failure.
* `OnList`, `Tidy`: what is known of a node at all times, for each backend.
* `listed_left`, `stored_left`: what is left when a node returns with a failure.
* `left_behind`: so it is for both backends, whatever can be listened on.
* `exists_left_behind`: a node that never ran stays a member.
-/

namespace FleetSharding

/-- Nothing has happened to a node's membership. -/
abbrev ListedNode.Same (w w' : ListedNode) : Prop := w' = w

/-- A membership with the node's record: the one that it had there, or a new one. -/
def ListedNode.Registered (w : ListedNode) (m : Membership) : Prop :=
  match w.membership.at? w.address with
  | some _ => m = w.membership
  | none => ∃ slot,
    m = { w.membership with members := w.membership.members ++ [.sharded slot w.address] }

/-- What a failed node leaves of a membership in its process, to which others did this meanwhile,
the latest first. -/
def ListedNode.Left (w : ListedNode) (others : List MembershipAction) (left : Membership) :
    NodeFailure → Prop
  | .registration _ => left = w.membership
  | .binding _ => ∃ m, w.Registered m ∧ left = others.foldr (fun a m => m.apply a) m
  | .unseen .. => ∀ m ∈ left.members, m.address ≠ w.address

/-- What a failed node leaves of a store, to which others did this meanwhile, the latest first.  The
record of its run hangs on the lease that the store was to grant next when the node was started. -/
def Etcd.Client.Left (w : Etcd.Client) (others : List Etcd.Client.Interference)
    (left : Etcd.Store) : NodeFailure → Prop
  | .registration _ => left.HoldsOn (w.server.store.granted + 1) ↔
    (Discovery.register w).2.server.lastMethod? = some .keepAlive
  | .binding _ =>
    (∃ slot, Etcd.Registration.Written (w.server.store.granted + 1) w.registrant slot
      (Discovery.register w).2.server.store) ∧
    left = (others.foldr (fun i c => c.meet i) (Discovery.register w).2).server.store
  | .unseen .. => ¬ left.HoldsOn (w.server.store.granted + 1)

namespace Node

open Etcd (Client)

/-- Whatever happens to a membership goes on. -/
def sharesList (n : Node ListedNode) (a : MembershipAction) : Option (Node ListedNode) :=
  some (n.act a)

/-- Others do to a store whatever they like, except with the node's lease, and it accepts removals.
-/
def sharesStore (lease : Nat) (n : Node Client) (i : Client.Interference) : Option (Node Client) :=
  if Client.isForeign lease i = true then
    some { n with runner := { n.runner with world := n.runner.world.meet i } }
  else none

/-- A membership in the node's process is changed by nothing but registering and deregistering. -/
theorem keeps_listed : Discovery.Keeps ListedNode.Same where
  refl _ := rfl
  trans h h' := h'.trans h
  ask _ _ := rfl
  fire _ _ := rfl
  news _ := rfl
  watch _ := rfl
  ignore _ := rfl

/-- The store of a node is changed by nothing else either. -/
theorem keeps_stored : Discovery.Keeps Client.Keeps where
  refl := .refl
  trans := .trans
  ask := Client.keeps_ask
  fire := Client.keeps_fireAt
  news _ := ⟨rfl, rfl, rfl, id⟩
  watch _ := ⟨rfl, rfl, rfl, id⟩
  ignore _ := ⟨rfl, rfl, rfl, id⟩

section Listed

variable {listen : String → Listening} {c : FleetConfig} {w : ListedNode}
  {others : List MembershipAction} {n n' : Node ListedNode}

/-- What registering does to a membership in the node's process. -/
theorem world_of_register {result : Option (Except DiscoveryError Unit)} {w' : ListedNode}
    (h : Discovery.register w = (result, w')) :
    w' = { w with membership := w.membership.register w.address } :=
  congrArg Prod.snd h.symm

/-- What is known of a node of a membership in its process, to which others did this: it keeps its
address, is never about to leave, and while it opens its admin interface its record stands. -/
structure OnList (w : ListedNode) (others : List MembershipAction) (n : Node ListedNode) :
    Prop where
  address : n.runner.world.address = w.address
  stays : ∀ due result outcome, n.phase ≠ .leaving due result outcome
  opening : ∀ isOpen, n.phase = .opening isOpen →
    ∃ m, w.Registered m ∧ n.runner.world.membership = others.foldr (fun a m => m.apply a) m

/-- Going on leaves the list alone, until the node has left. -/
theorem OnList.goes (h : OnList w others n) (hgoes : Goes ListedNode.Same n n') :
    OnList w others n' := by
  cases hgoes with
  | on hphase hworld =>
      refine ⟨hworld ▸ h.address, hphase ▸ h.stays, fun isOpen hopening => ?_⟩
      rw [hworld]
      exact h.opening isOpen (hphase ▸ hopening)
  | crashed _ hphase hworld =>
      exact ⟨hworld ▸ h.address, by rw [hphase]; exact nofun, by rw [hphase]; exact nofun⟩
  | closed _ hphase hworld =>
      exact ⟨hworld ▸ h.address, by rw [hphase]; exact nofun, by rw [hphase]; exact nofun⟩
  | left _ hbefore hafter hphase =>
      rcases hphase with hphase | ⟨hdue, -⟩
      · refine ⟨?_, by rw [hphase]; exact nofun, by rw [hphase]; exact nofun⟩
        rw [hafter, hbefore]
        exact h.address
      · -- It knows at once what its departure comes to.
        exact absurd hdue (Nat.lt_irrefl _)

/-- So does the end of the look-up, be the node ready to run or not. -/
theorem OnList.opens (h : OnList w others n)
    (hopens : Opens ListedNode.Same n n') : OnList w others n' := by
  cases hopens with
  | run _ hrun hworld hgoes =>
      have hfirst : OnList w others _ :=
        ⟨hworld ▸ h.address, by rw [hrun]; exact nofun, by rw [hrun]; exact nofun⟩
      exact hfirst.goes hgoes
  | fail _ hphase hworld =>
      exact ⟨hworld ▸ h.address, by rw [hphase]; exact nofun, by rw [hphase]; exact nofun⟩

/-- What is done to a membership ends no node, and nothing else is done to the world. -/
theorem act_eq (n : Node ListedNode) (a : MembershipAction) :
    (n.act a).phase = n.phase ∧ (n.act a).runner.world =
      { n.runner.world with membership := n.runner.world.membership.apply a } := by
  refine ⟨rfl, ?_⟩
  unfold act
  dsimp only
  split
  · rw [Runner.keeps_poke keeps_listed.toKeeps]
  · rfl

/-- What others do is what changes the list. -/
theorem OnList.act (h : OnList w others n) (a : MembershipAction) :
    OnList w (a :: others) (n.act a) := by
  obtain ⟨hphase, hworld⟩ := act_eq n a
  refine ⟨by rw [hworld]; exact h.address, hphase ▸ h.stays, fun isOpen hopening => ?_⟩
  obtain ⟨m, hm, hlisted⟩ := h.opening isOpen (hphase ▸ hopening)
  refine ⟨m, hm, ?_⟩
  rw [hworld, List.foldr_cons, ← hlisted]

/-- A registration that was refused has left the list as it was. -/
theorem membership_of_refused {e : DiscoveryError} {w' : ListedNode}
    (h : Discovery.register w = (some (.error e), w')) : w'.membership = w.membership := by
  rw [world_of_register h]
  have hresult := congrArg Prod.fst h
  simp only [Discovery.register] at hresult
  show w.membership.register w.address = w.membership
  unfold Membership.register
  split at hresult
  · next hrefused => rw [hrefused]
  · cases hresult

/-- A registration that went well has put the node on the list, unless it was there. -/
theorem registered_of_ok {w' : ListedNode} (h : Discovery.register w = (some (.ok ()), w')) :
    w.Registered w'.membership := by
  rw [world_of_register h]
  have hresult := congrArg Prod.fst h
  simp only [Discovery.register] at hresult
  cases hregistration : w.membership.registration w.address with
  | refused e =>
      rw [hregistration] at hresult
      cases hresult
  | listed m =>
      have hat : w.membership.at? w.address = some m := Membership.at?_of_listed hregistration
      simp only [ListedNode.Registered, hat, Membership.register, hregistration]
  | added m =>
      obtain ⟨-, hat, slot, -, rfl⟩ := Membership.registration_eq_added_iff.1 hregistration
      simp only [ListedNode.Registered, hat, Membership.register, hregistration]
      exact ⟨slot, rfl⟩

/-- A node that has registered is on the list. -/
theorem onList_of_registered {w' : ListedNode} {first : Node ListedNode} {isOpen : Bool}
    (hregister : Discovery.register w = (some (.ok ()), w')) (hworld : first.runner.world = w')
    (hopening : first.phase = .opening isOpen) : OnList w [] first := by
  refine ⟨by rw [hworld, world_of_register hregister], by rw [hopening]; exact nofun, ?_⟩
  intro _ _
  exact ⟨w'.membership, registered_of_ok hregister, congrArg ListedNode.membership hworld⟩

/-- So it is after any events: the list is what others have made of the one with the record. -/
theorem onList_of_yields {es : List (NodeEvent MembershipAction)}
    (hyields : Yields (act? sharesList) (start listen c w) es n) :
    OnList w (es.filterMap (·.outside?)) n := by
  induction hyields with
  | start =>
      cases begins_start keeps_listed listen c w with
      | waits hregister => cases congrArg Prod.fst hregister
      | unregistered hregister hworld hphase =>
          refine ⟨?_, by rw [hphase]; exact nofun, by rw [hphase]; exact nofun⟩
          rw [hworld, world_of_register hregister]
      | opens hregister hworld hopening hmoves =>
          have hfirst := onList_of_registered hregister hworld hopening
          exact hmoves.elim hfirst.goes hfirst.opens
  | act _ hact ih =>
      rcases moves_act keeps_listed hact with ⟨hmoves, hown⟩ | ⟨a, hothers, hshares⟩
      · rw [List.filterMap_cons_none hown]
        exact hmoves.elim ih.goes ih.opens
      · cases hshares
        rw [List.filterMap_cons_some hothers]
        exact ih.act a

/-- Nobody with the address is left by a departure. -/
theorem ne_address_of_deregister (w : ListedNode) (clock : Nat) :
    ∀ m ∈ (Discovery.deregister w clock).2.membership.members, m.address ≠ w.address := by
  intro m hm
  have hkept := (List.mem_filter.1 hm).2
  simpa using hkept

/-- A node on the list that ends leaves its record if it cannot listen, and nothing otherwise. -/
theorem OnList.left {f : NodeFailure} (h : OnList w others n)
    (hends : Ends ListedNode.Same n n' f) :
    w.Left others n'.runner.world.membership f := by
  cases hends with
  | unbound hf hopening hworld =>
      rw [hf, hworld]
      exact h.opening false hopening
  | gone _ hleft => exact absurd hleft (h.stays _ _ _)
  | @unseen _ _ clock w₁ hf _ hbefore hafter =>
      rw [hf, hafter]
      intro m hm
      rw [← h.address, ← hbefore]
      exact ne_address_of_deregister w₁ clock m hm

/-- **What a node leaves of a membership in its process**, when it returns with a failure. -/
theorem listed_left {f : NodeFailure} (h : Returns sharesList (start listen c w) f others n) :
    w.Left others n.runner.world.membership f := by
  cases h with
  | atOnce hstart hothers hended =>
      subst hstart hothers
      cases begins_start keeps_listed listen c w with
      | waits _ hphase => cases hphase.symm.trans hended
      | unregistered hregister hworld hphase =>
          cases hphase.symm.trans hended
          rw [hworld]
          exact membership_of_refused hregister
      | @opens _ first _ hregister hworld hopening hmoves =>
          have hfirst := onList_of_registered hregister hworld hopening
          have hopen : ∀ result, first.phase ≠ .ended result := by rw [hopening]; exact nofun
          exact hfirst.left (ends_of_moves keeps_listed.toKeeps hmoves hopen hended)
  | later hyields hothers hopen hact hended =>
      subst hothers
      rcases moves_act keeps_listed hact with ⟨hmoves, -⟩ | ⟨a, -, hshares⟩
      · exact (onList_of_yields hyields).left
          (ends_of_moves keeps_listed.toKeeps hmoves hopen hended)
      · cases hshares
        exact absurd hended (hopen _)

end Listed

section Stored

variable {listen : String → Listening} {c : FleetConfig} {w : Client}
  {others : List Client.Interference} {n n' : Node Client} {lease : Nat}

/-- What is known of a node of a store, to which others did this: it has a session on its lease
until it leaves, and then nothing is left on that; and while it opens its admin interface its record
stands, for all that it does itself. -/
structure Tidy (w : Client) (others : List Client.Interference) (n : Node Client) : Prop where
  active : n.phase = .running ∨ (∃ isOpen, n.phase = .opening isOpen) →
    n.runner.world.Enrolled (w.server.store.granted + 1)
  leaving : ∀ due result outcome, n.phase = .leaving due result outcome →
    ¬ n.runner.world.server.store.HoldsOn (w.server.store.granted + 1)
  opening : ∀ isOpen, n.phase = .opening isOpen →
    (∃ slot, Etcd.Registration.Written (w.server.store.granted + 1) w.registrant slot
      (Discovery.register w).2.server.store) ∧
    (others.foldr (fun i c => c.meet i) (Discovery.register w).2).Alike n.runner.world

/-- A departure takes all that is left of a client. -/
theorem not_holdsOn_of_left {w₁ w₂ : Client} {clock : Nat} (h : n.runner.world.Enrolled lease)
    (hbefore : n.runner.world.Keeps w₁) (hafter : (Discovery.deregister w₁ clock).2.Keeps w₂) :
    ¬ w₂.server.store.HoldsOn lease := by
  rw [hafter.store]
  exact Client.not_holdsOn_departure (h.keeps hbefore) clock

/-- A node that is neither active nor about to leave is tidy. -/
theorem tidy_of_over (hactive : ¬ (n.phase = .running ∨ ∃ isOpen, n.phase = .opening isOpen))
    (hleaving : ∀ due result outcome, n.phase ≠ .leaving due result outcome) : Tidy w others n where
  active h := absurd h hactive
  leaving due result outcome h := absurd h (hleaving due result outcome)
  opening isOpen h := absurd (Or.inr ⟨isOpen, h⟩) hactive

/-- A node stays tidy as it goes on: when it leaves, it takes its record along. -/
theorem Tidy.goes (h : Tidy w others n) (hgoes : Goes Client.Keeps n n') : Tidy w others n' := by
  cases hgoes with
  | on hphase hworld =>
      refine ⟨fun hactive => (h.active (hphase ▸ hactive)).keeps hworld, ?_, ?_⟩
      · intro due result outcome hleft
        rw [hworld.store]
        exact h.leaving due result outcome (hphase ▸ hleft)
      · intro isOpen hopening
        obtain ⟨hwritten, hsame⟩ := h.opening isOpen (hphase ▸ hopening)
        exact ⟨hwritten, hsame.trans hworld.alike⟩
  | crashed _ hphase => exact tidy_of_over (by simp [hphase]) (by rw [hphase]; exact nofun)
  | closed _ hphase => exact tidy_of_over (by simp [hphase]) (by rw [hphase]; exact nofun)
  | left hrun hbefore hafter hphase =>
      rcases hphase with hphase | ⟨-, due, result, hphase⟩
      · exact tidy_of_over (by simp [hphase]) (by rw [hphase]; exact nofun)
      · have hgone := not_holdsOn_of_left (h.active (Or.inl hrun)) hbefore hafter
        exact ⟨by simp [hphase], fun _ _ _ _ => hgone, by rw [hphase]; exact nofun⟩

/-- It stays tidy when it runs its coordinator, or fails to. -/
theorem Tidy.opens (h : Tidy w others n) (hopens : Opens Client.Keeps n n') : Tidy w others n' := by
  cases hopens with
  | fail _ hphase => exact tidy_of_over (by simp [hphase]) (by rw [hphase]; exact nofun)
  | run hopening hrun hworld hgoes =>
      have hfirst : Tidy w others _ :=
        ⟨fun _ => (h.active (Or.inr ⟨true, hopening⟩)).keeps hworld, by rw [hrun]; exact nofun,
          by rw [hrun]; exact nofun⟩
      exact hfirst.goes hgoes

/-- What others do to the store leaves a node as tidy as it was. -/
theorem Tidy.shares {i : Client.Interference} (h : Tidy w others n)
    (hshares : sharesStore (w.server.store.granted + 1) n i = some n') :
    n'.phase = n.phase ∧ Tidy w (i :: others) n' := by
  unfold sharesStore at hshares
  split at hshares
  · next hi =>
    cases hshares
    refine ⟨rfl, fun hactive => (h.active hactive).meet hi, ?_, ?_⟩
    · intro due result outcome hleft
      have hfree := Etcd.Store.not_holdsOn_iff.1 (h.leaving due result outcome hleft)
      exact Etcd.Store.not_holdsOn_iff.2 (Client.hangsOnly_meet hfree hi)
    · intro isOpen hopening
      obtain ⟨hwritten, hsame⟩ := h.opening isOpen hopening
      exact ⟨hwritten, hsame.meet i⟩
  · cases hshares

/-- What a node hears of its registration is what came of it, but for the member. -/
theorem exists_register_eq {result : Except DiscoveryError Unit} {w' : Client}
    (h : Discovery.register w = (some result, w')) :
    ∃ found, w.register = (some found, w') ∧ found.map (fun _ => ()) = result := by
  obtain ⟨hresult, hleft⟩ := Prod.mk.inj h
  obtain ⟨found, hfound, hmap⟩ := Option.map_eq_some_iff.1 hresult
  exact ⟨found, Prod.ext hfound hleft, hmap⟩

/-- Whoever has registered has a member. -/
theorem register_of_ok {w' : Client} (h : Discovery.register w = (some (.ok ()), w')) :
    ∃ m, w.register = (some (.ok m), w') := by
  obtain ⟨e | m, hregister, hmap⟩ := exists_register_eq h
  · cases hmap
  · exact ⟨m, hregister⟩

/-- A registration that failed has failed with the same error. -/
theorem register_of_error {e : DiscoveryError} {w' : Client}
    (h : Discovery.register w = (some (.error e), w')) : w.register = (some (.error e), w') := by
  obtain ⟨e' | m, hregister, hmap⟩ := exists_register_eq h
  · cases hmap
    exact hregister
  · cases hmap

/-- A node that has registered is tidy. -/
theorem tidy_of_registered {w' : Client} {first : Node Client} {isOpen : Bool} (hfresh : w.Fresh)
    (haccepts : w.server.faults.lookup .revoke = none)
    (hregister : Discovery.register w = (some (.ok ()), w')) (hworld : w'.Keeps first.runner.world)
    (hopening : first.phase = .opening isOpen) : Tidy w [] first := by
  obtain ⟨m, hregistered⟩ := register_of_ok hregister
  obtain ⟨slot, hsession, hwritten, hfaults⟩ := hfresh.register_ok hregistered
  have henrolled : w'.Enrolled (w.server.store.granted + 1) :=
    ⟨⟨_, hsession, rfl⟩, hfaults _ haccepts⟩
  have hleft : (Discovery.register w).2 = w' := congrArg Prod.snd hregister
  refine ⟨fun _ => henrolled.keeps hworld, by rw [hopening]; exact nofun, fun _ _ => ?_⟩
  rw [hleft]
  exact ⟨⟨slot, hwritten⟩, hworld.alike⟩

/-- So it is after any events: the store is what others have made of the one with the record. -/
theorem tidy_of_yields {es : List (NodeEvent Client.Interference)} (hfresh : w.Fresh)
    (haccepts : w.server.faults.lookup .revoke = none)
    (hyields : Yields (act? (sharesStore (w.server.store.granted + 1))) (start listen c w) es n) :
    Tidy w (es.filterMap (·.outside?)) n := by
  induction hyields with
  | start =>
      cases begins_start keeps_stored listen c w with
      | waits _ hphase => exact tidy_of_over (by simp [hphase]) (by rw [hphase]; exact nofun)
      | unregistered _ _ hphase =>
          exact tidy_of_over (by simp [hphase]) (by rw [hphase]; exact nofun)
      | opens hregister hworld hopening hmoves =>
          have hfirst := tidy_of_registered hfresh haccepts hregister hworld hopening
          exact hmoves.elim hfirst.goes hfirst.opens
  | act _ hact ih =>
      rcases moves_act keeps_stored hact with ⟨hmoves, hown⟩ | ⟨i, hothers, hshares⟩
      · rw [List.filterMap_cons_none hown]
        exact hmoves.elim ih.goes ih.opens
      · rw [List.filterMap_cons_some hothers]
        exact (ih.shares hshares).2

/-- A tidy node that ends leaves its record if it cannot listen, and nothing otherwise. -/
theorem Tidy.left {f : NodeFailure} (h : Tidy w others n) (hends : Ends Client.Keeps n n' f) :
    w.Left others n'.runner.world.server.store f := by
  cases hends with
  | unbound hf hopening hworld =>
      obtain ⟨hwritten, hsame⟩ := h.opening false hopening
      rw [hf]
      exact ⟨hwritten, hworld.store.trans hsame.store⟩
  | unseen hf hactive hbefore hafter =>
      rw [hf]
      exact not_holdsOn_of_left (h.active (hactive.imp_right fun hopening => ⟨true, hopening⟩))
        hbefore hafter
  | gone hf hleft hworld =>
      rw [hf]
      show ¬ n'.runner.world.server.store.HoldsOn _
      rw [hworld.store]
      exact h.leaving _ _ _ hleft

/-- **What a node leaves of a store that accepts removals**, when it returns with a failure. -/
theorem stored_left {f : NodeFailure} (hfresh : w.Fresh)
    (haccepts : w.server.faults.lookup .revoke = none)
    (h : Returns (sharesStore (w.server.store.granted + 1)) (start listen c w) f others n) :
    w.Left others n.runner.world.server.store f := by
  cases h with
  | atOnce hstart hothers hended =>
      subst hstart hothers
      cases begins_start keeps_stored listen c w with
      | waits _ hphase => cases hphase.symm.trans hended
      | unregistered hregister hworld hphase =>
          cases hphase.symm.trans hended
          have hlast := hfresh.register_error (register_of_error hregister)
          simp only [Client.Left, hworld.store, hregister]
          exact hlast
      | @opens _ first _ hregister hworld hopening hmoves =>
          have hfirst := tidy_of_registered hfresh haccepts hregister hworld hopening
          have hopen : ∀ result, first.phase ≠ .ended result := by rw [hopening]; exact nofun
          exact hfirst.left (ends_of_moves keeps_stored.toKeeps hmoves hopen hended)
  | later hyields hothers hopen hact hended =>
      subst hothers
      have htidy := tidy_of_yields hfresh haccepts hyields
      rcases moves_act keeps_stored hact with ⟨hmoves, -⟩ | ⟨i, -, hshares⟩
      · exact htidy.left (ends_of_moves keeps_stored.toKeeps hmoves hopen hended)
      · rw [(htidy.shares hshares).1] at hended
        exact absurd hended (hopen _)

end Stored

/-- There is no host with this name, which has to be looked up, and all other addresses can be
listened on. -/
def nopeUnknown (address : String) : Listening :=
  if address = "nope" then .later false else .now true

/-- A node whose admin interface has no address to listen on. -/
def unboundConfig (backend : Backend) : FleetConfig :=
  { cluster := { nodeAddress := "a" }, discovery := { backend }, api := { bindAddr := "nope" } }

/-- A list of nobody. -/
def emptyList : ListedNode := ⟨.ofMembers 1 [], "a"⟩

/-- A store without members, in which some calls fail. -/
def emptyStore (faults : List (Etcd.Method × Etcd.Fault)) : Client :=
  { cluster := { nodeAddress := "a" }, discovery := {}, server := { store := .empty, faults } }

/-- A node that has not begun has neither a session nor a lease. -/
theorem fresh_emptyStore (faults : List (Etcd.Method × Etcd.Fault)) :
    (emptyStore faults).Fresh where
  session := rfl
  keepAlive := rfl
  watch := rfl
  free := Etcd.Store.not_holdsOn_iff.2 fun _ _ _ hr => by cases hr

/-- The node returns once the name is looked up. -/
theorem returns_of_emptyList :
    Returns sharesList (start nopeUnknown (unboundConfig .static) emptyList) (.binding "nope") []
      (start nopeUnknown (unboundConfig .static) emptyList).resolve :=
  .later (e := .resolve) .start rfl nofun rfl rfl

/-- So it does with a store. -/
theorem returns_of_emptyStore :
    Returns (sharesStore 1) (start nopeUnknown (unboundConfig .etcd) (emptyStore []))
      (.binding "nope") [] (start nopeUnknown (unboundConfig .etcd) (emptyStore [])).resolve :=
  .later (e := .resolve) .start rfl nofun rfl rfl

/-- The node returns at once. -/
theorem returns_of_streamless :
    Returns (sharesStore 1)
      (start nopeUnknown (unboundConfig .etcd) (emptyStore [(.keepAlive, .fail)]))
      (.registration .request) []
      (start nopeUnknown (unboundConfig .etcd) (emptyStore [(.keepAlive, .fail)])) :=
  .atOnce rfl rfl rfl

end Node

end FleetSharding
