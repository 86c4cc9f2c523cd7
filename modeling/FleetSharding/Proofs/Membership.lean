import FleetSharding.Membership
import Mathlib.Data.List.Nodup
import Mathlib.Data.List.Pairwise
import Mathlib.Tactic.ByContra

/-!
# What the actions on a membership do

* `signals_of_changes`: no action changes the list without a signal to its watchers.
* `slotsUnique_apply`: while slots are handed out only by registering, no two members hold one.
-/

namespace FleetSharding

namespace Membership

variable {α : Type}

/-- Without an element that passes the test nothing is updated. -/
theorem updateFirst_of_forall_not {p : α → Bool} {f : α → α} {l : List α}
    (h : ∀ a ∈ l, ¬ p a = true) : updateFirst p f l = l := by
  induction l with
  | nil => rfl
  | cons a l ih =>
      rw [updateFirst, if_neg (h a List.mem_cons_self),
        ih fun b hb => h b (List.mem_cons_of_mem _ hb)]

/-- **No change of the list goes without a signal.** -/
theorem signals_of_changes {m : Membership} {a : MembershipAction}
    (h : (m.apply a).members ≠ m.members) : m.signals a = true := by
  rw [← Bool.not_eq_false]
  intro hsilent
  refine h ?_
  cases a with
  | register address =>
      simp only [apply, register]
      simp only [signals] at hsilent
      split at hsilent
      · cases hsilent
      · rfl
  | deregister address =>
      refine List.filter_eq_self.2 ?_
      intro member hmember
      simpa using List.any_eq_false.1 hsilent member hmember
  | upsert member => cases hsilent
  | setStatus id status => exact updateFirst_of_forall_not (List.any_eq_false.1 hsilent)
  | remove id =>
      refine List.filter_eq_self.2 ?_
      intro member hmember
      simpa using List.any_eq_false.1 hsilent member hmember
  | setUnavailable on => rfl

end Membership

/-- No two members hold one slot. -/
def SlotsUnique (members : List Member) : Prop := (members.filterMap Member.slot).Nodup

/-- Who holds a slot is known by it. -/
theorem SlotsUnique.eq_of_slot {members : List Member} (h : SlotsUnique members) {a b : Member}
    (ha : a ∈ members) (hb : b ∈ members) {slot : Nat} (hslota : a.slot = some slot)
    (hslotb : b.slot = some slot) : a = b := by
  by_contra hne
  rw [SlotsUnique, List.Nodup, List.pairwise_filterMap] at h
  have hsymm : Std.Symm fun a b : Member =>
      ∀ x, a.slot = some x → ∀ y, b.slot = some y → x ≠ y :=
    ⟨fun a b hab x hx y hy => (hab y hy x hx).symm⟩
  exact h.forall ha hb hne slot hslota slot hslotb rfl

/-- Fewer members hold fewer slots. -/
theorem SlotsUnique.filter {members : List Member} (h : SlotsUnique members) (p : Member → Bool) :
    SlotsUnique (members.filter p) :=
  h.sublist (List.filter_sublist.filterMap _)

/-- One member more leaves the slots unique if nobody holds its slot yet. -/
theorem SlotsUnique.append {members : List Member} (h : SlotsUnique members) {member : Member}
    (hfree : ∀ slot, member.slot = some slot → holdsSlot members slot = false) :
    SlotsUnique (members ++ [member]) := by
  rw [SlotsUnique, List.filterMap_append]
  refine List.Nodup.append h ?_ ?_
  · rw [List.filterMap_cons]
    split <;> simp
  · intro slot hslot hnew
    obtain ⟨a, ha, hslota⟩ := List.mem_filterMap.1 hslot
    obtain ⟨b, hb, hslotb⟩ := List.mem_filterMap.1 hnew
    obtain rfl := List.mem_singleton.1 hb
    have hheld : holdsSlot members slot = true :=
      List.any_eq_true.2 ⟨a, ha, by rw [hslota, beq_self_eq_true]⟩
    exact Bool.false_ne_true ((hfree slot hslotb).symm.trans hheld)

/-- A member that takes part by a slot holds that slot, if it is small enough to be read. -/
theorem Member.eq_of_slot_sharded {slot slot' : Nat} {address : String}
    (h : (Member.sharded slot address).slot = some slot') : slot' = slot := by
  have hread : (some slot).filter (· < Text.wordBound) = some slot' := by
    rw [← Text.digits?_toDigits slot, ← Text.dropPlus_toDigits slot]
    simpa [Member.slot, Member.sharded, Text.word?, Text.unsigned?] using h
  exact (Option.some.inj (Option.filter_eq_some_iff.1 hread).1).symm

namespace Membership

/-- What does not look at a change is not changed by it. -/
theorem map_updateFirst {α β : Type} {p : α → Bool} {f : α → α} {g : α → β}
    (hg : ∀ a, p a = true → g (f a) = g a) (l : List α) :
    (updateFirst p f l).map g = l.map g := by
  induction l with
  | nil => rfl
  | cons a l ih =>
      rw [updateFirst]
      split
      · next ha => rw [List.map_cons, List.map_cons, hg a ha]
      · rw [List.map_cons, List.map_cons, ih]

/-- A change of one member that leaves its slot leaves the slots unique. -/
theorem slotsUnique_updateFirst {members : List Member} (h : SlotsUnique members)
    {p : Member → Bool} {f : Member → Member} (hf : ∀ m, p m = true → (f m).slot = m.slot) :
    SlotsUnique (updateFirst p f members) := by
  have hslots : ∀ l : List Member,
      l.filterMap Member.slot = (l.map Member.slot).filterMap fun s => s :=
    fun l => by rw [List.filterMap_map]; rfl
  rw [SlotsUnique, hslots, map_updateFirst hf, ← hslots]
  exact h

/-- A member is added for an address that is not listed, with the lowest free slot. -/
theorem registration_eq_added_iff {m : Membership} {address : String} {member : Member} :
    m.registration address = .added member ↔
      m.available = true ∧ m.at? address = none ∧
        ∃ slot, lowestFreeSlot m.members m.limit = some slot ∧ member = .sharded slot address := by
  unfold registration
  cases m.available <;> cases m.at? address <;> cases lowestFreeSlot m.members m.limit <;>
    simp [eq_comm]

/-- Only an address with a member counts as listed. -/
theorem at?_of_listed {m : Membership} {address : String} {member : Member}
    (h : m.registration address = .listed member) : m.at? address = some member := by
  unfold registration at h
  split at h
  · cases h
  · split at h
    · next hat =>
      cases h
      exact hat
    · split at h <;> cases h

/-- The slot that is found is nobody's. -/
theorem holdsSlot_of_lowestFreeSlot {members : List Member} {limit slot : Nat}
    (h : lowestFreeSlot members limit = some slot) : holdsSlot members slot = false := by
  simpa using List.find?_some h

/-- Only the slot that is handed out is new. -/
theorem slotsUnique_register {m : Membership} (h : SlotsUnique m.members) (address : String) :
    SlotsUnique (m.register address).members := by
  unfold register
  split
  · next member hadded =>
    obtain ⟨-, -, slot, hfree, rfl⟩ := registration_eq_added_iff.1 hadded
    refine h.append fun slot' hslot' => ?_
    rw [Member.eq_of_slot_sharded hslot']
    exact holdsSlot_of_lowestFreeSlot hfree
  · exact h

/-- **While slots are handed out only by registering, no two members hold one.** -/
theorem slotsUnique_apply {m : Membership} (h : SlotsUnique m.members) {a : MembershipAction}
    (ha : ∀ member, a ≠ .upsert member) : SlotsUnique (m.apply a).members := by
  cases a with
  | register address => exact slotsUnique_register h address
  | deregister | remove => exact h.filter _
  | upsert member => exact absurd rfl (ha member)
  | setStatus id status => exact slotsUnique_updateFirst h fun _ _ => rfl
  | setUnavailable => exact h

end Membership

end FleetSharding
