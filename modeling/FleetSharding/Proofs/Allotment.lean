import FleetSharding.Proofs.Membership

/-!
# How slots are handed out

A node that registers is given the lowest slot that nobody holds.  As long as every id is a number
in canonical digits, so that members with one slot have one id, no run of actions on the membership
leads to two members with one slot, though members are looked up by their ids in some actions, by
their addresses in others, and by their slots in a third kind.

* `freeSlotFrom_eq_some_iff`, `freeSlotFrom_eq_none_iff`: the first slot that nobody holds, from
  some slot on.
* `Allotted`, `allotted_apply`: ids are canonical and slots unique, and every action keeps it.
* `Membership.lowest_free_slot_is_handed_out`: what registering comes to after any run of actions.
  -/

namespace FleetSharding

/-- A slot is held by a member. -/
theorem holdsSlot_iff {members : List Member} {slot : Nat} :
    holdsSlot members slot = true ↔ ∃ m ∈ members, m.slot = some slot := by
  simp [holdsSlot]

/-- A slot that is not held is nobody's. -/
theorem holdsSlot_eq_false_iff {members : List Member} {slot : Nat} :
    holdsSlot members slot = false ↔ ∀ m ∈ members, m.slot ≠ some slot := by
  simp [holdsSlot]

section FreeSlot

variable {members : List Member} {start limit slot : Nat}

/-- Of one slot more than there are members, one is free, wherever one begins to look. -/
theorem exists_free (members : List Member) (start : Nat) :
    ∃ slot, start ≤ slot ∧ slot < start + (members.length + 1) ∧
      holdsSlot members slot = false := by
  by_contra hfull
  have hall : List.range' start (members.length + 1) ⊆ members.filterMap Member.slot := by
    intro slot hslot
    obtain ⟨hfirst, hlast⟩ := List.mem_range'_1.1 hslot
    have hheld : holdsSlot members slot = true := by
      by_contra hfree
      exact hfull ⟨slot, hfirst, hlast, Bool.eq_false_iff.2 hfree⟩
    exact List.mem_filterMap.2 (holdsSlot_iff.1 hheld)
  have hmany : members.length + 1 ≤ (members.filterMap Member.slot).length := by
    simpa using (List.nodup_range' 1).length_le_of_subset hall
  have hfew := List.length_filterMap_le Member.slot members
  omega

/-- Whoever looks from some slot on finds the first one below the limit that nobody holds: it is no
further than there are members. -/
theorem freeSlotFrom_eq_some_iff :
    freeSlotFrom members start limit = some slot ↔
      start ≤ slot ∧ slot < limit ∧ holdsSlot members slot = false ∧
        ∀ other, start ≤ other → other < slot → holdsSlot members other = true := by
  rw [freeSlotFrom, List.find?_range'_eq_some, List.mem_range'_1]
  simp only [Bool.not_eq_true', Bool.not_not]
  constructor
  · intro hparts
    obtain ⟨hfree, ⟨hfirst, hlt⟩, hbelow⟩ := hparts
    exact ⟨hfirst, by omega, hfree, hbelow⟩
  · intro hparts
    obtain ⟨hfirst, hlt, hfree, hbelow⟩ := hparts
    refine ⟨hfree, ⟨hfirst, ?_⟩, hbelow⟩
    obtain ⟨next, hnext, hlast, hnextFree⟩ := exists_free members start
    have hle : slot ≤ next := by
      by_contra hgt
      have hheld := hbelow next hnext (by omega)
      exact Bool.false_ne_true (hnextFree.symm.trans hheld)
    omega

/-- None is found exactly if all from there up to the limit are held. -/
theorem freeSlotFrom_eq_none_iff :
    freeSlotFrom members start limit = none ↔
      ∀ slot, start ≤ slot → slot < limit → holdsSlot members slot = true := by
  rw [freeSlotFrom, List.find?_eq_none]
  simp only [List.mem_range'_1, Bool.not_eq_true', Bool.not_eq_false]
  constructor
  · intro hfull slot hfirst hslot
    refine hfull slot ⟨hfirst, ?_⟩
    obtain ⟨next, hnext, hlast, hnextFree⟩ := exists_free members start
    have hlow : limit ≤ next := by
      by_contra hgt
      exact Bool.false_ne_true (hnextFree.symm.trans (hfull next ⟨hnext, by omega⟩))
    omega
  · intro hfull slot hslot
    exact hfull slot hslot.1 (by omega)

/-- The lowest slot that nobody holds. -/
theorem lowestFreeSlot_eq_some_iff :
    lowestFreeSlot members limit = some slot ↔
      slot < limit ∧ holdsSlot members slot = false ∧
        ∀ other < slot, holdsSlot members other = true := by
  rw [lowestFreeSlot, freeSlotFrom_eq_some_iff]
  simp

/-- No slot is free exactly if every one is held. -/
theorem lowestFreeSlot_eq_none_iff :
    lowestFreeSlot members limit = none ↔ ∀ slot < limit, holdsSlot members slot = true := by
  rw [lowestFreeSlot, freeSlotFrom_eq_none_iff]
  simp

end FreeSlot

/-- The id of a member is a number in canonical digits. -/
def Member.HasCanonicalId (m : Member) : Prop := ∃ n : Nat, m.id = toString n

/-- A canonical id is known by the slot that it names. -/
theorem Member.HasCanonicalId.id_eq {m : Member} (h : m.HasCanonicalId) {slot : Nat}
    (hslot : m.slot = some slot) : m.id = toString slot := by
  obtain ⟨n, hn⟩ := h
  have hsharded : (Member.sharded n m.address).slot = some slot := by
    rw [← hslot, Member.slot, Member.slot, hn]
    rfl
  rw [Member.eq_of_slot_sharded hsharded, hn]

/-- All ids are canonical, and no two members hold one slot. -/
structure Allotted (members : List Member) : Prop where
  canonical : ∀ m ∈ members, m.HasCanonicalId
  unique : SlotsUnique members

/-- Canonical ids that differ are different slots. -/
theorem allotted_of_nodup {members : List Member} (hcanonical : ∀ m ∈ members, m.HasCanonicalId)
    (hdistinct : (members.map Member.id).Nodup) : Allotted members := by
  refine ⟨hcanonical, ?_⟩
  rw [SlotsUnique, List.Nodup, List.pairwise_filterMap]
  refine (List.pairwise_map.1 hdistinct).imp_of_mem ?_
  intro a b ha hb hids slot hslota slot' hslotb heq
  subst heq
  exact hids (((hcanonical a ha).id_eq hslota).trans ((hcanonical b hb).id_eq hslotb).symm)

namespace Membership

/-- Whoever is in the list after a change was there before, or is what the change made of one. -/
theorem mem_updateFirst {α : Type} {p : α → Bool} {f : α → α} {l : List α} {a : α}
    (h : a ∈ updateFirst p f l) : a ∈ l ∨ ∃ b ∈ l, p b = true ∧ a = f b := by
  induction l with
  | nil => cases h
  | cons b l ih =>
      rw [updateFirst] at h
      split at h
      · next hb =>
        rcases List.mem_cons.1 h with rfl | hmem
        · exact Or.inr ⟨b, List.mem_cons_self, hb, rfl⟩
        · exact Or.inl (List.mem_cons_of_mem _ hmem)
      · rcases List.mem_cons.1 h with rfl | hmem
        · exact Or.inl List.mem_cons_self
        · rcases ih hmem with hmem | ⟨c, hc, hchange⟩
          · exact Or.inl (List.mem_cons_of_mem _ hmem)
          · exact Or.inr ⟨c, List.mem_cons_of_mem _ hc, hchange⟩

variable {m : Membership} {address : String} {member : Member}

/-- A member with a canonical id takes the place of the one with its slot, or a slot that nobody
holds. -/
theorem slotsUnique_upsert (h : Allotted m.members) (hmember : member.HasCanonicalId) :
    SlotsUnique (m.upsert member).members := by
  unfold upsert
  split
  · refine slotsUnique_updateFirst h.unique fun other hother => ?_
    rw [beq_iff_eq] at hother
    rw [Member.slot, Member.slot, hother]
  · next hnew =>
    refine h.unique.append fun slot hslot => ?_
    rw [holdsSlot_eq_false_iff]
    intro other hother hheld
    have hid : other.id = member.id :=
      ((h.canonical other hother).id_eq hheld).trans (hmember.id_eq hslot).symm
    exact hnew (List.any_eq_true.2 ⟨other, hother, beq_iff_eq.2 hid⟩)

/-- **Every action keeps ids canonical and slots unique**, if the members that are put in have
canonical ids. -/
theorem allotted_apply (h : Allotted m.members) {a : MembershipAction}
    (ha : ∀ member, a = .upsert member → member.HasCanonicalId) :
    Allotted (m.apply a).members := by
  cases a with
  | register address =>
      refine ⟨?_, slotsUnique_register h.unique address⟩
      show ∀ other ∈ (m.register address).members, other.HasCanonicalId
      unfold register
      split
      · next hadded =>
        obtain ⟨-, -, slot, -, rfl⟩ := registration_eq_added_iff.1 hadded
        intro other hother
        rcases List.mem_append.1 hother with hother | hother
        · exact h.canonical other hother
        · obtain rfl := List.mem_singleton.1 hother
          exact ⟨slot, rfl⟩
      · exact h.canonical
  | deregister | remove =>
      exact ⟨fun other hother => h.canonical other (List.mem_of_mem_filter hother),
        h.unique.filter _⟩
  | upsert member =>
      have hmember : member.HasCanonicalId := ha member rfl
      refine ⟨?_, slotsUnique_upsert h hmember⟩
      show ∀ other ∈ (m.upsert member).members, other.HasCanonicalId
      unfold upsert
      split
      · intro other hother
        rcases mem_updateFirst hother with hother | ⟨-, -, -, rfl⟩
        · exact h.canonical other hother
        · exact hmember
      · intro other hother
        rcases List.mem_append.1 hother with hother | hother
        · exact h.canonical other hother
        · obtain rfl := List.mem_singleton.1 hother
          exact hmember
  | setStatus id status =>
      refine ⟨?_, slotsUnique_updateFirst h.unique fun _ _ => rfl⟩
      intro other hother
      rcases mem_updateFirst hother with hother | ⟨before, hbefore, -, rfl⟩
      · exact h.canonical other hother
      · exact h.canonical before hbefore
  | setUnavailable => exact h

/-- The limit never changes. -/
theorem limit_apply (m : Membership) (a : MembershipAction) : (m.apply a).limit = m.limit := by
  cases a with
  | register address =>
      simp only [apply, register]
      split <;> rfl
  | upsert member =>
      simp only [apply, upsert]
      split <;> rfl
  | _ => rfl

/-- After any run of actions ids are canonical and slots unique. -/
theorem allotted_foldl {actions : List MembershipAction}
    (hupserts : ∀ member, .upsert member ∈ actions → member.HasCanonicalId)
    (h : Allotted m.members) :
    Allotted (actions.foldl apply m).members ∧ (actions.foldl apply m).limit = m.limit := by
  induction actions generalizing m with
  | nil => exact ⟨h, rfl⟩
  | cons a actions ih =>
      have hnext : Allotted (m.apply a).members := by
        refine allotted_apply h ?_
        rintro member rfl
        exact hupserts member List.mem_cons_self
      obtain ⟨hallotted, hlimit⟩ :=
        ih (fun member hmem => hupserts member (List.mem_cons_of_mem _ hmem)) hnext
      exact ⟨hallotted, hlimit.trans (limit_apply m a)⟩

/-- An address that is listed is found as long as the membership is available. -/
theorem registration_eq_listed_iff :
    m.registration address = .listed member ↔
      m.available = true ∧ m.at? address = some member := by
  unfold registration
  cases m.available <;> cases m.at? address <;> cases lowestFreeSlot m.members m.limit <;> simp

/-- Registering fails without the membership, and when a new address finds no free slot. -/
theorem exists_registration_eq_refused_iff :
    (∃ e, m.registration address = .refused e) ↔
      m.available = false ∨
        (m.at? address = none ∧ lowestFreeSlot m.members m.limit = none) := by
  unfold registration
  cases m.available <;> cases m.at? address <;> cases lowestFreeSlot m.members m.limit <;> simp

/-- Unless a member is added nothing changes, and no watcher hears of anything. -/
theorem act_register_eq_self (h : ∀ member, m.registration address ≠ .added member)
    (watchers : List Signal) :
    WatchedMembership.act ⟨m, watchers⟩ (.register address) = ⟨m, watchers⟩ := by
  have hsilent : m.signals (.register address) = false := by
    unfold signals
    dsimp only
    split
    · next member hadded => exact absurd hadded (h member)
    · rfl
  have hsame : m.apply (.register address) = m := by
    unfold apply register
    dsimp only
    split
    · next member hadded => exact absurd hadded (h member)
    · rfl
  rw [WatchedMembership.act, hsilent, hsame]
  rfl

/-- **What registering comes to.**  The members start with canonical ids that differ, and then any
number of actions happen, which may put in further members with canonical ids.  After that no two
members hold one slot.  Registering an address adds a member only with the lowest slot below the
limit that nobody holds; an address that is listed is answered with its first record; and
registering fails exactly if the membership is not available, or the address is not listed and every
slot below the limit is held.  In the last two cases nothing changes, the signals to the watchers
included. -/
theorem lowest_free_slot_is_handed_out {limit : Nat} {members : List Member}
    (hcanonical : ∀ m ∈ members, m.HasCanonicalId) (hdistinct : (members.map Member.id).Nodup)
    {actions : List MembershipAction}
    (hupserts : ∀ member, .upsert member ∈ actions → member.HasCanonicalId) :
    let m := actions.foldl apply (ofMembers limit members)
    SlotsUnique m.members ∧
      ∀ address,
        (∀ member, m.registration address = .added member →
          ∃ slot < limit, member = .sharded slot address ∧
            (limit ≤ Text.wordBound → member.slot = some slot) ∧
            (m.register address).members = m.members ++ [member] ∧
            (∀ other ∈ m.members, other.slot ≠ some slot) ∧
            ∀ lower < slot, ∃ other ∈ m.members, other.slot = some lower) ∧
        (∀ member, m.available = true → m.at? address = some member →
          m.registration address = .listed member ∧
            ∀ watchers, WatchedMembership.act ⟨m, watchers⟩ (.register address) = ⟨m, watchers⟩) ∧
        ((∃ e, m.registration address = .refused e) ↔
          m.available = false ∨ (m.at? address = none ∧
            ∀ slot < limit, ∃ other ∈ m.members, other.slot = some slot)) ∧
        ∀ e, m.registration address = .refused e →
          ∀ watchers, WatchedMembership.act ⟨m, watchers⟩ (.register address) = ⟨m, watchers⟩ := by
  intro m
  obtain ⟨hallotted, hlimit⟩ :=
    allotted_foldl hupserts (m := ofMembers limit members) (allotted_of_nodup hcanonical hdistinct)
  have hm : m.limit = limit := hlimit
  refine ⟨hallotted.unique, fun address => ⟨?_, ?_, ?_, ?_⟩⟩
  · intro member hadded
    have hregister : (m.register address).members = m.members ++ [member] := by
      rw [register, hadded]
    obtain ⟨-, -, slot, hfree, rfl⟩ := registration_eq_added_iff.1 hadded
    rw [hm] at hfree
    obtain ⟨hlt, hnobody, hlowest⟩ := lowestFreeSlot_eq_some_iff.1 hfree
    exact ⟨slot, hlt, rfl, fun hbound => Member.slot_sharded (by omega) address, hregister,
      holdsSlot_eq_false_iff.1 hnobody, fun lower hlower => holdsSlot_iff.1 (hlowest lower hlower)⟩
  · intro member havailable hlisted
    have hfound := registration_eq_listed_iff.2 ⟨havailable, hlisted⟩
    exact ⟨hfound, act_register_eq_self (by simp [hfound])⟩
  · rw [exists_registration_eq_refused_iff, hm, lowestFreeSlot_eq_none_iff]
    simp only [holdsSlot_iff]
  · intro e hrefused
    exact act_register_eq_self (by simp [hrefused])

/-- Of three slots two are held at first.  One of them passes to another address, and the other is
given up; the next node is refused while the membership is not available, and then given the
slot. -/
theorem lowest_free_slot_of_three :
    let members := [Member.sharded 0 "a", .sharded 2 "c"]
    let actions : List MembershipAction :=
      [.upsert { Member.sharded 2 "x" with status := .critical }, .deregister "a",
        .setUnavailable true, .register "b", .setUnavailable false]
    let m := actions.foldl apply (ofMembers 3 members)
    (∀ m ∈ members, m.HasCanonicalId) ∧ (members.map Member.id).Nodup ∧
      (∀ member, .upsert member ∈ actions → member.HasCanonicalId) ∧ SlotsUnique m.members ∧
      m.registration "b" = .added (.sharded 0 "b") ∧
      (m.register "b").members = m.members ++ [.sharded 0 "b"] ∧
      (∀ other ∈ m.members, other.slot ≠ some 0) ∧
      ∀ watchers, WatchedMembership.act ⟨m, watchers⟩ (.register "x") = ⟨m, watchers⟩ := by
  intro members actions m
  have hcanonical : ∀ m ∈ members, m.HasCanonicalId := by
    intro m hm
    rcases List.mem_pair.1 hm with rfl | rfl
    · exact ⟨0, rfl⟩
    · exact ⟨2, rfl⟩
  have hdistinct : (members.map Member.id).Nodup := by decide +kernel
  have hupserts : ∀ member, .upsert member ∈ actions → member.HasCanonicalId := by
    intro member hmem
    obtain rfl : member = { Member.sharded 2 "x" with status := .critical } := by
      simpa [actions] using hmem
    exact ⟨2, rfl⟩
  have hadded : m.registration "b" = .added (.sharded 0 "b") :=
    registration_eq_added_iff.2
      ⟨by decide +kernel, by decide +kernel, 0, by decide +kernel, rfl⟩
  obtain ⟨hunique, hregisters⟩ : SlotsUnique m.members ∧ _ :=
    lowest_free_slot_is_handed_out hcanonical hdistinct hupserts
  obtain ⟨hadds, -⟩ := hregisters "b"
  obtain ⟨slot, -, -, hread, hregister, hnobody, -⟩ := hadds _ hadded
  have hzero : slot = 0 := Option.some.inj
    ((hread (by decide)).symm.trans (Member.slot_sharded (by decide) "b"))
  obtain ⟨-, hlisted, -⟩ := hregisters "x"
  obtain ⟨-, hsame⟩ := hlisted { Member.sharded 2 "x" with status := .critical }
    (by decide +kernel) (by decide +kernel)
  subst hzero
  exact ⟨hcanonical, hdistinct, hupserts, hunique, hadded, hregister, hnobody, hsame⟩

end Membership

end FleetSharding
