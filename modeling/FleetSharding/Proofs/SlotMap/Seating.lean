import FleetSharding.Proofs.SlotMap.Survivors

/-!
# The order in which members are listed

The last of several members with one slot takes it, so in general the layout depends on the order of
the list.  While no two members claim one slot of the cluster, it does not: who ends up with a slot
is then the only one who claims it.

* `SeatsUnique`: no two members with the marker claim one slot of the cluster.
* `SeatsUnique.holder?_eq_some_iff`: who ends up with a slot is who claims it.
* `IsLayout.eq_of_failed_eq`: a layout is known by its failed slots.
* `SeatsUnique.ofMembers_perm`, `healthyCount_perm`: what does not depend on the order.
-/

namespace FleetSharding

/-- The healthy members are as many in any order. -/
theorem healthyCount_perm {members members' : List Member} (h : members.Perm members') :
    healthyCount members = healthyCount members' :=
  (h.filter Member.isHealthyShard).length_eq

namespace SlotMap

/-- Two members with the marker claim one slot of the cluster. -/
def Clash (size : Nat) (a b : Member) : Prop :=
  a.isShardEnabled = true ∧ b.isShardEnabled = true ∧
    ∃ slot < size, a.slot = some slot ∧ b.slot = some slot

/-- No two members with the marker claim one slot of the cluster.  Ids that are not those of its
slots may occur any number of times, and members without the marker may have any id. -/
def SeatsUnique (size : Nat) (members : List Member) : Prop :=
  members.Pairwise fun a b => ¬ Clash size a b

instance (size : Nat) (a b : Member) : Decidable (Clash size a b) :=
  inferInstanceAs (Decidable (_ ∧ _ ∧ _))

instance (size : Nat) (members : List Member) : Decidable (SeatsUnique size members) :=
  inferInstanceAs (Decidable (List.Pairwise _ _))

variable {size slot : Nat} {members members' : List Member}

/-- Two members clash with each other. -/
theorem Clash.symm {a b : Member} (h : Clash size a b) : Clash size b a := by
  obtain ⟨ha, hb, slot, hslot, hslota, hslotb⟩ := h
  exact ⟨hb, ha, slot, hslot, hslotb, hslota⟩

/-- Whether slots are claimed twice does not depend on the order. -/
theorem SeatsUnique.perm (h : SeatsUnique size members) (hperm : members.Perm members') :
    SeatsUnique size members' :=
  (hperm.pairwise_iff fun hnot hclash => hnot hclash.symm).1 h

/-- Whoever ends up with a slot claims it. -/
theorem claims_of_holder? {m : Member} (h : holder? slot members = some m) :
    m ∈ members ∧ m.isShardEnabled = true ∧ m.slot = some slot := by
  induction members with
  | nil => cases h
  | cons first later ih =>
      rw [holder?, Option.or_eq_some_iff] at h
      rcases h with hlater | ⟨-, hfirst⟩
      · obtain ⟨hmem, hclaims⟩ := ih hlater
        exact ⟨List.mem_cons_of_mem _ hmem, hclaims⟩
      · split at hfirst
        · next hclaims =>
          cases hfirst
          rw [Bool.and_eq_true, beq_iff_eq] at hclaims
          exact ⟨List.mem_cons_self, hclaims⟩
        · cases hfirst

/-- **Who ends up with a slot is who claims it**, if no slot is claimed twice. -/
theorem SeatsUnique.holder?_eq_some_iff (h : SeatsUnique size members) (hslot : slot < size)
    {m : Member} :
    holder? slot members = some m ↔
      m ∈ members ∧ m.isShardEnabled = true ∧ m.slot = some slot := by
  refine ⟨claims_of_holder?, ?_⟩
  intro hparts
  obtain ⟨hmem, hmarked, hclaims⟩ := hparts
  have hsome : (holder? slot members).isSome = true :=
    holder?_isSome_iff.2 ⟨m, hmem, hmarked, hclaims⟩
  obtain ⟨other, hother⟩ := Option.isSome_iff_exists.1 hsome
  obtain ⟨hmem', hmarked', hclaims'⟩ := claims_of_holder? hother
  -- Two different holders would be a clash.
  by_cases hsame : other = m
  · rw [hother, hsame]
  · have hsymm : Std.Symm fun a b : Member => ¬ Clash size a b :=
      ⟨fun _ _ hnot hclash => hnot hclash.symm⟩
    exact absurd ⟨hmarked', hmarked, slot, hslot, hclaims', hclaims⟩
      (List.Pairwise.forall h hmem' hmem hsame)

/-- Who ends up with a slot does not depend on the order. -/
theorem SeatsUnique.holder?_perm (h : SeatsUnique size members) (hperm : members.Perm members')
    (hslot : slot < size) : holder? slot members = holder? slot members' := by
  refine Option.ext fun m => ?_
  rw [h.holder?_eq_some_iff hslot, (h.perm hperm).holder?_eq_some_iff hslot, hperm.mem_iff]

/-- A layout is known by its failed slots. -/
theorem IsLayout.eq_of_failed_eq {s s' : SlotMap} (h : s.IsLayout) (h' : s'.IsLayout)
    (hsize : s.size = s'.size) (hfailed : s.failed = s'.failed) : s = s' := by
  obtain ⟨size, failed, indices⟩ := s
  obtain ⟨size', failed', indices'⟩ := s'
  obtain rfl : size = size' := hsize
  obtain rfl : failed = failed' := hfailed
  have hindices : indices = indices' := h.indices_eq.trans h'.indices_eq.symm
  rw [hindices]

/-- **The layout does not depend on the order of the list**, if no slot is claimed twice. -/
theorem SeatsUnique.ofMembers_perm (h : SeatsUnique size members)
    (hperm : members.Perm members') : ofMembers size members = ofMembers size members' := by
  refine (ofMembers_isLayout size members).eq_of_failed_eq (ofMembers_isLayout size members') ?_ ?_
  · rw [size_ofMembers, size_ofMembers]
  · rw [ofMembers_eq, ofMembers_eq]
    refine List.filter_congr fun slot hslot => ?_
    have hlt : slot < size := List.mem_range.1 hslot
    rw [isPassing_eq_holder? hlt, isPassing_eq_holder? hlt, h.holder?_perm hperm hlt]

end SlotMap

end FleetSharding
