import FleetSharding.Proofs.SlotMap.Ownership
import Mathlib.Data.Int.CardIntervalMod
import Mathlib.Algebra.BigOperators.Ring.Finset

/-!
# How orphaned keys spread over the survivors

A key of a failed slot goes to a survivor by its remainder modulo their number, while its home is
its remainder modulo the number of slots.  The two remainders depend on each other as far as the two
moduli have a common divisor `g`: a survivor inherits from those failed slots only whose number has
the remainder of its own number modulo `g`, and from each of these `g` keys in a period.

* `count_mod_eq_and_mod_eq`: how many numbers have two given remainders.
* `IsLayout.inherited_eq`: how many keys a survivor inherits.
* `inherited_evenly_iff`: the survivors inherit equally much exactly if the failed slots are spread
  evenly over the remainders modulo `g`, so always if the number of failed slots has no divisor in
  common with the number of slots.
* `exists_inherited_unevenly`: else one survivor may inherit everything.
-/

namespace FleetSharding

/-- **The numbers with two given remainders**: in a period of both moduli they are as many as the
greatest common divisor, if the remainders agree modulo that, and else there are none. -/
theorem count_mod_eq_and_mod_eq {n m a b : Nat} (ha : a < n) (hb : b < m) :
    Nat.count (fun k => k % n = a ∧ k % m = b) (n * m) =
      if a % n.gcd m = b % n.gcd m then n.gcd m else 0 := by
  have hpos : 0 < n.lcm m := Nat.lcm_pos (by omega) (by omega)
  split
  · next hagree =>
    obtain ⟨c, hca, hcb⟩ := Nat.chineseRemainder' hagree
    have hcn : c % n = a := Eq.trans hca (Nat.mod_eq_of_lt ha)
    have hcm : c % m = b := Eq.trans hcb (Nat.mod_eq_of_lt hb)
    have hsame : ∀ k, (k % n = a ∧ k % m = b) ↔ k ≡ c [MOD n.lcm m] := by
      intro k
      rw [← hcn, ← hcm]
      constructor
      · intro hparts
        exact Nat.mod_lcm hparts.1 hparts.2
      · intro hmod
        exact ⟨hmod.of_dvd (Nat.dvd_lcm_left n m), hmod.of_dvd (Nat.dvd_lcm_right n m)⟩
    have hperiod : n * m = n.gcd m * n.lcm m := (Nat.gcd_mul_lcm n m).symm
    simp only [hsame]
    rw [Nat.count_modEq_card _ hpos, hperiod, Nat.mul_div_cancel _ hpos, Nat.mul_mod_left,
      if_neg (Nat.not_lt_zero _), Nat.add_zero]
  · next hdiffer =>
    rw [Nat.count_eq_card_filter_range, Finset.card_eq_zero, Finset.filter_eq_empty_iff]
    intro k _ hparts
    obtain ⟨rfl, rfl⟩ := hparts
    exact hdiffer (by rw [Nat.mod_mod_of_dvd k (Nat.gcd_dvd_left n m),
      Nat.mod_mod_of_dvd k (Nat.gcd_dvd_right n m)])

/-- The numbers with one of several remainders, and another modulo a second number. -/
theorem count_mod_mem_and_mod_eq {n m t : Nat} {homes : List Nat} (hnodup : homes.Nodup)
    (hlt : ∀ a ∈ homes, a < n) (ht : t < m) :
    Nat.count (fun k => k % n ∈ homes ∧ k % m = t) (n * m) =
      n.gcd m * homes.countP (· % n.gcd m = t % n.gcd m) := by
  induction homes with
  | nil => simp [Nat.count_false]
  | cons a homes ih =>
      obtain ⟨hfresh, hnodup⟩ := List.nodup_cons.1 hnodup
      have hrest := ih hnodup fun b hb => hlt b (List.mem_cons_of_mem _ hb)
      have hfirst := count_mod_eq_and_mod_eq (hlt a List.mem_cons_self) ht
      -- No number has two remainders, so the counts add up.
      have hdisjoint : ∀ k, (k % n = a ∧ k % m = t) → ¬(k % n ∈ homes ∧ k % m = t) := by
        intro k hk hk'
        exact hfresh (hk.1 ▸ hk'.1)
      have hsplit : Nat.count (fun k => k % n ∈ a :: homes ∧ k % m = t) (n * m) =
          Nat.count (fun k => k % n = a ∧ k % m = t) (n * m) +
            Nat.count (fun k => k % n ∈ homes ∧ k % m = t) (n * m) := by
        simp only [Nat.count_eq_card_filter_range]
        rw [← Finset.card_union_of_disjoint
          (Finset.disjoint_filter.2 fun k _ => hdisjoint k), ← Finset.filter_or]
        simp only [List.mem_cons, or_and_right]
      rw [hsplit, hfirst, hrest, List.countP_cons, Nat.mul_add, Nat.add_comm]
      by_cases hagree : a % n.gcd m = t % n.gcd m <;> simp [hagree]

namespace SlotMap

/-- How many keys of failed slots end up with a slot, in one period of the number of slots and that
of survivors. -/
def inherited (s : SlotMap) (id : Nat) : Nat :=
  Nat.count (fun key => s.isFailed (key % s.size) = true ∧ s.ownerOf key = some id)
    (s.size * s.survivors)

/-- How many failed slots have a remainder. -/
def failedAt (s : SlotMap) (modulus remainder : Nat) : Nat :=
  s.failed.countP (· % modulus = remainder)

namespace IsLayout

variable {s : SlotMap} {id : Nat}

/-- What the slots and the survivors have in common, the slots and the failed slots have. -/
theorem gcd_survivors (h : s.IsLayout) :
    s.size.gcd s.survivors = s.size.gcd s.failed.length := by
  have hle : s.failed.length ≤ s.size := h.length_failed_le
  rw [survivors, Nat.gcd_self_sub_right hle]

/-- A survivor inherits the keys of failed slots that have its rank as their remainder. -/
theorem inherits_iff (h : s.IsLayout) (hsize : 0 < s.size) (hid : id < s.size ∧ id ∉ s.failed)
    {key : Nat} :
    (s.isFailed (key % s.size) = true ∧ s.ownerOf key = some id) ↔
      key % s.size ∈ s.failed ∧ key % s.survivors = s.rank id := by
  have hhome : key % s.size < s.size := Nat.mod_lt _ hsize
  rw [h.isFailed_iff, h.ownerOf_eq_some_iff, or_iff_right (by omega)]
  constructor
  · intro hparts
    obtain ⟨hfailed, -, hhomeEq | ⟨-, hrank⟩⟩ := hparts
    · exact absurd (hhomeEq ▸ hfailed) hid.2
    · exact ⟨hfailed, hrank⟩
  · intro hparts
    exact ⟨hparts.1, hid, Or.inr hparts⟩

/-- **What a survivor inherits**: as many keys of each failed slot as the common divisor says, if
the slot and the survivor's rank agree modulo that, and none of the others. -/
theorem inherited_eq (h : s.IsLayout) (hid : id < s.size ∧ id ∉ s.failed) :
    s.inherited id =
      s.size.gcd s.failed.length * s.failedAt (s.size.gcd s.failed.length)
        (s.rank id % s.size.gcd s.failed.length) := by
  have hsize : 0 < s.size := by omega
  have hrank : s.rank id < s.survivors := h.rank_lt hid.1 hid.2
  rw [inherited, failedAt, ← h.gcd_survivors]
  simp only [h.inherits_iff hsize hid]
  rw [count_mod_mem_and_mod_eq h.nodup h.failed_lt hrank]

/-- Every remainder modulo the common divisor is that of a survivor's rank. -/
theorem exists_rank_mod_eq (h : s.IsLayout) (hsome : 0 < s.survivors) {r : Nat}
    (hr : r < s.size.gcd s.failed.length) :
    ∃ slot, (slot < s.size ∧ slot ∉ s.failed) ∧
      s.rank slot % s.size.gcd s.failed.length = r := by
  have hle : s.size.gcd s.failed.length ≤ s.survivors := by
    rw [← h.gcd_survivors]
    exact Nat.gcd_le_right _ hsome
  obtain ⟨slot, hlt, hslot, hrank⟩ := h.exists_rank_eq (Nat.lt_of_lt_of_le hr hle)
  exact ⟨slot, ⟨hlt, hslot⟩, by rw [hrank, Nat.mod_eq_of_lt hr]⟩

end IsLayout

/-- **Who inherits how much.**  With `g` the greatest common divisor of the number of slots and the
number of failed slots, a survivor inherits `g` keys in a period from each failed slot that agrees
with the survivor's own number modulo `g`.  So all survivors inherit equally much, as many keys as
slots have failed, exactly if the failed slots are spread evenly over the remainders modulo `g`;
that is so in particular if `g` is one. -/
theorem inherited_evenly_iff (size : Nat) (members : List Member) :
    let s := ofMembers size members
    let g := size.gcd s.failed.length
    (∀ id number, s.mapIndex id = some number →
      s.inherited id = g * s.failedAt g (number % g)) ∧
    (0 < s.survivors →
      ((∀ id, s.isFailed id = false → s.inherited id = s.failed.length) ↔
        ∀ r < g, g * s.failedAt g r = s.failed.length)) ∧
    (g = 1 → ∀ id, s.isFailed id = false → s.inherited id = s.failed.length) := by
  intro s g
  have h : s.IsLayout := ofMembers_isLayout size members
  have hg : s.size.gcd s.failed.length = g := by rw [size_ofMembers size members]
  have heach : ∀ id, id < s.size ∧ id ∉ s.failed →
      s.inherited id = g * s.failedAt g (s.rank id % g) := fun id hid => hg ▸ h.inherited_eq hid
  have heven : (∀ r < g, g * s.failedAt g r = s.failed.length) →
      ∀ id, s.isFailed id = false → s.inherited id = s.failed.length := by
    intro hspread id hid
    have hsurvives : id < s.size ∧ id ∉ s.failed := h.isFailed_eq_false_iff.1 hid
    have hpos : 0 < g := hg ▸ Nat.gcd_pos_of_pos_left _ (by omega)
    rw [heach id hsurvives]
    exact hspread _ (Nat.mod_lt _ hpos)
  refine ⟨?_, ?_, ?_⟩
  · intro id number hnumber
    rw [h.mapIndex_eq] at hnumber
    split at hnumber
    · next hid =>
      cases hnumber
      exact heach id hid
    · cases hnumber
  · intro hsome
    refine ⟨?_, heven⟩
    intro hequal r hr
    obtain ⟨id, hid, hrank⟩ := h.exists_rank_mod_eq hsome (hg.symm ▸ hr)
    rw [← hequal id (h.isFailed_eq_false_iff.2 hid), heach id hid, ← hg, hrank]
  · intro hcoprime
    refine heven fun r hr => ?_
    -- There is but one remainder, and all failed slots have it.
    have hzero : r = 0 := by omega
    have hall : s.failedAt 1 0 = s.failed.length :=
      List.countP_eq_length.2 fun slot _ => by simp [Nat.mod_one]
    rw [hcoprime, hzero, hall, Nat.one_mul]

/-- Of four slots two that stand side by side have failed: the survivors inherit equally much,
though two and four have a divisor in common.  Of three slots one has failed, and nothing is in
common. -/
theorem inherited_evenly_of_neighbours :
    let s := ofMembers 4 [.sharded 2 "c", .sharded 3 "d"]
    let t := ofMembers 3 [.sharded 0 "a", .sharded 2 "c"]
    (s.mapIndex 3 = some 1 ∧ s.inherited 3 = 2 * s.failedAt 2 1) ∧
    (0 < s.survivors ∧ (∀ r < 2, 2 * s.failedAt 2 r = s.failed.length) ∧
      ∀ id, s.isFailed id = false → s.inherited id = s.failed.length) ∧
    Nat.gcd 3 t.failed.length = 1 ∧ t.isFailed 2 = false ∧ t.inherited 2 = t.failed.length := by
  intro s t
  obtain ⟨heach, heven, -⟩ := inherited_evenly_iff 4 [.sharded 2 "c", .sharded 3 "d"]
  obtain ⟨-, -, hcoprime⟩ := inherited_evenly_iff 3 [.sharded 0 "a", .sharded 2 "c"]
  have hnumber : s.mapIndex 3 = some 1 := by decide +kernel
  have hsome : 0 < s.survivors := by decide +kernel
  have hspread : ∀ r < 2, 2 * s.failedAt 2 r = s.failed.length := by decide +kernel
  have hone : Nat.gcd 3 t.failed.length = 1 := by decide +kernel
  have hsurvives : t.isFailed 2 = false := by decide +kernel
  exact ⟨⟨hnumber, heach 3 1 hnumber⟩, ⟨hsome, hspread, (heven hsome).2 hspread⟩, hone, hsurvives,
    hcoprime hone 2 hsurvives⟩

/-- Of four slots every other has failed: all their keys are even, so they all go to the first
survivor, and the second inherits nothing. -/
theorem exists_inherited_unevenly :
    ∃ (size : Nat) (members : List Member),
      let s := ofMembers size members
      1 ≤ s.failed.length ∧ 1 ≤ s.survivors ∧ size * s.survivors ≤ Nat.pow 2 32 ∧
        s.isFailed 1 = false ∧ s.isFailed 3 = false ∧
          s.inherited 1 = 2 * s.failed.length ∧ s.inherited 3 = 0 :=
  ⟨4, [.sharded 1 "b", .sharded 3 "d"], by decide +kernel⟩

end SlotMap

end FleetSharding
