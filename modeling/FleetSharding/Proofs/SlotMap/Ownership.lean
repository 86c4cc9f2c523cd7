import FleetSharding.Proofs.SlotMap.Layout

/-!
# Who collects a device

Three definitions say which slot collects a device: the claim of the main shard, the claim of the
takeover and the look-up of the owner.  Each is turned here into a condition on the failed slots and
the ranks; that they agree is then the bijection between survivors and ranks.

* `mainShard_eq_true_iff`, `IsLayout.takeover_eq_true_iff`, `IsLayout.ownerOf_eq_some_iff`: the
  three conditions.
* `claimed_by_exactly_one`: while a slot survives, exactly one survivor claims a device, the owner.
-/

namespace FleetSharding

/-- A main shard claims the devices at home in its slot. -/
theorem mainShard_eq_true_iff {id size : Nat} {d : Device} :
    mainShard id size d = true ↔ size ≠ 0 ∧ d.key % size = id := by
  simp [mainShard]

namespace SlotMap

namespace IsLayout

variable {s : SlotMap}

/-- A takeover claims orphaned devices whose key falls to the slot's rank; only survivors take
over. -/
theorem takeover_eq_true_iff (h : s.IsLayout) {id : Nat} {d : Device} :
    s.takeover id d = true ↔
      (id < s.size ∧ id ∉ s.failed) ∧ d.key % s.size ∈ s.failed ∧
        d.key % s.survivors = s.rank id := by
  unfold takeover
  rw [h.mapIndex_eq]
  by_cases hid : id < s.size ∧ id ∉ s.failed
  · simp [hid]
  · simp [hid]

/-- The look-up among the numbered slots finds the survivor with a rank. -/
theorem findIdx?_eq_some_iff (h : s.IsLayout) {target id : Nat} :
    s.indices.findIdx? (· == some target) = some id ↔
      (id < s.size ∧ id ∉ s.failed) ∧ s.rank id = target := by
  have hlength : s.indices.length = s.size := by
    rw [h.indices_eq, List.length_map, List.length_range]
  have hget : ∀ slot (hslot : slot < s.indices.length),
      (s.indices[slot] == some target) = true ↔ slot ∉ s.failed ∧ s.rank slot = target := by
    intro slot hslot
    simp only [h.indices_eq, List.getElem_map, List.getElem_range]
    by_cases hf : slot ∈ s.failed <;> simp [hf]
  rw [List.findIdx?_eq_some_iff_getElem]
  constructor
  · intro hparts
    obtain ⟨hlt, hid, -⟩ := hparts
    obtain ⟨hsurvives, hrank⟩ := (hget id hlt).1 hid
    exact ⟨⟨hlength ▸ hlt, hsurvives⟩, hrank⟩
  · intro hparts
    obtain ⟨⟨hlt, hsurvives⟩, hrank⟩ := hparts
    refine ⟨hlength.symm ▸ hlt, (hget id _).2 ⟨hsurvives, hrank⟩, ?_⟩
    intro other hother hfound
    obtain ⟨hother', hrank'⟩ := (hget other _).1 hfound
    have : other = id := rank_injOn hother' hsurvives (hrank'.trans hrank.symm)
    omega

/-- The owner of a key is the survivor at home there, or the one to whom the orphaned key falls. -/
theorem ownerOf_eq_some_iff (h : s.IsLayout) {key id : Nat} :
    s.ownerOf key = some id ↔
      (id < s.size ∧ id ∉ s.failed) ∧
        (key % s.size = id ∨ key % s.size ∈ s.failed ∧ key % s.survivors = s.rank id) := by
  unfold ownerOf
  by_cases hsize : s.size = 0
  · simp [hsize]
  · have hhome : key % s.size < s.size := Nat.mod_lt _ (by omega)
    by_cases hfailed : key % s.size ∈ s.failed
    · have hisFailed : s.isFailed (key % s.size) = true := h.isFailed_iff.2 (Or.inr hfailed)
      have hne : ∀ id, id ∉ s.failed → key % s.size ≠ id := fun id hid heq => hid (heq ▸ hfailed)
      by_cases hnone : s.survivors = 0
      · have hno : ¬(id < s.size ∧ id ∉ s.failed) := by
          intro hparts
          obtain ⟨hlt, hsurvives⟩ := hparts
          have := h.rank_lt hlt hsurvives
          omega
        simp [hsize, hisFailed, hnone, hno]
      · simp only [hsize, hisFailed, hnone, if_false, Bool.not_true, Bool.false_eq_true]
        rw [h.findIdx?_eq_some_iff]
        constructor
        · intro hparts
          obtain ⟨hid, hrank⟩ := hparts
          exact ⟨hid, Or.inr ⟨hfailed, hrank.symm⟩⟩
        · intro hparts
          obtain ⟨hid, hhomeEq | ⟨-, hrank⟩⟩ := hparts
          · exact absurd hhomeEq (hne id hid.2)
          · exact ⟨hid, hrank.symm⟩
    · have hisFailed : s.isFailed (key % s.size) = false :=
        h.isFailed_eq_false_iff.2 ⟨hhome, hfailed⟩
      simp only [hsize, hisFailed, if_false, Bool.not_false, if_true, Option.some.injEq]
      constructor
      · intro heq
        subst heq
        exact ⟨⟨hhome, hfailed⟩, Or.inl rfl⟩
      · intro hparts
        obtain ⟨-, hid | ⟨hcontra, -⟩⟩ := hparts
        · exact hid
        · exact absurd hcontra hfailed

/-- A key has an owner while a slot survives. -/
theorem exists_ownerOf (h : s.IsLayout) {slot : Nat} (hslot : s.isFailed slot = false) (key : Nat) :
    ∃ id, s.ownerOf key = some id := by
  obtain ⟨hlt, hsurvives⟩ := h.isFailed_eq_false_iff.1 hslot
  by_cases hfailed : key % s.size ∈ s.failed
  · have hpos : 0 < s.survivors := Nat.lt_of_le_of_lt (Nat.zero_le _) (h.rank_lt hlt hsurvives)
    obtain ⟨id, hid, hidFailed, hrank⟩ := h.exists_rank_eq (Nat.mod_lt key hpos)
    exact ⟨id, h.ownerOf_eq_some_iff.2 ⟨⟨hid, hidFailed⟩, Or.inr ⟨hfailed, hrank.symm⟩⟩⟩
  · have hhome : key % s.size < s.size := Nat.mod_lt _ (by omega)
    exact ⟨key % s.size, h.ownerOf_eq_some_iff.2 ⟨⟨hhome, hfailed⟩, Or.inl rfl⟩⟩

/-- The surviving claimant of a device is its owner. -/
theorem claims_iff_ownerOf (h : s.IsLayout) {id : Nat} {d : Device} :
    (id < s.size ∧ id ∉ s.failed) ∧
        (mainShard id s.size d = true ∨ s.takeover id d = true) ↔
      s.ownerOf d.key = some id := by
  rw [h.ownerOf_eq_some_iff, mainShard_eq_true_iff, h.takeover_eq_true_iff]
  constructor
  · intro hparts
    obtain ⟨hid, ⟨-, hhome⟩ | ⟨-, htaken⟩⟩ := hparts
    · exact ⟨hid, Or.inl hhome⟩
    · exact ⟨hid, Or.inr htaken⟩
  · intro hparts
    obtain ⟨hid, hhome | htaken⟩ := hparts
    · exact ⟨hid, Or.inl ⟨by omega, hhome⟩⟩
    · exact ⟨hid, Or.inr ⟨hid, htaken⟩⟩

/-- No slot claims one device both as its own and as an orphan. -/
theorem not_mainShard_and_takeover (h : s.IsLayout) {id : Nat} {d : Device} :
    ¬(mainShard id s.size d = true ∧ s.takeover id d = true) := by
  rw [mainShard_eq_true_iff, h.takeover_eq_true_iff]
  intro hparts
  obtain ⟨⟨-, hhome⟩, ⟨-, hsurvives⟩, hfailed, -⟩ := hparts
  exact hsurvives (hhome ▸ hfailed)

end IsLayout

/-- **Exactly one survivor claims a device.**  While at least one slot survives, exactly one
surviving slot claims the device, as its main shard or by taking it over; this is the slot that the
look-up names, and the device's home slot if that survives.  No slot claims the device twice.  When
no slot survives nobody takes the device over, and nobody is named. -/
theorem claimed_by_exactly_one (size : Nat) (members : List Member) (d : Device) :
    let s := ofMembers size members
    let claims (id : Nat) : Prop :=
      mainShard id size d = true ∨ extraShard id size members d = true
    ((∃ slot, s.isFailed slot = false) →
      ∃ owner, s.ownerOf d.key = some owner ∧
        (∀ id, s.isFailed id = false ∧ claims id ↔ id = owner) ∧
        (s.isFailed (d.key % size) = false → owner = d.key % size)) ∧
    (∀ id, ¬(mainShard id size d = true ∧ extraShard id size members d = true)) ∧
    ((∀ slot, s.isFailed slot = true) →
      s.ownerOf d.key = none ∧ ∀ id, extraShard id size members d = false) := by
  intro s claims
  have h : s.IsLayout := ofMembers_isLayout size members
  have hsize : s.size = size := size_ofMembers size members
  have hclaims : ∀ id, s.isFailed id = false ∧ claims id ↔ s.ownerOf d.key = some id := by
    intro id
    rw [h.isFailed_eq_false_iff, ← h.claims_iff_ownerOf, hsize]
    rfl
  refine ⟨?_, ?_, ?_⟩
  · intro hparts
    obtain ⟨slot, hslot⟩ := hparts
    obtain ⟨owner, howner⟩ := h.exists_ownerOf hslot d.key
    refine ⟨owner, howner, ?_, ?_⟩
    · intro id
      rw [hclaims, howner, Option.some.injEq, eq_comm]
    · intro hhome
      rw [← hsize, h.isFailed_eq_false_iff] at hhome
      rcases (h.ownerOf_eq_some_iff.1 howner).2 with heq | ⟨hfailed, -⟩
      · rw [← hsize, heq]
      · exact absurd hfailed hhome.2
  · intro id hboth
    rw [← hsize] at hboth
    exact h.not_mainShard_and_takeover hboth
  · intro hall
    have hnone : ∀ id, ¬(id < s.size ∧ id ∉ s.failed) := by
      intro id hid
      exact Bool.false_ne_true ((h.isFailed_eq_false_iff.2 hid).symm.trans (hall id))
    refine ⟨?_, ?_⟩
    · rw [Option.eq_none_iff_forall_ne_some]
      intro id hid
      exact hnone id (h.ownerOf_eq_some_iff.1 hid).1
    · intro id
      rw [← Bool.not_eq_true]
      intro hextra
      exact hnone id (h.takeover_eq_true_iff.1 hextra).1

end SlotMap

end FleetSharding
