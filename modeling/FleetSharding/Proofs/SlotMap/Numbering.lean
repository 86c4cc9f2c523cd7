import FleetSharding.Proofs.SlotMap.Survivors

/-!
# How the slots are numbered

A slot map is read off a list of members in two passes: the members are seated, the last of several
at one slot, and the slots are then gone through with the number of the next survivor.
`IsNumbering` says what comes of it without either pass: who claims a slot last decides whether it
has failed, and a survivor's number is the slot less the failed slots before it.

* `claimants`: the members that claim a slot.
* `failed_iff_claimants`: the last of them decides.
* `ofMembers_isNumbering`: every list of members gives a numbering.
-/

namespace FleetSharding

namespace SlotMap

variable {size slot : Nat} {members : List Member}

/-- The members with the marker whose id is that of a slot, in the order of the list. -/
def claimants (slot : Nat) (members : List Member) : List Member :=
  members.filter fun m => m.isShardEnabled && m.slot == some slot

/-- Who ends up with a slot is who claims it last. -/
theorem holder?_eq_getLast? (slot : Nat) (members : List Member) :
    holder? slot members = (claimants slot members).getLast? := by
  induction members with
  | nil => rfl
  | cons m later ih =>
      rw [holder?, ih]
      unfold claimants
      rw [List.filter_cons]
      split
      · rw [List.getLast?_cons]
        cases (later.filter _).getLast? <;> rfl
      · rw [Option.or_none]

/-- **The last claim to a slot decides**: without any the slot has failed, and else it has exactly
if that member is not passing. -/
theorem failed_iff_claimants (hslot : slot < size) :
    slot ∈ (ofMembers size members).failed ↔
      claimants slot members = [] ∨
        ∃ m, (claimants slot members).getLast? = some m ∧ m.isPassing = false := by
  rw [mem_failed_ofMembers, isPassing_eq_holder? hslot, holder?_eq_getLast?, and_iff_right hslot]
  cases hlast : (claimants slot members).getLast? with
  | none => simp [List.getLast?_eq_none_iff.1 hlast]
  | some m =>
      have hsome : claimants slot members ≠ [] := by
        intro hnone
        rw [hnone] at hlast
        cases hlast
      simp [hsome]

/-- A slot map that says of every slot what a list of members makes of it. -/
structure IsNumbering (size : Nat) (members : List Member) (s : SlotMap) : Prop where
  /-- A slot of the cluster has failed if nobody claims it, or the last who does is not passing. -/
  failed_iff : ∀ slot < size, slot ∈ s.failed ↔
    claimants slot members = [] ∨
      ∃ m, (claimants slot members).getLast? = some m ∧ m.isPassing = false
  failed_lt : ∀ slot ∈ s.failed, slot < size
  ascending : s.failed.Pairwise (· < ·)
  /-- The survivors have numbers, and nothing else has. -/
  mapIndex_eq_some_iff : ∀ slot index, s.mapIndex slot = some index ↔
    (slot < size ∧ slot ∉ s.failed) ∧ index = slot - (s.failed.filter (· < slot)).length
  /-- Later survivors have higher numbers. -/
  increasing : ∀ slot slot' index index', s.mapIndex slot = some index →
    s.mapIndex slot' = some index' → (slot < slot' ↔ index < index')
  /-- Each number below that of the survivors belongs to one of them, and to only one. -/
  lt_survivors_iff : ∀ index, index < s.survivors ↔ ∃! slot, s.mapIndex slot = some index
  /-- There are no more failed slots than slots, in all and before each. -/
  survivors_add : s.survivors + s.failed.length = size
  failed_before_le : ∀ slot, (s.failed.filter (· < slot)).length ≤ slot
  /-- What is no slot of the cluster counts as failed. -/
  isFailed_of_le : ∀ slot, size ≤ slot → s.isFailed slot = true

namespace IsLayout

variable {s : SlotMap}

/-- The slots that have an index are the healthy ones, and it is their rank. -/
theorem mapIndex_eq_some_iff (h : s.IsLayout) {index : Nat} :
    s.mapIndex slot = some index ↔ (slot < s.size ∧ slot ∉ s.failed) ∧ s.rank slot = index := by
  rw [h.mapIndex_eq]
  by_cases hsurvives : slot < s.size ∧ slot ∉ s.failed
  · simp [hsurvives]
  · simp [hsurvives]

/-- Among survivors the ranks ascend with the slots. -/
theorem rank_lt_rank_iff {slot' : Nat} (hslot : slot ∉ s.failed) (hslot' : slot' ∉ s.failed) :
    slot < slot' ↔ s.rank slot < s.rank slot' := by
  have hup : ∀ {a b : Nat}, a ∉ s.failed → a < b → s.rank a < s.rank b :=
    fun ha hab => Nat.count_strict_mono ha hab
  constructor
  · exact hup hslot
  · intro hrank
    by_contra hle
    rcases Nat.lt_or_eq_of_le (Nat.not_lt.1 hle) with hlt | heq
    · exact Nat.lt_asymm hrank (hup hslot' hlt)
    · rw [heq] at hrank
      exact Nat.lt_irrefl _ hrank

/-- A number belongs to a survivor, and to only one, exactly if it is below their number. -/
theorem lt_survivors_iff (h : s.IsLayout) {index : Nat} :
    index < s.survivors ↔ ∃! slot, s.mapIndex slot = some index := by
  constructor
  · intro hlt
    obtain ⟨slot, hslot, hsurvives, hrank⟩ := h.exists_rank_eq hlt
    refine ⟨slot, h.mapIndex_eq_some_iff.2 ⟨⟨hslot, hsurvives⟩, hrank⟩, ?_⟩
    intro other hother
    obtain ⟨⟨-, hsurvives'⟩, hrank'⟩ := h.mapIndex_eq_some_iff.1 hother
    exact rank_injOn hsurvives' hsurvives (hrank'.trans hrank.symm)
  · intro hone
    obtain ⟨slot, hslot, -⟩ := hone
    obtain ⟨⟨hlt, hsurvives⟩, rfl⟩ := h.mapIndex_eq_some_iff.1 hslot
    exact h.rank_lt hlt hsurvives

end IsLayout

/-- **Every list of members gives a numbering**, with whatever ids, markers and repetitions: the
last claim to a slot decides whether it has failed, and the survivors are numbered in their order
without gaps. -/
theorem ofMembers_isNumbering (size : Nat) (members : List Member) :
    IsNumbering size members (ofMembers size members) := by
  have hlayout := ofMembers_isLayout size members
  have hsize := size_ofMembers size members
  refine {
    failed_iff := fun slot hslot => failed_iff_claimants hslot
    failed_lt := fun slot hslot => (mem_failed_ofMembers.1 hslot).1
    ascending := hlayout.ascending
    mapIndex_eq_some_iff := ?_
    increasing := ?_
    lt_survivors_iff := fun index => hlayout.lt_survivors_iff
    survivors_add := ?_
    failed_before_le := hlayout.failed_before_le
    isFailed_of_le := ?_ }
  · intro slot index
    rw [hlayout.mapIndex_eq_some_iff, hsize, hlayout.rank_eq_sub, eq_comm (b := index)]
  · intro slot slot' index index' hslot hslot'
    obtain ⟨⟨-, hsurvives⟩, rfl⟩ := hlayout.mapIndex_eq_some_iff.1 hslot
    obtain ⟨⟨-, hsurvives'⟩, rfl⟩ := hlayout.mapIndex_eq_some_iff.1 hslot'
    exact IsLayout.rank_lt_rank_iff hsurvives hsurvives'
  · rw [survivors, Nat.sub_add_cancel hlayout.length_failed_le, hsize]
  · intro slot hle
    exact hlayout.isFailed_iff.2 (Or.inl (hsize.symm ▸ hle))

/-- A slot claimed twice, first by a healthy member and then by a critical one, has failed; the
other two are numbered without it. -/
example :
    ofMembers 3 [.sharded 0 "a", .sharded 1 "b", .sharded 2 "c",
        { Member.sharded 1 "d" with status := .critical },
        { Member.sharded 0 "e" with id := "x" }] =
      ⟨3, [1], [some 0, none, some 1]⟩ := by decide +kernel

end SlotMap

end FleetSharding
