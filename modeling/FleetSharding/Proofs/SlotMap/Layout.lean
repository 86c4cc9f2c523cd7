import FleetSharding.SlotMap
import Mathlib.Data.Nat.Nth

/-!
# The layout of the slots

What a slot map made from a list of members looks like, said once and for all: the failed slots
ascend, and a surviving slot is numbered by the survivors before it.  Nothing below looks into
`classify` again.

* `ofMembers_isLayout`: every list of members gives a layout.
* `IsLayout.mapIndex_eq`: the number of a slot is `rank`, the count of survivors before it, and by
  `IsLayout.rank_eq_sub` that is the slot less the failed slots before it.
* `IsLayout.rank_injOn`, `IsLayout.rank_lt`, `IsLayout.exists_rank_eq`: the numbers are a bijection
  from the surviving slots onto the numbers below `survivors`.
-/

namespace FleetSharding

namespace SlotMap

/-- Whether a passing member sits at a slot. -/
def isPassing (size : Nat) (members : List Member) (slot : Nat) : Bool :=
  ((seats size members)[slot]?).join.any Member.isPassing

/-- How many survivors there are before a slot. -/
def rank (s : SlotMap) (slot : Nat) : Nat := Nat.count (· ∉ s.failed) slot

/-- The form of a slot map that was made from members. -/
structure IsLayout (s : SlotMap) : Prop where
  /-- The failed slots ascend. -/
  ascending : s.failed.Pairwise (· < ·)
  /-- Only slots of the cluster fail. -/
  failed_lt : ∀ slot ∈ s.failed, slot < s.size
  /-- Each surviving slot has its rank as its number. -/
  indices_eq : s.indices =
    (List.range s.size).map fun slot => if slot ∈ s.failed then none else some (s.rank slot)

/-- There is a seat for each slot. -/
theorem length_seats (size : Nat) (members : List Member) : (seats size members).length = size := by
  unfold seats
  refine List.foldlRecOn (motive := fun (row : List (Option Member)) => row.length = size)
    members _ (by simp) ?_
  intro row hrow m _
  cases m.slot with
  | none => exact hrow
  | some slot =>
      dsimp only
      split
      · rw [List.length_set, hrow]
      · exact hrow

/-- Slots are classified one by one: those without a passing member have failed, and each other is
numbered by the passing slots before it. -/
theorem classify_range' (seat : Nat → Option Member) (k : Nat) :
    ∀ slot, classify slot (Nat.count (fun i => (seat i).any Member.isPassing) slot)
        ((List.range' slot k).map seat) =
      ((List.range' slot k).filter fun i => !(seat i).any Member.isPassing,
        (List.range' slot k).map fun i =>
          if (seat i).any Member.isPassing then
            some (Nat.count (fun i => (seat i).any Member.isPassing) i)
          else none) := by
  induction k with
  | zero => intro slot; rfl
  | succ k ih =>
      intro slot
      have hnext := ih (slot + 1)
      by_cases hs : (seat slot).any Member.isPassing = true
      · rw [Nat.count_succ_eq_succ_count_iff.2 hs] at hnext
        simp [List.range'_succ, classify, hs, hnext]
      · rw [Nat.count_succ_eq_count_iff.2 hs] at hnext
        simp [List.range'_succ, classify, hs, hnext]

/-- The seats, read off slot by slot. -/
theorem seats_eq_map (size : Nat) (members : List Member) :
    seats size members =
      (List.range size).map fun slot => ((seats size members)[slot]?).join := by
  apply List.ext_getElem?
  intro i
  by_cases hi : i < size
  · have hlen : i < (seats size members).length := by rw [length_seats]; exact hi
    simp [hi, List.getElem?_eq_getElem hlen]
  · have hlen : (seats size members).length ≤ i := by rw [length_seats]; omega
    simp [hi, List.getElem?_eq_none hlen]

/-- The two halves of a map of members. -/
theorem ofMembers_eq (size : Nat) (members : List Member) :
    ofMembers size members =
      ⟨size, (List.range size).filter fun slot => !isPassing size members slot,
        (List.range size).map fun slot =>
          if isPassing size members slot then
            some (Nat.count (fun i => isPassing size members i) slot)
          else none⟩ := by
  have h := classify_range' (fun slot => ((seats size members)[slot]?).join) size 0
  rw [Nat.count_zero, ← List.range_eq_range', ← seats_eq_map] at h
  unfold ofMembers
  rw [h]
  rfl

/-- A layout has the size that it is asked for. -/
theorem size_ofMembers (size : Nat) (members : List Member) :
    (ofMembers size members).size = size := by
  rw [ofMembers_eq]

/-- A slot has failed exactly if no passing member sits there. -/
theorem mem_failed_ofMembers {size : Nat} {members : List Member} {slot : Nat} :
    slot ∈ (ofMembers size members).failed ↔ slot < size ∧ isPassing size members slot = false := by
  simp [ofMembers_eq]

/-- **Every list of members gives a layout**, however malformed it is. -/
theorem ofMembers_isLayout (size : Nat) (members : List Member) :
    (ofMembers size members).IsLayout where
  ascending := by
    rw [ofMembers_eq]
    exact List.pairwise_lt_range.filter _
  failed_lt := by
    intro slot hslot
    rw [size_ofMembers]
    exact (mem_failed_ofMembers.1 hslot).1
  indices_eq := by
    have hrank : ∀ slot < size, (ofMembers size members).rank slot =
        Nat.count (fun i => isPassing size members i) slot := by
      intro slot hslot
      refine le_antisymm (Nat.count_mono_left ?_) (Nat.count_mono_left ?_)
      · intro k hk hsurvives
        by_contra hfail
        exact hsurvives (mem_failed_ofMembers.2 ⟨by omega, by simpa using hfail⟩)
      · intro k _ hpass hfail
        rw [(mem_failed_ofMembers.1 hfail).2] at hpass
        exact Bool.false_ne_true hpass
    have hindices : (ofMembers size members).indices = (List.range size).map fun slot =>
        if isPassing size members slot then
          some (Nat.count (fun i => isPassing size members i) slot)
        else none := by
      rw [ofMembers_eq]
    rw [hindices, size_ofMembers]
    refine List.map_congr_left ?_
    intro slot hslot
    have hlt : slot < size := List.mem_range.1 hslot
    rw [hrank slot hlt]
    by_cases hp : isPassing size members slot = true
    · simp [hp, mem_failed_ofMembers]
    · simp [hp, mem_failed_ofMembers, hlt]

namespace IsLayout

variable {s : SlotMap}

/-- The failed slots are listed once each. -/
theorem nodup (h : s.IsLayout) : s.failed.Nodup :=
  h.ascending.imp Nat.ne_of_lt

/-- The number of a slot is its rank, if it survives. -/
theorem mapIndex_eq (h : s.IsLayout) (slot : Nat) :
    s.mapIndex slot = if slot < s.size ∧ slot ∉ s.failed then some (s.rank slot) else none := by
  unfold mapIndex
  rw [h.indices_eq]
  by_cases hlt : slot < s.size
  · by_cases hf : slot ∈ s.failed <;> simp [hlt, hf]
  · simp [hlt]

/-- A slot is healthy if it exists and is not among the failed ones. -/
theorem isFailed_eq_false_iff (h : s.IsLayout) {slot : Nat} :
    s.isFailed slot = false ↔ slot < s.size ∧ slot ∉ s.failed := by
  unfold isFailed
  rw [h.mapIndex_eq]
  split <;> simp_all

/-- What does not exist counts as failed. -/
theorem isFailed_iff (h : s.IsLayout) {slot : Nat} :
    s.isFailed slot = true ↔ s.size ≤ slot ∨ slot ∈ s.failed := by
  rw [← Bool.not_eq_false, h.isFailed_eq_false_iff]
  by_cases hf : slot ∈ s.failed <;> simp [hf]

/-- Up to a slot there are as many failed slots as entries of the list below it. -/
theorem count_failed (h : s.IsLayout) (slot : Nat) :
    Nat.count (· ∈ s.failed) slot = (s.failed.filter (· < slot)).length := by
  rw [Nat.count_eq_card_filter_range, ← List.toFinset_card_of_nodup (h.nodup.filter _)]
  congr 1
  ext i
  simp [and_comm]

/-- Every slot before a given one has failed or survives. -/
theorem rank_add_count_failed (slot : Nat) :
    s.rank slot + Nat.count (· ∈ s.failed) slot = slot := by
  unfold rank
  induction slot with
  | zero => simp
  | succ slot ih =>
      rw [Nat.count_succ, Nat.count_succ]
      by_cases hf : slot ∈ s.failed
      · simp only [hf, not_true, if_false, if_true]
        omega
      · simp only [hf, not_false_iff, if_false, if_true]
        omega

/-- The rank of a slot is the slot less the failed slots before it. -/
theorem rank_eq_sub (h : s.IsLayout) (slot : Nat) :
    s.rank slot = slot - (s.failed.filter (· < slot)).length := by
  have hsum := rank_add_count_failed (s := s) slot
  rw [h.count_failed] at hsum
  omega

/-- All failed slots come before the last slot. -/
theorem filter_failed (h : s.IsLayout) : s.failed.filter (· < s.size) = s.failed := by
  rw [List.filter_eq_self]
  intro slot hslot
  simpa using h.failed_lt slot hslot

/-- No more slots have failed before a slot than there are. -/
theorem failed_before_le (h : s.IsLayout) (slot : Nat) :
    (s.failed.filter (· < slot)).length ≤ slot := by
  rw [← h.count_failed]
  exact Nat.count_le _

/-- There are no more failed slots than slots. -/
theorem length_failed_le (h : s.IsLayout) : s.failed.length ≤ s.size := by
  have hle := h.failed_before_le s.size
  rwa [h.filter_failed] at hle

/-- Past the last slot the rank has counted all survivors. -/
theorem rank_size (h : s.IsLayout) : s.rank s.size = s.survivors := by
  rw [h.rank_eq_sub, h.filter_failed, survivors]

/-- Two survivors have different ranks. -/
theorem rank_injOn {slot other : Nat} (hslot : slot ∉ s.failed) (hother : other ∉ s.failed)
    (heq : s.rank slot = s.rank other) : slot = other :=
  Nat.count_injective hslot hother heq

/-- The rank of a survivor is below their number. -/
theorem rank_lt (h : s.IsLayout) {slot : Nat} (hlt : slot < s.size) (hslot : slot ∉ s.failed) :
    s.rank slot < s.survivors := by
  rw [← h.rank_size]
  exact Nat.count_strict_mono hslot hlt

/-- Every number below the number of survivors is the rank of one. -/
theorem exists_rank_eq (h : s.IsLayout) {target : Nat} (ht : target < s.survivors) :
    ∃ slot, slot < s.size ∧ slot ∉ s.failed ∧ s.rank slot = target := by
  rw [← h.rank_size] at ht
  have hinf : (Set.ofPred (· ∉ s.failed)).Infinite :=
    (List.finite_toSet s.failed).infinite_compl
  exact ⟨Nat.nth (· ∉ s.failed) target, Nat.nth_lt_of_lt_count ht,
    Nat.nth_mem_of_infinite hinf target, Nat.count_nth_of_infinite hinf target⟩

end IsLayout

end SlotMap

end FleetSharding
