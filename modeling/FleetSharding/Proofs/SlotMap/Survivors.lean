import FleetSharding.Proofs.SlotMap.Layout

/-!
# Healthy members and surviving slots

A decision weighs the healthy members against a minimum, while the layout says which slots survive.
The two numbers need not agree: a healthy member may hold no slot, because its id is not that of
one, or because a later member has the same.

* `holder?`: the member that ends up with a slot, read off the list from its end.
* `passedOver`: the healthy members that end up with none.
* `healthyCount_eq_survivors_add`: the healthy members are those, and one for each surviving slot.
-/

namespace FleetSharding

namespace SlotMap

variable {size slot : Nat} {m : Member} {members later : List Member}

/-- The member that ends up with a slot: the last one with the marker and that id. -/
def holder? (slot : Nat) : List Member → Option Member
  | [] => none
  | m :: later =>
    (holder? slot later).or (if m.isShardEnabled && m.slot == some slot then some m else none)

/-- Whether a member ends up with a slot of the cluster, given the members that come after it. -/
def keepsSeat (size : Nat) (m : Member) (later : List Member) : Bool :=
  m.slot.any fun slot => slot < size && (holder? slot later).isNone

/-- The healthy members that end up with no slot. -/
def passedOver (size : Nat) : List Member → List Member
  | [] => []
  | m :: later =>
    if m.isHealthyShard && !keepsSeat size m later then m :: passedOver size later
    else passedOver size later

/-- The row of seats with one more member seated. -/
def seat (size : Nat) (row : List (Option Member)) (m : Member) : List (Option Member) :=
  match m.slot with
  | some slot => if m.isShardEnabled && slot < size then row.set slot (some m) else row
  | none => row

/-- Members are seated one after the other. -/
theorem seats_eq_foldl (size : Nat) (members : List Member) :
    seats size members = members.foldl (seat size) (List.replicate size none) := rfl

/-- Nobody brings a seat along. -/
theorem length_seat (size : Nat) (row : List (Option Member)) (m : Member) :
    (seat size row m).length = row.length := by
  unfold seat
  split
  · split
    · exact List.length_set
    · rfl
  · rfl

/-- A member takes its own seat from whoever sat there, and leaves the others alone. -/
theorem getElem?_seat {row : List (Option Member)} (hslot : slot < size) (hrow : row.length = size)
    (m : Member) :
    ((seat size row m)[slot]?).join =
      (if m.isShardEnabled && m.slot == some slot then some m else none).or
        (row[slot]?).join := by
  unfold seat
  split
  · next s hs =>
    by_cases heq : s = slot
    · subst heq
      cases m.isShardEnabled <;> simp [hs, hslot, hrow]
    · cases m.isShardEnabled <;> by_cases hlt : s < size <;> simp [hs, heq, hlt]
  · next hs => simp [hs]

/-- Who sits at a seat in the end is the last member that takes it, or who sat there before. -/
theorem getElem?_foldl_seat (hslot : slot < size) (members : List Member)
    {row : List (Option Member)} (hrow : row.length = size) :
    ((members.foldl (seat size) row)[slot]?).join =
      (holder? slot members).or (row[slot]?).join := by
  induction members generalizing row with
  | nil => rfl
  | cons m later ih =>
      rw [List.foldl_cons, ih ((length_seat size row m).trans hrow), getElem?_seat hslot hrow,
        holder?, Option.or_assoc]

/-- A slot survives exactly if whoever ends up with it is passing. -/
theorem isPassing_eq_holder? (hslot : slot < size) (members : List Member) :
    isPassing size members slot = (holder? slot members).any Member.isPassing := by
  have hnone : ((List.replicate size (none : Option Member))[slot]?).join = none := by
    simp [hslot]
  rw [isPassing, seats_eq_foldl, getElem?_foldl_seat hslot members List.length_replicate, hnone,
    Option.or_none]

/-- A count over two predicates that agree below the bound is one. -/
theorem count_congr {p q : Nat → Prop} [DecidablePred p] [DecidablePred q] {n : Nat}
    (h : ∀ i < n, p i ↔ q i) : Nat.count p n = Nat.count q n :=
  le_antisymm (Nat.count_mono_left fun i hi => (h i hi).1)
    (Nat.count_mono_left fun i hi => (h i hi).2)

/-- A predicate that holds of one number more counts one more. -/
theorem count_eq_add_one {p q : Nat → Prop} [DecidablePred p] [DecidablePred q] {n s : Nat}
    (hs : s < n) (hp : ¬ p s) (hq : q s) (hsame : ∀ i < n, i ≠ s → (q i ↔ p i)) :
    Nat.count q n = Nat.count p n + 1 := by
  have hinsert : (Finset.range n).filter q = insert s ((Finset.range n).filter p) := by
    ext i
    rw [Finset.mem_insert, Finset.mem_filter, Finset.mem_filter, Finset.mem_range]
    by_cases hi : i = s
    · subst hi
      simp [hs, hq]
    · simp only [hi, false_or]
      exact and_congr_right fun hlt => hsame i hlt hi
  rw [Nat.count_eq_card_filter_range, Nat.count_eq_card_filter_range, hinsert,
    Finset.card_insert_of_notMem fun hmem => hp (Finset.mem_filter.1 hmem).2]

/-- The survivors are counted slot by slot. -/
theorem survivors_eq_count (size : Nat) (members : List Member) :
    (ofMembers size members).survivors =
      Nat.count (fun slot => (holder? slot members).any Member.isPassing) size := by
  rw [← (ofMembers_isLayout size members).rank_size, size_ofMembers, rank]
  refine count_congr fun slot hslot => ?_
  rw [mem_failed_ofMembers, isPassing_eq_holder? hslot, ← Bool.not_eq_true]
  simp [hslot]

/-- Who ends up with a slot that the first member does not ask for is found among the others. -/
theorem holder?_cons_of_ne {m : Member} (h : (m.isShardEnabled && m.slot == some slot) = false)
    (later : List Member) : holder? slot (m :: later) = holder? slot later := by
  rw [holder?, h, if_neg Bool.false_ne_true, Option.or_none]

/-- **One member more is one surviving slot more exactly if it is healthy and keeps its seat.** -/
theorem survivors_cons (size : Nat) (m : Member) (later : List Member) :
    (ofMembers size (m :: later)).survivors =
      (ofMembers size later).survivors +
        if m.isHealthyShard && keepsSeat size m later then 1 else 0 := by
  rw [survivors_eq_count, survivors_eq_count]
  split
  · next hkeeps =>
    rw [Bool.and_eq_true, Member.isHealthyShard, Bool.and_eq_true, keepsSeat,
      Option.any_eq_true] at hkeeps
    obtain ⟨⟨hpassing, hmarked⟩, s, hslot, hseat⟩ := hkeeps
    rw [Bool.and_eq_true, decide_eq_true_eq, Option.isNone_iff_eq_none] at hseat
    obtain ⟨hlt, hfree⟩ := hseat
    refine count_eq_add_one hlt ?_ ?_ ?_
    · rw [hfree]
      exact Bool.false_ne_true
    · simpa [holder?, hfree, hmarked, hslot] using hpassing
    · intro slot _ hne
      rw [holder?_cons_of_ne]
      simp [hslot, hne.symm]
  · next hgives =>
    refine count_congr fun slot hlt => ?_
    by_cases hasks : (m.isShardEnabled && m.slot == some slot) = true
    · rw [holder?, if_pos hasks]
      cases hholder : holder? slot later with
      | some other => simp
      | none =>
          -- The seat is free, so the member must be one that is not passing.
          rw [Bool.and_eq_true, beq_iff_eq] at hasks
          simp_all [Member.isHealthyShard, keepsSeat]
    · rw [holder?_cons_of_ne (Bool.not_eq_true _ ▸ hasks)]

/-- **The healthy members are one for each surviving slot, and those that hold none.** -/
theorem healthyCount_eq_survivors_add (size : Nat) (members : List Member) :
    healthyCount members =
      (ofMembers size members).survivors + (passedOver size members).length := by
  induction members with
  | nil =>
      rw [survivors_eq_count]
      simp [healthyCount, passedOver, holder?]
  | cons m later ih =>
      rw [survivors_cons, passedOver]
      unfold healthyCount at ih ⊢
      cases hhealthy : m.isHealthyShard <;> cases hkeeps : keepsSeat size m later <;>
        simp [hhealthy, ih] <;> omega

/-- A slot has a holder exactly if a member with the marker has its id. -/
theorem holder?_isSome_iff :
    (holder? slot members).isSome = true ↔
      ∃ m ∈ members, m.isShardEnabled = true ∧ m.slot = some slot := by
  induction members with
  | nil => simp [holder?]
  | cons m later ih =>
      rw [holder?, Option.isSome_or, Bool.or_eq_true, ih, List.exists_mem_cons_iff, or_comm]
      refine or_congr_left ?_
      split <;> simp_all

/-- **Who is passed over**: a healthy member whose id is not that of a slot of the cluster, or after
which one with the marker has the same slot. -/
theorem mem_passedOver_iff :
    m ∈ passedOver size members ↔
      ∃ before later, members = before ++ m :: later ∧ m.isHealthyShard = true ∧
        ∀ slot, m.slot = some slot → slot < size →
          ∃ other ∈ later, other.isShardEnabled = true ∧ other.slot = some slot := by
  have hkeeps : ∀ later, keepsSeat size m later = false ↔ ∀ slot, m.slot = some slot →
      slot < size → ∃ other ∈ later, other.isShardEnabled = true ∧ other.slot = some slot := by
    intro later
    rw [keepsSeat, Option.any_eq_false]
    refine forall_congr' fun slot => forall_congr' fun _ => ?_
    rw [← holder?_isSome_iff, Bool.and_eq_false_imp, Option.isNone_eq_false_iff, decide_eq_true_eq]
  simp only [← hkeeps]
  induction members with
  | nil => simp [passedOver]
  | cons first rest ih =>
      constructor
      · intro hm
        have hlater : m ∈ passedOver size rest → ∃ before later, first :: rest =
            before ++ m :: later ∧ m.isHealthyShard = true ∧ keepsSeat size m later = false := by
          intro hm
          obtain ⟨before, later, rfl, hparts⟩ := ih.1 hm
          exact ⟨first :: before, later, rfl, hparts⟩
        rw [passedOver] at hm
        split at hm
        · next hfirst =>
          rw [Bool.and_eq_true, Bool.not_eq_true'] at hfirst
          rcases List.mem_cons.1 hm with rfl | hm
          · exact ⟨[], rest, rfl, hfirst⟩
          · exact hlater hm
        · exact hlater hm
      · intro hparts
        obtain ⟨before, later, hsplit, hhealthy, hfree⟩ := hparts
        cases before with
        | nil =>
            obtain ⟨rfl, rfl⟩ := List.cons.inj hsplit
            simp [passedOver, hhealthy, hfree]
        | cons b before =>
            obtain ⟨rfl, rfl⟩ := List.cons.inj hsplit
            have hm : m ∈ passedOver size (before ++ m :: later) :=
              ih.2 ⟨before, later, rfl, hhealthy, hfree⟩
            rw [passedOver]
            split
            · exact List.mem_cons_of_mem _ hm
            · exact hm

end SlotMap

end FleetSharding
