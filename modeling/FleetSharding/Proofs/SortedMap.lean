import FleetSharding.SortedMap
import Mathlib.Data.List.Induction
import Mathlib.Data.List.Sort

/-!
# Entries and look-up

The entries of a map are exactly what look-up finds, because its keys are ascending.

* `SortedMap.mem_entries_iff`: an entry is a key with the value that it is looked up to.
* `SortedMap.eq_of_get?_eq`: so a map is known by what is looked up in it.
* `SortedMap.ofList_perm`: it is rebuilt from its entries in any order.
* `SortedMap.mem_keys_ofList_iff`: its keys are those of the entries that it is made of.
* `SortedMap.filter_entries_perm`: entries with a key of their own are all in it.
* `SortedMap.get?_foldl_erase`: what stays when several keys go.
-/

namespace FleetSharding

variable {α : Type}

/-- With ascending keys each entry is found under its key. -/
theorem findEntry_of_mem {e : String × α} {es : List (String × α)}
    (hsorted : es.Pairwise fun a b => a.1 < b.1) (he : e ∈ es) : findEntry e.1 es = some e.2 := by
  induction es with
  | nil => cases he
  | cons a es ih =>
      obtain ⟨ha, hes⟩ := List.pairwise_cons.1 hsorted
      rcases List.mem_cons.1 he with rfl | he
      · simp [findEntry]
      · have hne : a.1 ≠ e.1 := String.ne_of_lt (ha e he)
        rw [findEntry, List.find?_cons_of_neg (by simpa using hne)]
        exact ih hes he

namespace SortedMap

variable {m : SortedMap α}

/-- The entries of a map are what is found in it. -/
theorem mem_entries_iff {k : String} {v : α} : (k, v) ∈ m.entries ↔ m.get? k = some v := by
  constructor
  · exact findEntry_of_mem m.sorted
  · intro h
    obtain ⟨e, he, rfl⟩ := Option.map_eq_some_iff.1 h
    obtain rfl : e.1 = k := by simpa using List.find?_some he
    exact List.mem_of_find?_eq_some he

/-- A map has a value exactly if some key is looked up to it. -/
theorem mem_values_iff {v : α} : v ∈ m.values ↔ ∃ k, m.get? k = some v := by
  rw [values, List.mem_map]
  constructor
  · rintro ⟨⟨k, v⟩, he, rfl⟩
    exact ⟨k, mem_entries_iff.1 he⟩
  · rintro ⟨k, hk⟩
    exact ⟨(k, v), mem_entries_iff.2 hk, rfl⟩

/-- **Two maps in which the same is looked up are one.** -/
theorem eq_of_get?_eq {n : SortedMap α} (h : ∀ k, m.get? k = n.get? k) : m = n := by
  have hirrefl : Std.Irrefl fun a b : String × α => a.1 < b.1 := ⟨fun a => String.lt_irrefl a.1⟩
  have hantisymm : Std.Antisymm fun a b : String × α => a.1 < b.1 :=
    ⟨fun _ _ hab hba => absurd hba (String.lt_asymm hab)⟩
  refine ext (m.sorted.eq_of_mem_iff n.sorted fun e => ?_)
  rw [mem_entries_iff, mem_entries_iff, h]

/-- Two insertions with different keys can be made in either order. -/
theorem insert_comm {k k' : String} (hne : k ≠ k') (m : SortedMap α) (v v' : α) :
    (m.insert k v).insert k' v' = (m.insert k' v').insert k v := by
  refine eq_of_get?_eq fun key => ?_
  simp only [get?_insert]
  by_cases hk : k = key
  · have hk' : ¬ k' = key := fun h => hne (hk.trans h.symm)
    simp only [hk, hk', if_true, if_false]
  · simp only [hk, if_false]

/-- A map is rebuilt from its entries in any order. -/
theorem ofList_perm {es : List (String × α)} (h : es.Perm m.entries) : ofList es = m := by
  refine Eq.trans ?_ m.ofList_entries
  refine h.foldl_eq' (fun a ha b hb n => ?_) empty
  by_cases hkey : a.1 = b.1
  · have hval : some a.2 = some b.2 := by
      rw [← mem_entries_iff.1 (h.subset ha), ← mem_entries_iff.1 (h.subset hb), hkey]
    rw [Prod.ext hkey (Option.some.inj hval)]
  · exact insert_comm hkey n a.2 b.2

/-- A map has the keys of the entries that it is made of. -/
theorem mem_keys_ofList_iff {es : List (String × α)} {k : String} :
    k ∈ (ofList es).keys ↔ k ∈ es.map (·.1) := by
  have hfold : ∀ m : SortedMap α,
      k ∈ (es.foldl (fun m e => m.insert e.1 e.2) m).keys ↔ k ∈ es.map (·.1) ∨ k ∈ m.keys := by
    induction es with
    | nil => simp
    | cons e es ih =>
        intro m
        have hinsert : k ∈ (m.insert e.1 e.2).keys ↔ k = e.1 ∨ k ∈ m.keys := by
          rw [mem_keys_iff, mem_keys_iff, get?_insert]
          by_cases hk : k = e.1
          · simp [hk]
          · simp [hk, Ne.symm hk]
        rw [List.foldl_cons, ih, hinsert, List.map_cons, List.mem_cons, or_left_comm, or_assoc]
  rw [ofList, hfold]
  simp [empty, keys]

/-- What a map has at a key is one of the values given for it. -/
theorem mem_of_get?_ofList {es : List (String × α)} {k : String} {v : α}
    (h : (ofList es).get? k = some v) : (k, v) ∈ es := by
  induction es using List.reverseRecOn with
  | nil => cases h
  | append_singleton es e ih =>
      have hinsert : ofList (es ++ [e]) = (ofList es).insert e.1 e.2 := by
        rw [ofList, List.foldl_append]
        rfl
      rw [hinsert, get?_insert] at h
      split at h
      · next hkey =>
        cases h
        rw [← hkey]
        exact List.mem_append_right _ List.mem_cons_self
      · exact List.mem_append_left _ (ih h)

/-- A map made of a list has no other entries. -/
theorem mem_of_mem_ofList {es : List (String × α)} {e : String × α}
    (h : e ∈ (ofList es).entries) : e ∈ es :=
  mem_of_get?_ofList (mem_entries_iff.1 h)

/-- Entries with a key of their own are all in the map. -/
theorem filter_entries_perm {es : List (String × α)} (p : String → Bool)
    (h : ((es.filter fun e => p e.1).map (·.1)).Nodup) :
    ((ofList es).entries.filter fun e => p e.1).Perm (es.filter fun e => p e.1) := by
  have hsorted : (ofList es).entries.Nodup := by
    refine (ofList es).sorted.imp ?_
    rintro a _ hlt rfl
    exact String.lt_irrefl _ hlt
  refine (List.perm_ext_iff_of_nodup (hsorted.filter _) (List.Nodup.of_map _ h)).2 fun e => ?_
  rw [List.mem_filter, List.mem_filter]
  refine and_congr_left fun hp => ⟨mem_of_mem_ofList, fun he => ?_⟩
  have hkey : e.1 ∈ (ofList es).keys := mem_keys_ofList_iff.2 (List.mem_map_of_mem he)
  obtain ⟨v, hv⟩ := Option.isSome_iff_exists.1 (mem_keys_iff.1 hkey)
  have hmem : (e.1, v) ∈ es := mem_of_get?_ofList hv
  have heq : (e.1, v) = e := List.inj_on_of_nodup_map h
    (List.mem_filter.2 ⟨hmem, hp⟩) (List.mem_filter.2 ⟨he, hp⟩) rfl
  rw [← heq]
  exact mem_entries_iff.2 hv

/-- When several keys go, the others stay. -/
theorem get?_foldl_erase (gone : List String) (m : SortedMap α) (k : String) :
    (gone.foldl (·.erase ·) m).get? k = if k ∈ gone then none else m.get? k := by
  induction gone generalizing m with
  | nil => simp
  | cons key gone ih =>
      rw [List.foldl_cons, ih, get?_erase]
      by_cases hrest : k ∈ gone
      · simp [hrest]
      · by_cases hkey : key = k
        · simp [hkey]
        · simp [hrest, hkey, Ne.symm hkey]

end SortedMap

end FleetSharding
