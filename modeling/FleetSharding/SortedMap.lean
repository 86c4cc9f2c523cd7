/-!
# Maps with text keys, in key order

A map is its list of entries, strictly ascending by key, so equal maps are equal as values and
listing one needs no sorting.

* `get?_insert`, `get?_erase`: what the two updates do to look-up;
* `ofList_entries`: a map is rebuilt from its own entries;
* `mem_keys_iff`: the keys are the texts with a value.
-/

namespace FleetSharding

/-- Entries with one more, in place of any with the same key. -/
def insertEntry {α : Type} (k : String) (v : α) : List (String × α) → List (String × α)
  | [] => [(k, v)]
  | e :: es =>
    if k < e.1 then (k, v) :: e :: es
    else if e.1 < k then e :: insertEntry k v es
    else (k, v) :: es

/-- The value at a key, by a walk through the entries. -/
def findEntry {α : Type} (k : String) (es : List (String × α)) : Option α :=
  (es.find? (·.1 == k)).map (·.2)

variable {α : Type}

/-- The entries after an insertion are the new one and old ones. -/
theorem mem_insertEntry {k : String} {v : α} {a : String × α} {es : List (String × α)}
    (h : a ∈ insertEntry k v es) : a = (k, v) ∨ a ∈ es := by
  induction es with
  | nil => simpa [insertEntry] using h
  | cons e es ih =>
    rw [insertEntry] at h
    split at h
    · simpa using h
    · split at h
      · rcases List.mem_cons.1 h with h | h
        · simp [h]
        · rcases ih h with h | h <;> simp [h]
      · rcases List.mem_cons.1 h with h | h <;> simp [h]

/-- Insertion keeps the keys ascending. -/
theorem insertEntry_sorted {k : String} {v : α} {es : List (String × α)}
    (h : es.Pairwise (fun a b => a.1 < b.1)) :
    (insertEntry k v es).Pairwise (fun a b => a.1 < b.1) := by
  induction es with
  | nil => simp [insertEntry]
  | cons e es ih =>
    obtain ⟨he, hes⟩ := List.pairwise_cons.1 h
    rw [insertEntry]
    split
    · next hk =>
      refine List.pairwise_cons.2 ⟨fun a ha => ?_, h⟩
      rcases List.mem_cons.1 ha with rfl | ha
      · exact hk
      · exact String.lt_trans hk (he a ha)
    · next hk =>
      split
      · next hk' =>
        refine List.pairwise_cons.2 ⟨fun a ha => ?_, ih hes⟩
        rcases mem_insertEntry ha with rfl | ha
        · exact hk'
        · exact he a ha
      · next hk' =>
        have : e.1 = k := String.le_antisymm (String.not_lt.1 hk) (String.not_lt.1 hk')
        exact List.pairwise_cons.2 ⟨fun a ha => this ▸ he a ha, hes⟩

/-- What was inserted is found, and all other keys are as they were. -/
theorem findEntry_insertEntry (k k' : String) (v : α) (es : List (String × α)) :
    findEntry k' (insertEntry k v es) = if k = k' then some v else findEntry k' es := by
  induction es with
  | nil => by_cases h : k = k' <;> simp [insertEntry, findEntry, h]
  | cons e es ih =>
    rw [insertEntry]
    split
    · by_cases h : k = k' <;> simp [findEntry, h]
    · next hk =>
      split
      · next hk' =>
        have hne : ¬ e.1 = k := fun h => String.lt_irrefl _ (h ▸ hk')
        by_cases h : e.1 = k'
        · have : ¬ k = k' := fun h' => hne (h.trans h'.symm)
          simp [findEntry, h, this]
        · simpa [findEntry, h] using ih
      · next hk' =>
        have he : e.1 = k := String.le_antisymm (String.not_lt.1 hk) (String.not_lt.1 hk')
        by_cases h : k = k' <;> simp [findEntry, h, he]

/-- A map from texts to values. -/
structure SortedMap (α : Type) where
  entries : List (String × α)
  sorted : entries.Pairwise (fun a b => a.1 < b.1)

namespace SortedMap

instance [DecidableEq α] : DecidableEq (SortedMap α) := fun a b =>
  if h : a.entries = b.entries then
    .isTrue (by cases a; cases b; simp_all)
  else .isFalse (by intro hab; exact h (hab ▸ rfl))

def empty : SortedMap α := ⟨[], .nil⟩

instance : Inhabited (SortedMap α) := ⟨empty⟩

instance : EmptyCollection (SortedMap α) := ⟨empty⟩

def isEmpty (m : SortedMap α) : Bool := m.entries.isEmpty

def get? (m : SortedMap α) (k : String) : Option α := findEntry k m.entries

def contains (m : SortedMap α) (k : String) : Bool := (m.get? k).isSome

def keys (m : SortedMap α) : List String := m.entries.map (·.1)

def values (m : SortedMap α) : List α := m.entries.map (·.2)

def insert (m : SortedMap α) (k : String) (v : α) : SortedMap α :=
  ⟨insertEntry k v m.entries, insertEntry_sorted m.sorted⟩

def erase (m : SortedMap α) (k : String) : SortedMap α :=
  ⟨m.entries.filter (·.1 != k), m.sorted.filter _⟩

/-- A map from entries in any order; of two with one key the later stays. -/
def ofList (es : List (String × α)) : SortedMap α :=
  es.foldl (fun m e => m.insert e.1 e.2) empty

/-- A map is its entries. -/
@[ext] theorem ext {m n : SortedMap α} (h : m.entries = n.entries) : m = n := by
  cases m; cases n; simp_all

/-- What was inserted is found under its key, and nothing else has changed. -/
theorem get?_insert (m : SortedMap α) (k k' : String) (v : α) :
    (m.insert k v).get? k' = if k = k' then some v else m.get? k' :=
  findEntry_insertEntry k k' v m.entries

/-- What was erased is not found, and nothing else has changed. -/
theorem get?_erase (m : SortedMap α) (k k' : String) :
    (m.erase k).get? k' = if k = k' then none else m.get? k' := by
  simp only [get?, erase, findEntry]
  induction m.entries with
  | nil => simp
  | cons e es ih =>
    by_cases h : k = k'
    · subst h
      by_cases he : e.1 = k <;> simp_all
    · by_cases he : e.1 = k
      · have : ¬ e.1 = k' := fun h' => h (he.symm.trans h')
        simp_all
      · by_cases he' : e.1 = k' <;> simp_all

/-- The keys are the texts with a value. -/
theorem mem_keys_iff {m : SortedMap α} {k : String} : k ∈ m.keys ↔ (m.get? k).isSome := by
  simp only [keys, get?, findEntry, List.mem_map, Option.isSome_map, List.find?_isSome, beq_iff_eq]

/-- The keys are strictly ascending. -/
theorem keys_sorted (m : SortedMap α) : m.keys.Pairwise (· < ·) :=
  List.pairwise_map.2 m.sorted

/-- An entry past all others goes to the end. -/
theorem insertEntry_last {k : String} {v : α} {es : List (String × α)} (h : ∀ e ∈ es, e.1 < k) :
    insertEntry k v es = es ++ [(k, v)] := by
  induction es with
  | nil => rfl
  | cons e es ih =>
    have he : e.1 < k := h e (by simp)
    have : ¬ k < e.1 := String.lt_asymm he
    simp [insertEntry, this, he, ih fun e' he' => h e' (by simp [he'])]

/-- A map is rebuilt from its own entries. -/
theorem ofList_entries (m : SortedMap α) : ofList m.entries = m := by
  have go : ∀ (es : List (String × α)) (n : SortedMap α),
      (n.entries ++ es).Pairwise (fun a b => a.1 < b.1) →
      (es.foldl (fun m e => m.insert e.1 e.2) n).entries = n.entries ++ es := by
    intro es
    induction es with
    | nil => simp
    | cons e es ih =>
      intro n h
      have hlast : (n.insert e.1 e.2).entries = n.entries ++ [e] :=
        insertEntry_last fun a ha => (List.pairwise_append.1 h).2.2 a ha e (by simp)
      rw [List.foldl_cons, ih _ (by simpa [hlast] using h), hlast]
      simp
  exact ext (by simpa [ofList, empty] using go m.entries empty m.sorted)

end SortedMap

end FleetSharding
