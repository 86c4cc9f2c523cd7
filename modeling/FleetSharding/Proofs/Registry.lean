import FleetSharding.Coordinator.Basic
import FleetSharding.Proofs.SortedMap

/-!
# A coordinator's two filters

A coordinator writes two filters only, so all that its registry selects can be read off the two
claims that are installed under their names.

* `Registry.Holds`: the claims under the two names, and no other filter.
* `Holds.filters_eq`: two registries with the same claims under the two names have the same filters.
* `Holds.claims_iff`: a device is claimed by the one or by the other.
-/

namespace FleetSharding

namespace Registry

/-- Removing what is not there changes nothing. -/
theorem remove_of_has_eq_false {r : Registry} {name : String} (h : r.has name = false) :
    r.remove name = r := by
  have hkeys : ∀ e ∈ r.filters.entries, e.1 ≠ name := by
    intro e he heq
    have hfound : r.filters.get? e.1 = some e.2 := findEntry_of_mem r.filters.sorted he
    rw [has, SortedMap.contains, ← heq, hfound] at h
    cases h
  have herase : r.filters.erase name = r.filters := by
    refine SortedMap.ext (List.filter_eq_self.2 ?_)
    intro e he
    exact bne_iff_ne.2 (hkeys e he)
  rw [remove, herase]

/-- A filter that was removed is not there. -/
theorem has_remove_self (r : Registry) (name : String) : (r.remove name).has name = false := by
  rw [has, remove, SortedMap.contains, SortedMap.get?_erase, if_pos rfl, Option.isSome_none]

/-- All others still are. -/
theorem has_remove_of_ne {name name' : String} (h : name ≠ name') (r : Registry) :
    (r.remove name).has name' = r.has name' := by
  rw [has, remove, SortedMap.contains, SortedMap.get?_erase, if_neg h, has, SortedMap.contains]

/-- The names are those of the filters that are installed. -/
theorem mem_names_iff {r : Registry} {name : String} : name ∈ r.names ↔ r.has name = true :=
  SortedMap.mem_keys_iff

/-- The claims under the two names of a coordinator; nothing else is installed. -/
structure Holds (r : Registry) (main extra : Option Claim) : Prop where
  main : r.filters.get? mainFilter = main
  extra : r.filters.get? extraFilter = extra
  others : ∀ name, name ≠ mainFilter → name ≠ extraFilter → r.filters.get? name = none

/-- The two names are not one. -/
theorem mainFilter_ne_extraFilter : mainFilter ≠ extraFilter := by decide

/-- At first there is no filter. -/
theorem holds_ofDevices (devices : List Device) : (ofDevices devices).Holds none none :=
  ⟨rfl, rfl, fun _ _ _ => rfl⟩

namespace Holds

variable {r : Registry} {main extra : Option Claim}

/-- The main filter is installed. -/
theorem addMain (h : r.Holds main extra) (claim : Claim) :
    (r.add mainFilter claim).Holds (some claim) extra where
  main := by rw [add, SortedMap.get?_insert, if_pos rfl]
  extra := by rw [add, SortedMap.get?_insert, if_neg mainFilter_ne_extraFilter, h.extra]
  others := by
    intro name hmain hextra
    rw [add, SortedMap.get?_insert, if_neg hmain.symm, h.others name hmain hextra]

/-- The extra filter is installed. -/
theorem addExtra (h : r.Holds main extra) (claim : Claim) :
    (r.add extraFilter claim).Holds main (some claim) where
  main := by rw [add, SortedMap.get?_insert, if_neg mainFilter_ne_extraFilter.symm, h.main]
  extra := by rw [add, SortedMap.get?_insert, if_pos rfl]
  others := by
    intro name hmain hextra
    rw [add, SortedMap.get?_insert, if_neg hextra.symm, h.others name hmain hextra]

/-- The main filter is removed. -/
theorem removeMain (h : r.Holds main extra) : (r.remove mainFilter).Holds none extra where
  main := by rw [remove, SortedMap.get?_erase, if_pos rfl]
  extra := by rw [remove, SortedMap.get?_erase, if_neg mainFilter_ne_extraFilter, h.extra]
  others := by
    intro name hmain hextra
    rw [remove, SortedMap.get?_erase, if_neg hmain.symm, h.others name hmain hextra]

/-- The extra filter is removed. -/
theorem removeExtra (h : r.Holds main extra) : (r.remove extraFilter).Holds main none where
  main := by rw [remove, SortedMap.get?_erase, if_neg mainFilter_ne_extraFilter.symm, h.main]
  extra := by rw [remove, SortedMap.get?_erase, if_pos rfl]
  others := by
    intro name hmain hextra
    rw [remove, SortedMap.get?_erase, if_neg hextra.symm, h.others name hmain hextra]

/-- The two claims say all that is installed. -/
theorem filters_eq {r' : Registry} (h : r.Holds main extra) (h' : r'.Holds main extra) :
    r.filters = r'.filters := by
  refine SortedMap.eq_of_get?_eq fun name => ?_
  by_cases hmain : name = mainFilter
  · rw [hmain, h.main, h'.main]
  · by_cases hextra : name = extraFilter
    · rw [hextra, h.extra, h'.extra]
    · rw [h.others name hmain hextra, h'.others name hmain hextra]

/-- A device is claimed by the main filter or by the other. -/
theorem claims_iff (h : r.Holds main extra) (d : Device) :
    r.claims d = true ↔ (∃ c, main = some c ∧ c d = true) ∨ ∃ c, extra = some c ∧ c d = true := by
  rw [claims, List.any_eq_true]
  constructor
  · intro hparts
    obtain ⟨c, hc, hd⟩ := hparts
    obtain ⟨name, hname⟩ := SortedMap.mem_values_iff.1 hc
    by_cases hmain : name = mainFilter
    · subst hmain
      exact Or.inl ⟨c, h.main.symm.trans hname, hd⟩
    · by_cases hextra : name = extraFilter
      · subst hextra
        exact Or.inr ⟨c, h.extra.symm.trans hname, hd⟩
      · rw [h.others name hmain hextra] at hname
        cases hname
  · intro hcases
    rcases hcases with ⟨c, hc, hd⟩ | ⟨c, hc, hd⟩
    · exact ⟨c, SortedMap.mem_values_iff.2 ⟨mainFilter, h.main.trans hc⟩, hd⟩
    · exact ⟨c, SortedMap.mem_values_iff.2 ⟨extraFilter, h.extra.trans hc⟩, hd⟩

/-- The main filter is there if it has a claim. -/
theorem has_main (h : r.Holds main extra) : r.has mainFilter = main.isSome := by
  rw [has, SortedMap.contains, h.main]

/-- So is the extra filter. -/
theorem has_extra (h : r.Holds main extra) : r.has extraFilter = extra.isSome := by
  rw [has, SortedMap.contains, h.extra]

end Holds

end Registry

end FleetSharding
