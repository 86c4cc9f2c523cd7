import FleetSharding.Etcd.Store
import FleetSharding.Proofs.SortedMap

/-!
# What a request leaves of the store

The end of leases takes exactly the records that hang on them, and a claim never touches a record
that is there.  So a record whose lease is alive goes only when somebody puts another in its place.

* `get?_endLeases`: the records that are left when leases end.
* `get?_serve`: a record stays through a request, unless it is put over or its lease is ended.
* `mem_leases_serve`: the leases that are alive after a request.
-/

namespace FleetSharding.Etcd.Store

variable {s : Store} {key : String} {r : Stored} {lease : Nat}

/-- What a put leaves at a key. -/
theorem get?_put (s : Store) (key k value : String) (on : Option Nat) :
    (s.put key value on).records.get? k =
      if key = k then
        some ⟨value, ((s.records.get? key).map (·.created)).getD (s.revision + 1), on⟩
      else s.records.get? k :=
  SortedMap.get?_insert ..

/-- The keys on some leases are those whose records hang on one. -/
theorem mem_keysOn_iff {ended : Nat → Bool} :
    key ∈ s.keysOn ended ↔ ∃ r, s.records.get? key = some r ∧ r.lease.any ended = true := by
  simp only [keysOn, List.mem_map, List.mem_filter]
  constructor
  · rintro ⟨⟨k, r⟩, ⟨he, hended⟩, rfl⟩
    exact ⟨r, SortedMap.mem_entries_iff.1 he, hended⟩
  · rintro ⟨r, hr, hended⟩
    exact ⟨(key, r), ⟨SortedMap.mem_entries_iff.2 hr, hended⟩, rfl⟩

/-- **The end of leases takes exactly what hangs on them.** -/
theorem get?_endLeases (s : Store) (ended : Nat → Bool) (key : String) :
    (s.endLeases ended).records.get? key =
      (s.records.get? key).filter fun r => !r.lease.any ended := by
  rw [endLeases, SortedMap.get?_foldl_erase]
  cases hr : s.records.get? key with
  | none => simp
  | some r => cases hended : r.lease.any ended <;> simp [mem_keysOn_iff, hr, hended, Option.filter]

/-- The leases that are left are those that have not ended. -/
theorem mem_leases_endLeases {ended : Nat → Bool} :
    lease ∈ (s.endLeases ended).leases ↔ lease ∈ s.leases ∧ ended lease = false := by
  simp [endLeases]

/-- What hangs on a lease stays as long as the lease. -/
theorem get?_endLeases_of_alive {ended : Nat → Bool} (hr : s.records.get? key = some r)
    (hlease : r.lease = some lease) (halive : ended lease = false) :
    (s.endLeases ended).records.get? key = some r := by
  rw [get?_endLeases, hr, Option.filter_some, hlease]
  simp [halive]

/-- A record stays through a request, unless another is put in its place or its lease is ended. -/
theorem get?_serve (hr : s.records.get? key = some r) (q : Request) :
    (s.serve q).1.records.get? key = some r ∨ (∃ value on, q = .put key value on) ∨
      ∃ on, q = .revoke on ∧ r.lease = some on := by
  cases q with
  | grant ttl => exact Or.inl hr
  | range front => exact Or.inl hr
  | keepAlive on => exact Or.inl hr
  | revoke on =>
      by_cases hlease : r.lease = some on
      · exact Or.inr (Or.inr ⟨on, rfl, hlease⟩)
      · left
        show (s.endLeases (· == on)).records.get? key = some r
        have hother : (r.lease.any fun l => l == on) = false := by
          cases hl : r.lease with
          | none => rfl
          | some l => simpa [hl] using hlease
        rw [get?_endLeases, hr, Option.filter_some, hother]
        rfl
  | put k value on =>
      by_cases hk : k = key
      · exact Or.inr (Or.inl ⟨value, on, by rw [hk]⟩)
      · left
        show (s.put k value (some on)).records.get? key = some r
        rw [get?_put, if_neg hk, hr]
  | claim k value on =>
      left
      simp only [serve]
      split
      · exact hr
      · next hfree =>
        have hk : k ≠ key := by
          rintro rfl
          rw [SortedMap.contains, hr] at hfree
          exact hfree rfl
        rw [get?_put, if_neg hk, hr]

/-- A lease is alive after a request if it was before, unless it is the one granted. -/
theorem mem_leases_serve {q : Request} (h : lease ∈ (s.serve q).1.leases) :
    (lease ∈ s.leases ∧ q ≠ .revoke lease) ∨ ((∃ ttl, q = .grant ttl) ∧ lease = s.granted + 1) := by
  cases q with
  | grant ttl =>
      rcases List.mem_cons.1 h with rfl | h
      · exact Or.inr ⟨⟨ttl, rfl⟩, rfl⟩
      · exact Or.inl ⟨h, nofun⟩
  | revoke on =>
      obtain ⟨hbefore, hother⟩ := mem_leases_endLeases.1 h
      refine Or.inl ⟨hbefore, ?_⟩
      rintro ⟨⟩
      simp at hother
  | range front => exact Or.inl ⟨h, nofun⟩
  | put k value on => exact Or.inl ⟨h, nofun⟩
  | keepAlive on => exact Or.inl ⟨h, nofun⟩
  | claim k value on =>
      refine Or.inl ⟨?_, nofun⟩
      simp only [serve] at h
      split at h <;> exact h

/-- Leases are numbered on. -/
theorem granted_le_serve (s : Store) (q : Request) : s.granted ≤ (s.serve q).1.granted := by
  cases q with
  | grant ttl => exact Nat.le_succ _
  | claim k value on =>
      simp only [serve]
      split <;> exact Nat.le_refl _
  | _ => exact Nat.le_refl _

end FleetSharding.Etcd.Store
