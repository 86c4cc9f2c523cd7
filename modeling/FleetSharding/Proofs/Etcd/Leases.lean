import FleetSharding.Proofs.Etcd.Server

/-!
# Which leases records hang on

The records of a run hang on the lease that was granted to it.  Requests and whatever else is done
to a store add such a record only with the lease in hand, and the end of the lease takes all of
them.

* `Store.HangsOnly`: the leases that records hang on have a property.
* `Store.HoldsOn`: some record hangs on a lease.
* `hangsOnly_put`, `hangsOnly_endLeases`, `hangsOnly_serve`, `Server.hangsOnly_serve`: what is kept.
-/

namespace FleetSharding.Etcd

/-- The lease on which a request writes a record. -/
def Request.writesOn? : Request → Option Nat
  | .put _ _ lease | .claim _ _ lease => some lease
  | _ => none

namespace Store

variable {s : Store} {p q : Nat → Prop}

/-- Whatever lease a record hangs on has a property. -/
def HangsOnly (s : Store) (p : Nat → Prop) : Prop :=
  ∀ key r lease, s.records.get? key = some r → r.lease = some lease → p lease

/-- Some record hangs on a lease. -/
def HoldsOn (s : Store) (lease : Nat) : Prop :=
  ∃ key r, s.records.get? key = some r ∧ r.lease = some lease

/-- A store holds nothing on a lease if everything hangs on others. -/
theorem not_holdsOn_iff {lease : Nat} : ¬ s.HoldsOn lease ↔ s.HangsOnly (· ≠ lease) := by
  constructor
  · rintro h key r other hr hother rfl
    exact h ⟨key, r, hr, hother⟩
  · rintro h ⟨key, r, hr, hlease⟩
    exact h key r lease hr hlease rfl

/-- What hangs on some leases only hangs only on more. -/
theorem HangsOnly.mono (h : s.HangsOnly p) (hpq : ∀ lease, p lease → q lease) : s.HangsOnly q :=
  fun key r lease hr hlease => hpq lease (h key r lease hr hlease)

/-- A key that is put hangs on the lease that it is put on. -/
theorem hangsOnly_put (h : s.HangsOnly p) (key value : String) {on : Option Nat}
    (hon : ∀ lease, on = some lease → p lease) : (s.put key value on).HangsOnly p := by
  intro k r lease hr hlease
  rw [get?_put] at hr
  split at hr
  · cases hr
    exact hon lease hlease
  · exact h k r lease hr hlease

/-- What is removed hangs on none. -/
theorem hangsOnly_delete (h : s.HangsOnly p) (key : String) : (s.delete key).HangsOnly p := by
  unfold delete
  split
  · intro k r lease hr hlease
    have hr' := SortedMap.get?_erase s.records key k ▸ hr
    split at hr'
    · cases hr'
    · exact h k r lease hr' hlease
  · exact h

/-- No record hangs on a lease that has ended. -/
theorem hangsOnly_endLeases (h : s.HangsOnly p) (ended : Nat → Bool) :
    (s.endLeases ended).HangsOnly fun lease => p lease ∧ ended lease = false := by
  intro key r lease hr hlease
  rw [get?_endLeases, Option.filter_eq_some_iff, hlease] at hr
  exact ⟨h key r lease hr.1 hlease, by simpa using hr.2⟩

/-- A request adds no record on another lease than its own. -/
theorem hangsOnly_serve (h : s.HangsOnly p) {r : Request}
    (hon : ∀ lease, r.writesOn? = some lease → p lease) : (s.serve r).1.HangsOnly p := by
  cases r with
  | grant ttl => exact h
  | range front => exact h
  | keepAlive lease => exact h
  | revoke lease => exact (hangsOnly_endLeases h _).mono fun _ hlease => hlease.1
  | put key value lease => exact hangsOnly_put h key value hon
  | claim key value lease =>
      simp only [serve]
      split
      · exact h
      · exact hangsOnly_put h key value hon

end Store

namespace Server

variable {s : Server} {p : Nat → Prop}

/-- What is written from outside hangs on no lease. -/
theorem hangsOnly_write (h : s.store.HangsOnly p) (key value : String) :
    (s.write key value).store.HangsOnly p :=
  Store.hangsOnly_put h key value nofun

/-- Rivals write without a lease. -/
theorem hangsOnly_race (h : s.store.HangsOnly p) : s.race.store.HangsOnly p := by
  have hwrites : ∀ (rivals : List (String × String)) (s : Server), s.store.HangsOnly p →
      (rivals.foldl (fun s r => s.write r.1 r.2) s).store.HangsOnly p := by
    intro rivals
    induction rivals with
    | nil => exact fun s h => h
    | cons r rivals ih => exact fun s h => ih _ (hangsOnly_write h r.1 r.2)
  exact hwrites s.rivals s h

/-- A request that is served. -/
theorem hangsOnly_serve (h : s.store.HangsOnly p) {r : Request}
    (hon : ∀ lease, r.writesOn? = some lease → p lease) : (s.serve r).1.store.HangsOnly p := by
  cases r with
  | claim key value lease => exact Store.hangsOnly_serve (hangsOnly_race h) hon
  | _ => exact Store.hangsOnly_serve h hon

end Server

end FleetSharding.Etcd
