import FleetSharding.Etcd.Server
import FleetSharding.Proofs.Etcd.Store

/-!
# What comes of a request to a server that may fail

A request either fails, and the store is as it was, or it is served.  In both cases the server has
received one call more, of the request's method, and a fault of the method is used up.

* `request_cases`: what comes of a request.
* `lastMethod_request`: the last call is the request's.
* `lookup_request`, `request_of_lookup_eq_none`: as long as there is no fault of a method, its
  requests are served.
* `serve_congr`, `delete_eq`: what that does to a store depends on what it holds, and on the rivals.
-/

namespace FleetSharding.Etcd

/-- The method of a call. -/
def Call.method? : Call → Option Method
  | .request r => some r.method
  | .claim .. => some .claim
  | .ping _ => some .ping
  | .watch _ => some .watch
  | .faulty m _ => some m
  | .connect _ | .watchCancel => none

namespace Server

variable {s : Server} {q : Request}

/-- The method of the last call that was received. -/
def lastMethod? (s : Server) : Option Method := s.calls.head?.bind Call.method?

/-- **What comes of a request**: it fails, or it is served. -/
theorem request_cases (s : Server) (q : Request) :
    (∃ call o, call.method? = some q.method ∧ (o = .refused ∨ o = .silent) ∧
        s.request q = ((s.takeFault q.method).2.receive call, o)) ∨
      s.request q = (s.takeFault q.method).2.serve q := by
  rw [request]
  rcases s.takeFault q.method with ⟨fault, t⟩
  cases fault with
  | none => exact Or.inr rfl
  | some fault =>
      cases fault with
      | fail => exact Or.inl ⟨_, .refused, rfl, Or.inl rfl, rfl⟩
      | hang => exact Or.inl ⟨_, .silent, rfl, Or.inr rfl, rfl⟩
      | unsent => exact Or.inr rfl
      | ends =>
          dsimp only
          split
          · exact Or.inl ⟨_, .refused, rfl, Or.inl rfl, rfl⟩
          · exact Or.inr rfl

/-- Whoever is served gets an answer. -/
theorem exists_answer (s : Server) (q : Request) : ∃ a, (s.serve q).2 = .answered a :=
  ⟨_, rfl⟩

/-- A claim is judged when the rivals have written. -/
theorem serve_claim (s : Server) (key value : String) (lease : Nat) :
    (s.serve (.claim key value lease)).2 =
        .answered (s.race.store.serve (.claim key value lease)).2 ∧
      (s.serve (.claim key value lease)).1.store =
        (s.race.store.serve (.claim key value lease)).1 :=
  ⟨rfl, rfl⟩

/-- A request that stays without an answer leaves the store as it is. -/
theorem store_request_of_silent (h : (s.request q).2 = .silent) :
    (s.request q).1.store = s.store := by
  rcases request_cases s q with ⟨call, o, -, -, hr⟩ | hr
  · rw [hr]
    rfl
  · obtain ⟨a, ha⟩ := exists_answer (s.takeFault q.method).2 q
    rw [hr, ha] at h
    cases h

/-- The last call is the request's. -/
theorem lastMethod_request (s : Server) (q : Request) :
    (s.request q).1.lastMethod? = some q.method := by
  rcases request_cases s q with ⟨call, o, hcall, -, hr⟩ | hr
  · rw [hr]
    exact hcall
  · rw [hr]
    cases q with
    | claim key value lease =>
        simp only [serve, lastMethod?, receive, List.head?_cons, Option.bind_some, Store.serve]
        split <;> rfl
    | _ => rfl

/-- A fault of another method is not used up. -/
theorem lookup_takeFault {m m' : Method} (hne : m' ≠ m) :
    (s.takeFault m).2.faults.lookup m' = s.faults.lookup m' := by
  show (s.faults.filter (·.1 != m)).lookup m' = s.faults.lookup m'
  induction s.faults with
  | nil => rfl
  | cons f fs ih =>
      by_cases hf : f.1 = m
      · have hother : (m' == f.1) = false := by simpa [hf] using hne
        rw [List.filter_cons_of_neg (by simpa using hf), List.lookup_cons, hother, ih]
      · rw [List.filter_cons_of_pos (by simpa using hf), List.lookup_cons, List.lookup_cons, ih]

/-- A fault that a call has met is used up. -/
theorem lookup_takeFault_self (s : Server) (m : Method) :
    (s.takeFault m).2.faults.lookup m = none := by
  show (s.faults.filter (·.1 != m)).lookup m = none
  induction s.faults with
  | nil => rfl
  | cons f fs ih =>
      by_cases hf : f.1 = m
      · rw [List.filter_cons_of_neg (by simpa using hf), ih]
      · have hother : (m == f.1) = false := by simpa using Ne.symm hf
        rw [List.filter_cons_of_pos (by simpa using hf), List.lookup_cons, hother, ih]

/-- What is not made to fail is not made to fail by a call. -/
theorem lookup_takeFault_of_eq_none {m' : Method} (h : s.faults.lookup m' = none) (m : Method) :
    (s.takeFault m).2.faults.lookup m' = none := by
  by_cases hm : m' = m
  · rw [hm, lookup_takeFault_self]
  · rw [lookup_takeFault hm, h]

/-- Rivals bring no faults about. -/
theorem race_faults (s : Server) : s.race.faults = s.faults := by
  have hwrites : ∀ (rivals : List (String × String)) (s : Server),
      (rivals.foldl (fun s r => s.write r.1 r.2) s).faults = s.faults := by
    intro rivals
    induction rivals with
    | nil => exact fun s => rfl
    | cons r rivals ih => exact fun s => ih _
  exact hwrites s.rivals s

/-- Nor does serving a request. -/
theorem serve_faults (s : Server) (q : Request) : (s.serve q).1.faults = s.faults := by
  cases q with
  | claim key value lease => exact s.race_faults
  | _ => rfl

/-- No request brings a fault about. -/
theorem lookup_request {m : Method} (h : s.faults.lookup m = none) (q : Request) :
    (s.request q).1.faults.lookup m = none := by
  rcases request_cases s q with ⟨call, o, -, -, hr⟩ | hr
  · rw [hr]
    exact lookup_takeFault_of_eq_none h q.method
  · rw [hr, serve_faults]
    exact lookup_takeFault_of_eq_none h q.method

/-- A request without a fault is served. -/
theorem request_of_lookup_eq_none (h : s.faults.lookup q.method = none) :
    s.request q = (s.takeFault q.method).2.serve q := by
  rw [request, takeFault, h]

/-- What rivals write is put into the store without a lease. -/
theorem store_race (s : Server) :
    s.race.store = s.rivals.foldl (fun store r => store.put r.1 r.2 none) s.store := by
  have hwrites : ∀ (rivals : List (String × String)) (s : Server),
      (rivals.foldl (fun s r => s.write r.1 r.2) s).store =
        rivals.foldl (fun store r => store.put r.1 r.2 none) s.store := by
    intro rivals
    induction rivals with
    | nil => exact fun s => rfl
    | cons r rivals ih => exact fun s => ih (s.write r.1 r.2)
  exact hwrites s.rivals s

/-- What serving a request does to a store depends on what it holds, and on the rivals. -/
theorem serve_congr {s' : Server} (hstore : s'.store = s.store) (hrivals : s'.rivals = s.rivals)
    (q : Request) :
    (s'.serve q).1.store = (s.serve q).1.store ∧ (s'.serve q).1.rivals = (s.serve q).1.rivals := by
  cases q with
  | claim key value lease =>
      have hrace : s'.race.store = s.race.store := by rw [store_race, store_race, hstore, hrivals]
      rw [(serve_claim s' key value lease).2, (serve_claim s key value lease).2, hrace]
      exact ⟨rfl, rfl⟩
  | grant ttl => exact ⟨congrArg (fun store => (store.serve (.grant ttl)).1) hstore, hrivals⟩
  | revoke lease => exact ⟨congrArg (fun store => (store.serve (.revoke lease)).1) hstore, hrivals⟩
  | range front => exact ⟨hstore, hrivals⟩
  | put key value lease =>
      exact ⟨congrArg (fun store => (store.serve (.put key value lease)).1) hstore, hrivals⟩
  | keepAlive lease => exact ⟨hstore, hrivals⟩

/-- A removal, too, depends on what the store holds, and the rivals stay. -/
theorem delete_eq (s : Server) (key : String) :
    (s.delete key).store = s.store.delete key ∧ (s.delete key).rivals = s.rivals := by
  unfold delete Store.delete
  split
  · exact ⟨rfl, rfl⟩
  · exact ⟨rfl, rfl⟩

end Server

end FleetSharding.Etcd
