import FleetSharding.Etcd.Client
import FleetSharding.Proofs.Etcd.Enrolment
import FleetSharding.Proofs.Etcd.Leases

/-!
# What a registration leaves in the store

A node that registers takes a lease and writes one record on it; after that it asks for one thing
more, the stream that keeps the lease alive.  A registration that fails before its record is written
has left nothing, one that fails at the stream has left the record.

* `Registration.Trail`: what a registration has left at each place it may be at.
* `trail_receive`: how it goes on with a request.
* `Client.trail_follow`: so it does up to its end.
* `Client.register_ok`, `Client.register_error`: what is left then.
-/

namespace FleetSharding.Etcd

namespace Registration

/-- The record of a registration stands on its lease. -/
def Written (lease : Nat) (r : Registrant) (slot : Nat) (s : Store) : Prop :=
  ∃ created, s.records.get? (r.key slot) = some ⟨r.value, created, some lease⟩

/-- What a registration has left in the store, at each place it may be at; `lease` is the next lease
that was to be granted when it began. -/
inductive Trail (lease : Nat) (r : Registrant) (s : Server) : Registration → Prop where
  | fresh (hfree : s.store.HangsOnly (· ≠ lease)) (hgranted : s.store.granted + 1 = lease) :
      Trail lease r s .start
  /-- It has its lease and has written nothing. -/
  | leased {g : Registration} (hfree : s.store.HangsOnly (· ≠ lease))
      (hlease : g.lease? = some lease) (hslot : g.written? = none) : Trail lease r s g
  | written {slot : Nat} (hwritten : Written lease r slot s.store) :
      Trail lease r s (.opening lease slot)
  | registered {slot : Nat} (hwritten : Written lease r slot s.store) :
      Trail lease r s (.ended (.ok (r.session lease slot)))
  /-- It failed, and nothing is left. -/
  | clean {e : DiscoveryError} (hfree : s.store.HangsOnly (· ≠ lease))
      (hlast : s.lastMethod? ≠ some .keepAlive) : Trail lease r s (.ended (.error e))
  /-- It failed behind its record. -/
  | stuck {e : DiscoveryError} {slot : Nat} (hwritten : Written lease r slot s.store)
      (hlast : s.lastMethod? = some .keepAlive) : Trail lease r s (.ended (.error e))

variable {lease : Nat} {r : Registrant} {s s' : Server} {g : Registration} {q : Request}

/-- A trail is seen in the store and in the last call. -/
theorem Trail.congr (h : Trail lease r s g) (hstore : s'.store = s.store)
    (hcalls : s'.calls = s.calls) : Trail lease r s' g := by
  have hlast : s'.lastMethod? = s.lastMethod? := by rw [Server.lastMethod?, hcalls]; rfl
  cases h with
  | fresh hfree hgranted => exact .fresh (hstore ▸ hfree) (hstore ▸ hgranted)
  | leased hfree hlease hslot => exact .leased (hstore ▸ hfree) hlease hslot
  | written hwritten => exact .written (hstore ▸ hwritten)
  | registered hwritten => exact .registered (hstore ▸ hwritten)
  | clean hfree h => exact .clean (hstore ▸ hfree) (hlast ▸ h)
  | stuck hwritten h => exact .stuck (hstore ▸ hwritten) (hlast ▸ h)

/-- Only behind its record does a registration ask for the stream. -/
theorem method_ne_keepAlive (hrequest : g.request? r = some q) (hslot : g.written? = none) :
    some q.method ≠ some Method.keepAlive := by
  cases g with
  | opening lease slot => cases hslot
  | ended result => cases hrequest
  | _ => cases hrequest; exact nofun

/-- A request that fails leaves the store as it is. -/
theorem Trail.fail (h : Trail lease r s g) (hrequest : g.request? r = some q)
    (hstore : s'.store = s.store) (hlast : s'.lastMethod? = some q.method) (e : DiscoveryError) :
    Trail lease r s' (.ended (.error e)) := by
  cases h with
  | fresh hfree _ =>
      refine .clean (hstore ▸ hfree) ?_
      rw [hlast]
      exact method_ne_keepAlive hrequest rfl
  | leased hfree _ hslot =>
      refine .clean (hstore ▸ hfree) ?_
      rw [hlast]
      exact method_ne_keepAlive hrequest hslot
  | written hwritten =>
      cases hrequest
      exact .stuck (hstore ▸ hwritten) hlast
  | registered => cases hrequest
  | clean => cases hrequest
  | stuck => cases hrequest

/-- A lease and nothing written stay so while slots are looked for. -/
theorem trail_claimFrom (hfree : s.store.HangsOnly (· ≠ lease)) (first : Nat)
    (listed : List Member) : Trail lease r s (r.claimFrom lease first listed) := by
  unfold Registrant.claimFrom
  split
  · exact .leased hfree rfl rfl
  · exact .leased hfree rfl rfl

/-- The members are listed, and a slot is in view or none is free. -/
theorem trail_listed (hfree : s.store.HangsOnly (· ≠ lease)) (found : List (String × String)) :
    Trail lease r s (receive r (.listing lease) (.answered (.records found))).1 := by
  simp only [receive, answer]
  split
  · exact .leased hfree rfl rfl
  · exact trail_claimFrom hfree 0 _

/-- A record that is put on the lease is written. -/
theorem written_put (store : Store) (slot : Nat) :
    Written lease r slot (store.put (r.key slot) r.value (some lease)) := by
  rw [Written, Store.get?_put, if_pos rfl]
  exact ⟨_, rfl⟩

/-- A request that is served. -/
theorem Trail.serve (h : Trail lease r s g) (hrequest : g.request? r = some q) :
    Trail lease r (s.serve q).1 (receive r g (s.serve q).2).1 := by
  cases h with
  | fresh hfree hgranted =>
      cases hrequest
      exact .leased hfree (congrArg some hgranted) rfl
  | leased hfree hlease hslot =>
      cases g with
      | start => cases hlease
      | opening l slot => cases hslot
      | ended result => cases hrequest
      | listing l =>
          cases hrequest
          cases hlease
          have hkept : (s.serve (.range r.front)).1.store.HangsOnly (· ≠ lease) := hfree
          exact trail_listed hkept _
      | adopting l slot =>
          cases hrequest
          cases hlease
          exact .written (written_put s.store slot)
      | claiming l slot listed =>
          cases hrequest
          cases hlease
          have hraced : s.race.store.HangsOnly (· ≠ lease) := Server.hangsOnly_race hfree
          obtain ⟨houtcome, hstore⟩ := s.serve_claim (r.key slot) r.value lease
          rw [houtcome]
          by_cases htaken : s.race.store.records.contains (r.key slot) = true
          · -- Somebody else has it by now.
            rw [Store.serve, if_pos htaken] at hstore ⊢
            exact trail_claimFrom (hstore ▸ hraced) _ _
          · rw [Store.serve, if_neg htaken] at hstore ⊢
            exact .written (hstore ▸ written_put s.race.store slot)
      | yielding l =>
          cases hrequest
          have hlast : (s.serve (.revoke l)).1.lastMethod? = some .revoke := rfl
          have hwrites : ∀ on, (Request.revoke l).writesOn? = some on → on ≠ lease := by
            intro on hon
            cases hon
          exact .clean (Server.hangsOnly_serve hfree hwrites) (by rw [hlast]; decide)
  | written hwritten =>
      cases hrequest
      exact .registered hwritten
  | registered => cases hrequest
  | clean => cases hrequest
  | stuck => cases hrequest

/-- A request, whatever comes of it. -/
theorem Trail.request (h : Trail lease r s g) (hrequest : g.request? r = some q) :
    Trail lease r (s.request q).1 (receive r g (s.request q).2).1 := by
  have hlast := s.lastMethod_request q
  rcases s.request_cases q with ⟨call, o, -, ho, hr⟩ | hr
  · have hfails : ∃ e, (receive r g o).1 = .ended (.error e) := by
      rcases ho with rfl | rfl
      · cases g with
        | ended result => cases hrequest
        | _ => exact ⟨_, rfl⟩
      · cases g with
        | ended result => cases hrequest
        | _ => exact ⟨_, rfl⟩
    obtain ⟨e, he⟩ := hfails
    have hstore : ((s.takeFault q.method).2.receive call).store = s.store := rfl
    rw [hr] at hlast ⊢
    dsimp only at hlast ⊢
    rw [he]
    exact h.fail hrequest hstore hlast e
  · have hready : Trail lease r (s.takeFault q.method).2 g := h.congr rfl rfl
    rw [hr]
    exact hready.serve hrequest

/-- A node that waits for an answer without end has a lease and nothing written. -/
theorem Trail.wait (h : Trail lease r s g) (hpatient : g.isPatient = true)
    (hstore : s'.store = s.store) : Trail lease r s' g := by
  cases h with
  | leased hfree hlease hslot => exact .leased (hstore ▸ hfree) hlease hslot
  | fresh => cases hpatient
  | written => cases hpatient
  | registered => cases hpatient
  | clean => cases hpatient
  | stuck => cases hpatient

end Registration

namespace Client

open Registration (Trail Written)

/-- What a registration does to a client apart from the store: it is configured as it was, has the
session, the watch and the signs of life that it had, and has no more faults ahead. -/
structure Stays (c c' : Client) : Prop where
  registrant : c'.registrant = c.registrant
  session : c'.session = c.session
  keepAlive : c'.keepAlive = c.keepAlive
  watch : c'.watch = c.watch
  faults : ∀ m, c.server.faults.lookup m = none → c'.server.faults.lookup m = none

variable {c c' c'' : Client} {lease : Nat} {g : Registration}

theorem Stays.trans (h : c.Stays c') (h' : c'.Stays c'') : c.Stays c'' where
  registrant := h'.registrant.trans h.registrant
  session := h'.session.trans h.session
  keepAlive := h'.keepAlive.trans h.keepAlive
  watch := h'.watch.trans h.watch
  faults m hm := h'.faults m (h.faults m hm)

/-- A request leaves a client as it was, but for the server. -/
theorem stays_request (c : Client) (q : Request) : c.Stays (c.request q).2 where
  registrant := rfl
  session := rfl
  keepAlive := rfl
  watch := rfl
  faults _ hm := Server.lookup_request hm q

/-- So does a report. -/
theorem stays_report (c : Client) (es : List Event) : c.Stays (c.report es) :=
  ⟨rfl, rfl, rfl, rfl, fun _ hm => hm⟩

/-- A client without a session and a watch does nothing while it waits. -/
theorem await_eq (hkeepAlive : c.keepAlive = none) (hwatch : c.watch = none) :
    ∃ clock, c.await = { c with server := { c.server with changes := [] }, clock } := by
  have hsettle : c.settle = { c with server := { c.server with changes := [] } } := by
    have hinput : c.watchInput? = none := by rw [watchInput?, hwatch]
    rw [settle, watchInputs, runWatch, hinput]
  have htimers : ∀ nanos, c.timersIn nanos = watchInputs := by
    intro nanos
    rw [timersIn, hkeepAlive]
    rfl
  have hdue : ({ c with server := { c.server with changes := [] } } : Client).nextDue? = none := by
    simp only [nextDue?, hkeepAlive, hwatch, Option.map_none]
  rw [await, elapse, hsettle, htimers, watchInputs, runTo, hdue]
  exact ⟨_, rfl⟩

/-- So does waiting in vain, for a client with neither a watch nor a lease to keep alive. -/
theorem stays_await (hkeepAlive : c.keepAlive = none) (hwatch : c.watch = none) :
    c.Stays c.await := by
  obtain ⟨clock, hc⟩ := await_eq hkeepAlive hwatch
  rw [hc]
  exact ⟨rfl, rfl, rfl, rfl, fun _ hm => hm⟩

/-- And its trail is what it was. -/
theorem trail_await {r : Registrant} (hkeepAlive : c.keepAlive = none) (hwatch : c.watch = none)
    (h : Trail lease r c.server g) : Trail lease r c.await.server g := by
  obtain ⟨clock, hc⟩ := await_eq hkeepAlive hwatch
  rw [hc]
  exact h.congr rfl rfl

/-- **A registration is followed by what it leaves**, request by request. -/
theorem trail_follow (n : Nat) (hkeepAlive : c.keepAlive = none) (hwatch : c.watch = none)
    (h : Trail lease c.registrant c.server g) :
    c.Stays (follow n g c).2 ∧
      Trail lease c.registrant (follow n g c).2.server (follow n g c).1 := by
  induction n generalizing g c with
  | zero => exact ⟨⟨rfl, rfl, rfl, rfl, fun _ hm => hm⟩, h⟩
  | succ n ih =>
      rw [follow]
      split
      · exact ⟨⟨rfl, rfl, rfl, rfl, fun _ hm => hm⟩, h⟩
      · next q hrequest =>
        have hstays := c.stays_request q
        have hgoes : Trail lease c.registrant (c.request q).2.server
            (g.receive c.registrant (c.request q).1).1 := h.request hrequest
        -- From a client that stays as it is the rest goes on in the same way.
        have hnext : ∀ {c' : Client} {g' : Registration}, Trail lease c.registrant c'.server g' →
            c.Stays c' → ∀ events : List Event,
              c.Stays (follow n g' (c'.report events)).2 ∧
                Trail lease c.registrant (follow n g' (c'.report events)).2.server
                  (follow n g' (c'.report events)).1 := by
          intro c' g' htrail hc' events
          have hreported := hc'.trans (c'.stays_report events)
          have hready : Trail lease (c'.report events).registrant (c'.report events).server g' :=
            hreported.registrant ▸ htrail
          obtain ⟨hrest, hend⟩ := ih (hreported.keepAlive.trans hkeepAlive)
            (hreported.watch.trans hwatch) hready
          exact ⟨hreported.trans hrest, hreported.registrant ▸ hend⟩
        split
        · next asked hasked =>
          rw [hasked] at hstays hgoes
          split
          · -- The answer is waited for without end.
            next hpatient =>
            have hstore : asked.server.store = c.server.store := by
              have hsilent : (c.server.request q).2 = .silent := congrArg Prod.fst hasked
              have hserver : asked.server = (c.server.request q).1 :=
                congrArg (fun x => x.2.server) hasked.symm
              rw [hserver, Server.store_request_of_silent hsilent]
            exact ⟨hstays, h.wait hpatient hstore⟩
          · have hkeepAlive' := hstays.keepAlive.trans hkeepAlive
            have hwatch' := hstays.watch.trans hwatch
            have hwaited := hstays.trans (stays_await hkeepAlive' hwatch')
            rw [hstays.registrant]
            exact hnext (trail_await hkeepAlive' hwatch' hgoes) hwaited _
        · next o asked hasked =>
          rw [hasked] at hstays hgoes
          rw [hstays.registrant]
          exact hnext hgoes hstays _

/-- Nobody has used the client yet, and no record hangs on the lease that is to be granted next. -/
structure Fresh (c : Client) : Prop where
  session : c.session = none
  keepAlive : c.keepAlive = none
  watch : c.watch = none
  free : ¬ c.server.store.HoldsOn (c.server.store.granted + 1)

/-- What the registration of a fresh client has left in the end. -/
theorem Fresh.trail (h : c.Fresh) :
    c.Stays (follow c.requestsOf .start c).2 ∧
      Trail (c.server.store.granted + 1) c.registrant (follow c.requestsOf .start c).2.server
        (follow c.requestsOf .start c).1 :=
  trail_follow c.requestsOf h.keepAlive h.watch (.fresh (Store.not_holdsOn_iff.1 h.free) rfl)

/-- **A client that is registered** has its record in the store, on the session's lease. -/
theorem Fresh.register_ok (h : c.Fresh) {m : Member} (hregister : c.register = (some (.ok m), c')) :
    ∃ slot,
      c'.session = some (c.registrant.session (c.server.store.granted + 1) slot) ∧
      Written (c.server.store.granted + 1) c.registrant slot c'.server.store ∧
      ∀ m, c.server.faults.lookup m = none → c'.server.faults.lookup m = none := by
  obtain ⟨hstays, htrail⟩ := h.trail
  rw [register, h.session] at hregister
  rcases hfollow : follow c.requestsOf .start c with ⟨g, left⟩
  rw [hfollow] at hregister hstays htrail
  dsimp only at hregister hstays htrail
  cases htrail with
  | registered hwritten =>
      cases hregister
      exact ⟨_, rfl, hwritten, hstays.faults⟩
  | fresh => cases hregister
  | written => cases hregister
  | clean => cases hregister
  | stuck => cases hregister
  | leased _ _ hslot =>
      cases g with
      | ended result =>
          cases result with
          | ok s => cases hslot
          | error e => cases hregister
      | _ => cases hregister

/-- **A client that could not register** has left its record exactly if the last thing it asked for
was the stream that keeps its lease alive. -/
theorem Fresh.register_error (h : c.Fresh) {e : DiscoveryError}
    (hregister : c.register = (some (.error e), c')) :
    c'.server.store.HoldsOn (c.server.store.granted + 1) ↔
      c'.server.lastMethod? = some .keepAlive := by
  obtain ⟨hstays, htrail⟩ := h.trail
  rw [register, h.session] at hregister
  rcases hfollow : follow c.requestsOf .start c with ⟨g, left⟩
  rw [hfollow] at hregister hstays htrail
  dsimp only at hregister hstays htrail
  cases htrail with
  | clean hfree hlast =>
      cases hregister
      exact iff_of_false (Store.not_holdsOn_iff.2 hfree) hlast
  | stuck hwritten hlast =>
      cases hregister
      obtain ⟨created, hstands⟩ := hwritten
      exact iff_of_true ⟨_, _, hstands, rfl⟩ hlast
  | registered => cases hregister
  | fresh => cases hregister
  | written => cases hregister
  | leased _ hlease hslot =>
      cases g with
      | ended result =>
          cases result with
          | ok s => cases hslot
          | error e => cases hlease
      | _ => cases hregister

end Client

end FleetSharding.Etcd
