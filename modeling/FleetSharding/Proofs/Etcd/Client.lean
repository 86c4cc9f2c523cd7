import FleetSharding.Proofs.Etcd.Registering
import FleetSharding.Simulation.Node
import FleetSharding.Simulation.StoreScript

/-!
# What a client leaves alone

Signs of life, the watch and the listing of members change neither the store nor the session, and no
request of theirs can use up or bring about a fault of removals.  So what a registered node has put
into the store stands until it is removed from outside, or the node gives up its lease.

* `Client.Keeps`: store and session are as they were.
* `keeps_settle`, `keeps_fire`, `keeps_ask`: the watch, the timers and the queries keep them.
* `Interference`: what others do to a store.
* `hangsOnly_meet`, `Enrolled.meet`: they put nothing on a client's lease, and leave it its session.
* `Alike.meet`: what they do to a store depends on what it holds, and not on the client.
* `not_holdsOn_departure`: nothing of a client is left when it has left.
-/

namespace FleetSharding.Etcd.Client

/-- The store, its rivals and the session are as they were, and removals that are accepted still
are. -/
structure Keeps (c c' : Client) : Prop where
  store : c'.server.store = c.server.store
  rivals : c'.server.rivals = c.server.rivals
  session : c'.session = c.session
  accepts : c.server.faults.lookup .revoke = none → c'.server.faults.lookup .revoke = none

variable {c c' c'' : Client}

/-- Whoever does nothing keeps everything. -/
theorem Keeps.refl (c : Client) : c.Keeps c := ⟨rfl, rfl, rfl, id⟩

/-- What is kept by one thing and by the next is kept by both. -/
theorem Keeps.trans (h : c.Keeps c') (h' : c'.Keeps c'') : c.Keeps c'' where
  store := h'.store.trans h.store
  rivals := h'.rivals.trans h.rivals
  session := h'.session.trans h.session
  accepts := h'.accepts ∘ h.accepts

/-- The fault of a call is looked up. -/
theorem keeps_takeFault (c : Client) (m : Method) :
    c.Keeps { c with server := (c.server.takeFault m).2 } where
  store := rfl
  rivals := rfl
  session := rfl
  accepts h := Server.lookup_takeFault_of_eq_none h m

/-- What is kept by each of several effects is kept by all of them. -/
theorem keeps_foldl {α β : Type} {f : Client × α → β → Client × α}
    (hf : ∀ (a : Client × α) (b : β), a.1.Keeps (f a b).1) (bs : List β) (a : Client × α) :
    a.1.Keeps (bs.foldl f a).1 := by
  induction bs generalizing a with
  | nil => exact .refl _
  | cons b bs ih => exact (hf a b).trans (ih (f a b))

/-- The watch gets an input. -/
theorem keeps_tellWatch (c : Client) (i : WatchInput) : c.Keeps (c.tellWatch i).1 := by
  unfold tellWatch
  split
  · exact .refl c
  · next w _ =>
    let stepped := w.step c.discovery.reconnectDelay c.clock i
    have hstepped : c.Keeps { c with watch := some stepped.1 } := ⟨rfl, rfl, rfl, id⟩
    refine hstepped.trans (keeps_foldl ?_ stepped.2 ({ c with watch := some stepped.1 }, []))
    rintro ⟨c, next⟩ e
    cases e with
    | notify => exact ⟨rfl, rfl, rfl, id⟩
    | report e => exact ⟨rfl, rfl, rfl, id⟩
    | measure m => exact ⟨rfl, rfl, rfl, id⟩
    | cancelStream => exact ⟨rfl, rfl, rfl, id⟩
    | openStream =>
        have hkept := c.keeps_takeFault .watch
        dsimp only
        rcases htake : c.server.takeFault .watch with ⟨fault, server⟩
        rw [htake] at hkept
        rcases fault with - | fault
        · exact ⟨hkept.store, hkept.rivals, rfl, hkept.accepts⟩
        · cases fault <;> exact ⟨hkept.store, hkept.rivals, rfl, hkept.accepts⟩

/-- The watch goes on until it has to wait. -/
theorem keeps_runWatch (n : Nat) (is : List WatchInput) (c : Client) :
    c.Keeps (runWatch n is c) := by
  induction n generalizing is c with
  | zero => exact .refl c
  | succ n ih =>
      cases is with
      | cons i is => exact (c.keeps_tellWatch i).trans (ih _ _)
      | nil =>
          rw [runWatch]
          split
          · exact ⟨rfl, rfl, rfl, id⟩
          · have hseen : c.Keeps { c with server := { c.server with changes := [] } } :=
              ⟨rfl, rfl, rfl, id⟩
            exact hseen.trans (ih _ _)

/-- Whatever the watch can do is done. -/
theorem keeps_settle (c : Client) : c.Keeps c.settle := keeps_runWatch watchInputs [] c

/-- A sign of life is sent. -/
theorem keeps_ping (c : Client) (k : KeepAlive) : c.Keeps (c.ping k) :=
  ⟨rfl, rfl, rfl, fun h => Server.lookup_takeFault_of_eq_none h .ping⟩

/-- The timers that are due fire. -/
theorem keeps_fire (c : Client) : c.Keeps c.fire := by
  unfold fire
  dsimp only
  split
  · exact c.keeps_settle
  · next k due _ _ =>
    split
    · exact c.keeps_settle.trans (keeps_ping _ k)
    · exact (c.keeps_ping k).trans (keeps_settle _)
  · next _ k _ _ => exact (c.keeps_ping k).trans (keeps_settle _)

/-- Time passes up to a moment. -/
theorem keeps_runTo (limit n : Nat) (c : Client) : c.Keeps (runTo limit n c) := by
  induction n generalizing c with
  | zero => exact .refl c
  | succ n ih =>
      rw [runTo]
      split
      · next due _ =>
        split
        · have hdue : c.Keeps { c with clock := max c.clock due } := ⟨rfl, rfl, rfl, id⟩
          exact hdue.trans ((keeps_fire _).trans (ih _))
        · exact ⟨rfl, rfl, rfl, id⟩
      · exact ⟨rfl, rfl, rfl, id⟩

/-- All timers that are due up to a moment fire. -/
theorem keeps_fireAt (c : Client) (clock : Nat) : c.Keeps (c.fireAt clock) := by
  have hnow : c.Keeps { c with clock } := ⟨rfl, rfl, rfl, id⟩
  exact hnow.trans ((keeps_settle _).trans (keeps_runTo _ _ _))

/-- The members are asked for. -/
theorem keeps_ask (c : Client) (clock : Nat) : c.Keeps (c.ask clock).1 := by
  have hserver : (c.server.request (.range c.front)).1.store = c.server.store ∧
      (c.server.request (.range c.front)).1.rivals = c.server.rivals := by
    rcases c.server.request_cases (.range c.front) with ⟨call, o, -, -, hr⟩ | hr
    · rw [hr]
      exact ⟨rfl, rfl⟩
    · rw [hr]
      exact ⟨rfl, rfl⟩
  have hasked : c.Keeps (({ c with clock } : Client).request (.range c.front)).2 :=
    ⟨hserver.1, hserver.2, rfl, fun h => Server.lookup_request h (.range c.front)⟩
  unfold ask
  split <;> next hanswer => rw [hanswer] at hasked; exact hasked

/-- A client with a session on a lease, in a store that accepts removals. -/
structure Enrolled (lease : Nat) (c : Client) : Prop where
  session : ∃ s, c.session = some s ∧ s.lease = lease
  accepts : c.server.faults.lookup .revoke = none

variable {lease : Nat}

/-- A client stays enrolled as long as the session is kept. -/
theorem Enrolled.keeps (h : c.Enrolled lease) (hkeeps : c.Keeps c') : c'.Enrolled lease where
  session := hkeeps.session ▸ h.session
  accepts := hkeeps.accepts h.accepts

/-- **A client that has left has left nothing behind.** -/
theorem not_holdsOn_departure (h : c.Enrolled lease) (clock : Nat) :
    ¬ (c.departure clock).2.server.store.HoldsOn lease := by
  obtain ⟨s, hsession, rfl⟩ := h.session
  have hleaves : (({ c with clock } : Client).leave).2.server.store =
      c.server.store.endLeases (· == s.lease) := by
    have haccepted : c.server.request (.revoke s.lease) =
        (c.server.takeFault .revoke).2.serve (.revoke s.lease) :=
      Server.request_of_lookup_eq_none h.accepts
    simp only [leave, hsession, request, haccepted]
    rfl
  have hdeparts : (c.departure clock).2 = (({ c with clock } : Client).leave).2 := by
    unfold departure
    split <;> next hleave => rw [hleave]
  have hany : c.server.store.HangsOnly fun _ => True := fun _ _ _ _ _ => trivial
  rw [hdeparts, hleaves, Store.not_holdsOn_iff]
  exact (Store.hangsOnly_endLeases hany _).mono fun _ hlease => by simpa using hlease.2

/-- What is done to a store beside the requests of one node. -/
inductive Interference where
  | verb (v : StoreVerb)
  /-- Another node's request is served. -/
  | request (r : Request)

/-- The store after something was done to it. -/
def meet (c : Client) : Interference → Client
  | .verb v => c.suffer v
  | .request r => { c with server := (c.server.serve r).1 }

/-- Others write on leases of their own, and removals go on being accepted. -/
def isForeign (lease : Nat) : Interference → Bool
  | .verb (.fault m _) => m != .revoke
  | .verb _ => true
  | .request r => r.writesOn? != some lease

/-- Others put nothing on a client's lease. -/
theorem hangsOnly_meet (h : c.server.store.HangsOnly (· ≠ lease)) {i : Interference}
    (hi : isForeign lease i = true) : (c.meet i).server.store.HangsOnly (· ≠ lease) := by
  cases i with
  | request r =>
      have hforeign : r.writesOn? ≠ some lease := by simpa [isForeign] using hi
      exact Server.hangsOnly_serve h fun on hon heq => hforeign (heq ▸ hon)
  | verb v =>
      cases v with
      | put key value => exact Server.hangsOnly_write h key value
      | delete key =>
          show (c.server.delete key).store.HangsOnly (· ≠ lease)
          unfold Server.delete
          split
          · exact Store.hangsOnly_delete h key
          · exact h
      | expire => exact (Store.hangsOnly_endLeases h _).mono fun _ hlease => hlease.1
      | race key value => exact h
      | fault m f => exact h
      | endWatch how =>
          have hkeeps : c.Keeps (c.suffer (.endWatch how)) :=
            c.keeps_settle.trans (keeps_runWatch _ _ _)
          exact hkeeps.store ▸ h

/-- Others leave a client its session. -/
theorem Enrolled.meet (h : c.Enrolled lease) {i : Interference} (hi : isForeign lease i = true) :
    (c.meet i).Enrolled lease := by
  cases i with
  | request r => exact ⟨h.session, (Server.serve_faults c.server r).symm ▸ h.accepts⟩
  | verb v =>
      cases v with
      | put key value => exact ⟨h.session, h.accepts⟩
      | delete key =>
          refine ⟨h.session, ?_⟩
          show (c.server.delete key).faults.lookup .revoke = none
          unfold Server.delete
          split
          · exact h.accepts
          · exact h.accepts
      | expire => exact ⟨h.session, h.accepts⟩
      | race key value => exact ⟨h.session, h.accepts⟩
      | fault m f =>
          refine ⟨h.session, ?_⟩
          have hne : m ≠ .revoke := by simpa [isForeign] using hi
          show ((m, f) :: (c.server.takeFault m).2.faults).lookup .revoke = none
          rw [List.lookup_cons, beq_eq_false_iff_ne.2 hne.symm]
          exact Server.lookup_takeFault_of_eq_none h.accepts m
      | endWatch how => exact h.keeps (c.keeps_settle.trans (keeps_runWatch _ _ _))

/-- Two stores hold the same, and the same rivals are about to write. -/
structure Alike (c c' : Client) : Prop where
  store : c'.server.store = c.server.store
  rivals : c'.server.rivals = c.server.rivals

/-- What is kept is alike. -/
theorem Keeps.alike (h : c.Keeps c') : c.Alike c' := ⟨h.store, h.rivals⟩

/-- Stores that are both like a third are alike. -/
theorem Alike.trans (h : c.Alike c') (h' : c'.Alike c'') : c.Alike c'' where
  store := h'.store.trans h.store
  rivals := h'.rivals.trans h.rivals

/-- What others do to a store depends on what it holds, and on the rivals. -/
theorem Alike.meet (h : c.Alike c') (i : Interference) : (c.meet i).Alike (c'.meet i) := by
  cases i with
  | request r =>
      obtain ⟨hstore, hrivals⟩ := Server.serve_congr h.store h.rivals r
      exact ⟨hstore, hrivals⟩
  | verb v =>
      cases v with
      | put key value => exact ⟨congrArg (·.put key value none) h.store, h.rivals⟩
      | delete key =>
          obtain ⟨hstore, hrivals⟩ := Server.delete_eq c.server key
          obtain ⟨hstore', hrivals'⟩ := Server.delete_eq c'.server key
          rw [h.store] at hstore'
          exact ⟨hstore'.trans hstore.symm, hrivals'.trans (h.rivals.trans hrivals.symm)⟩
      | expire => exact ⟨congrArg (·.endLeases fun _ => true) h.store, h.rivals⟩
      | race key value => exact ⟨h.store, congrArg (· ++ [(key, value)]) h.rivals⟩
      | fault m f => exact ⟨h.store, h.rivals⟩
      | endWatch how =>
          have hkeeps : ∀ c : Client, c.Keeps (c.suffer (.endWatch how)) :=
            fun c => c.keeps_settle.trans (keeps_runWatch _ _ _)
          exact ⟨(hkeeps c').store.trans (h.store.trans (hkeeps c).store.symm),
            (hkeeps c').rivals.trans (h.rivals.trans (hkeeps c).rivals.symm)⟩

end FleetSharding.Etcd.Client
