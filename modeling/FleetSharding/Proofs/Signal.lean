import FleetSharding.Proofs.Metrics
import FleetSharding.Proofs.Reachable

/-!
# Signals are accounted for

Senders come and go, signals are sent, taken one by one or discarded together, and the receiver may
go before them.  Whatever the order, no accepted signal is lost while the receiver is there, and a
signal is dropped only because as many as fit are pending.

* `Traffic`: a channel, what is counted of it, and what its ends were answered.
* `Traffic.Accounted`, `accounted_of_act`: the account, which every action keeps.
* `Traffic.signals_are_accounted_for`: what it says of any traffic.
-/

namespace FleetSharding

/-- What the ends of a channel do. -/
inductive SignalAction where
  | notify (sender : Nat)
  | receive
  | drain
  /-- One more sender is made from another. -/
  | clone (sender : Nat)
  | dropSender (sender : Nat)
  /-- The receiver goes. -/
  | close
  deriving DecidableEq, Repr

/-- What they are answered. -/
inductive SignalAnswer where
  | notified (delivery : Delivery)
  | received
  /-- No signal will come any more. -/
  | ended
  | drained (count : Nat)
  deriving DecidableEq, Repr

/-- How many signals were discarded with an answer. -/
def SignalAnswer.discarded : SignalAnswer → Nat
  | .drained count => count
  | _ => 0

/-- A channel, what was measured of it, and all answers so far, the latest first. -/
structure Traffic where
  channel : Signal
  metrics : Metrics
  answers : List SignalAnswer

namespace Traffic

def start (capacity : Nat) : Traffic := ⟨.ofCapacity capacity, .empty, []⟩

/-- The traffic of a channel of a given name after an action; only who is there can act, and a
receiver that finds nothing yet waits. -/
def act? (name : String) (t : Traffic) : SignalAction → Option Traffic
  | .notify i =>
    if t.channel.hasSender i then
      some ⟨t.channel.notify,
        t.metrics.recordAll ((Coordinator.dropped name t.channel).filterMap Effect.measured?),
        .notified t.channel.delivery :: t.answers⟩
    else none
  | .receive =>
    if t.channel.isOpen then
      match t.channel.receipt with
      | .signal => some { t with channel := t.channel.receive, answers := .received :: t.answers }
      | .waiting => none
      | .ended => some { t with answers := .ended :: t.answers }
    else none
  | .drain =>
    if t.channel.isOpen then
      some { t with
        channel := t.channel.drain, answers := .drained t.channel.pending :: t.answers }
    else none
  | .clone i =>
    if t.channel.hasSender i then some { t with channel := t.channel.addSender } else none
  | .dropSender i =>
    if t.channel.hasSender i then some { t with channel := t.channel.dropSender i } else none
  | .close => if t.channel.isOpen then some { t with channel := t.channel.close } else none

/-- How many signals were sent with success. -/
def accepted (t : Traffic) : Nat := t.answers.count (.notified .accepted)

/-- How many were refused while the receiver was there. -/
def refused (t : Traffic) : Nat := t.answers.count (.notified .full)

/-- How many were received one by one. -/
def received (t : Traffic) : Nat := t.answers.count .received

/-- How many were discarded together with others. -/
def drained (t : Traffic) : Nat := t.answers.foldr (fun a n => a.discarded + n) 0

/-- The counter of dropped signals, which is absent before the first. -/
def droppedCounter? (name : String) (t : Traffic) : Option Nat :=
  t.metrics.counters.get? (Metrics.series Metrics.refreshDropped "signal" name)

/-- The account of a channel. -/
structure Accounted (capacity : Nat) (name : String) (t : Traffic) : Prop where
  limit : t.channel.limit = max capacity 1
  fits : t.channel.pending ≤ max capacity 1
  balance : t.channel.isOpen = true → t.accepted = t.received + t.drained + t.channel.pending
  counted : t.droppedCounter? name = if t.refused = 0 then none else some t.refused

variable {capacity : Nat} {name : String} {t t' : Traffic}

/-- A channel starts with nothing to account for. -/
theorem accounted_start (capacity : Nat) (name : String) :
    (start capacity).Accounted capacity name :=
  ⟨rfl, Nat.zero_le _, fun _ => rfl, rfl⟩

/-- What is counted differently after one more answer. -/
theorem counts_cons (t : Traffic) (s : Signal) (m : Metrics) (a : SignalAnswer) :
    (Traffic.mk s m (a :: t.answers)).accepted =
        t.accepted + (if a = .notified .accepted then 1 else 0) ∧
      (Traffic.mk s m (a :: t.answers)).refused =
        t.refused + (if a = .notified .full then 1 else 0) ∧
      (Traffic.mk s m (a :: t.answers)).received = t.received + (if a = .received then 1 else 0) ∧
      (Traffic.mk s m (a :: t.answers)).drained = t.drained + a.discarded := by
  refine ⟨?_, ?_, ?_, Nat.add_comm ..⟩
  · simp only [accepted, List.count_cons, beq_iff_eq]
  · simp only [refused, List.count_cons, beq_iff_eq]
  · simp only [received, List.count_cons, beq_iff_eq]

/-- A dropped signal counts, and no other one does. -/
theorem droppedCounter?_notified (t : Traffic) (s : Signal) (l : List SignalAnswer)
    (hcounted : t.droppedCounter? name = if t.refused = 0 then none else some t.refused) :
    Traffic.droppedCounter? name
        ⟨s, t.metrics.recordAll ((Coordinator.dropped name t.channel).filterMap Effect.measured?),
          l⟩ =
      if t.refused + (if t.channel.delivery = .full then 1 else 0) = 0 then none
      else some (t.refused + (if t.channel.delivery = .full then 1 else 0)) := by
  by_cases hfull : t.channel.delivery = .full
  · have hbefore : (t.droppedCounter? name).getD 0 = t.refused := by
      rw [hcounted]
      split
      · next hzero => exact hzero.symm
      · rfl
    rw [Coordinator.dropped, if_pos hfull, if_pos hfull, if_neg (Nat.succ_ne_zero _), ← hbefore]
    exact Metrics.get?_refreshDropped_record t.metrics name
  · rw [Coordinator.dropped, if_neg hfull, if_neg hfull]
    exact hcounted

/-- A signal is accepted and pending, or dropped and counted, or lost. -/
theorem Accounted.notify (h : t.Accounted capacity name) {i : Nat}
    (hact : t.act? name (.notify i) = some t') : t'.Accounted capacity name := by
  obtain ⟨hlimit, hfits, hbalance, hcounted⟩ := h
  simp only [act?] at hact
  split at hact
  · cases hact
    have hstill : t.channel.notify.pending ≤ max capacity 1 :=
      hlimit ▸ Signal.pending_notify_le (hlimit.symm ▸ hfits)
    rw [Signal.notify_eq] at hstill ⊢
    obtain ⟨haccepted, hrefused, hreceived, hdrained⟩ := counts_cons t
      { t.channel with
        pending := t.channel.pending + if t.channel.delivery = .accepted then 1 else 0 }
      (t.metrics.recordAll ((Coordinator.dropped name t.channel).filterMap Effect.measured?))
      (.notified t.channel.delivery)
    simp only [SignalAnswer.notified.injEq] at haccepted hrefused
    refine ⟨hlimit, hstill, fun hopen => ?_, ?_⟩
    · have hbefore := hbalance hopen
      rw [haccepted, hreceived, hdrained]
      show _ = t.received + 0 + (t.drained + 0) + (t.channel.pending + _)
      omega
    · rw [hrefused]
      exact droppedCounter?_notified t _ _ hcounted
  · cases hact

/-- A signal that is pending is received; if the channel has ended, nothing changes. -/
theorem Accounted.receive (h : t.Accounted capacity name)
    (hact : t.act? name .receive = some t') : t'.Accounted capacity name := by
  obtain ⟨hlimit, hfits, hbalance, hcounted⟩ := h
  simp only [act?] at hact
  split at hact
  · next hopen =>
    have hbefore := hbalance hopen
    split at hact
    · next hreceipt =>
      cases hact
      have hpending := Signal.receipt_eq_signal_iff.1 hreceipt
      obtain ⟨haccepted, hrefused, hreceived, hdrained⟩ :=
        counts_cons t t.channel.receive t.metrics .received
      refine ⟨hlimit, Nat.le_trans (Nat.sub_le ..) hfits, fun _ => ?_, ?_⟩
      · rw [haccepted, hreceived, hdrained]
        show t.accepted + 0 = t.received + 1 + (t.drained + 0) + (t.channel.pending - 1)
        omega
      · rw [hrefused]
        exact hcounted
    · cases hact
    · cases hact
      obtain ⟨haccepted, hrefused, hreceived, hdrained⟩ :=
        counts_cons t t.channel t.metrics .ended
      refine ⟨hlimit, hfits, fun _ => ?_, ?_⟩
      · rw [haccepted, hreceived, hdrained]
        exact hbefore
      · rw [hrefused]
        exact hcounted
  · cases hact

/-- All that is pending is discarded together. -/
theorem Accounted.drain (h : t.Accounted capacity name)
    (hact : t.act? name .drain = some t') : t'.Accounted capacity name := by
  obtain ⟨hlimit, hfits, hbalance, hcounted⟩ := h
  simp only [act?] at hact
  split at hact
  · next hopen =>
    cases hact
    have hbefore := hbalance hopen
    obtain ⟨haccepted, hrefused, hreceived, hdrained⟩ :=
      counts_cons t t.channel.drain t.metrics (.drained t.channel.pending)
    refine ⟨hlimit, Nat.zero_le _, fun _ => ?_, ?_⟩
    · rw [haccepted, hreceived, hdrained]
      show t.accepted + 0 = t.received + 0 + (t.drained + t.channel.pending) + 0
      omega
    · rw [hrefused]
      exact hcounted
  · cases hact

/-- **Every action keeps the account.** -/
theorem accounted_of_act (h : t.Accounted capacity name) {a : SignalAction}
    (hact : t.act? name a = some t') : t'.Accounted capacity name := by
  cases a with
  | notify i => exact h.notify hact
  | receive => exact h.receive hact
  | drain => exact h.drain hact
  | clone i | dropSender i =>
      simp only [act?] at hact
      split at hact <;> cases hact
      exact ⟨h.limit, h.fits, h.balance, h.counted⟩
  | close =>
      simp only [act?] at hact
      split at hact <;> cases hact
      exact ⟨h.limit, Nat.zero_le _, nofun, h.counted⟩

/-- **Every signal is accounted for, whatever is sent, received, cloned, dropped and drained.** -/
theorem accounted_of_reachable (hreach : Reachable (act? name) (start capacity) t) :
    t.Accounted capacity name := by
  induction hreach with
  | start => exact accounted_start capacity name
  | act _ hact ih => exact accounted_of_act ih hact

/-- **Signals are accounted for.**  In any traffic of a channel, however many senders there are and
in whatever order its ends act and go: never more signals are pending than fit, and one fits at
least; while the receiver is there, the accepted signals are those received, those discarded and
those pending; a signal is refused then exactly if as many as fit are pending, and these refusals
alone are counted; and the receiver finds that no signal will come any more only once every sender
is gone and all that was accepted was received or discarded. -/
theorem signals_are_accounted_for (hreach : Reachable (act? name) (start capacity) t) :
    t.channel.pending ≤ max capacity 1 ∧
      (t.channel.isOpen = true → t.accepted = t.received + t.drained + t.channel.pending) ∧
      (t.channel.delivery = .full ↔
        t.channel.isOpen = true ∧ t.channel.pending = max capacity 1) ∧
      (t.channel.delivery = .closed ↔ t.channel.isOpen = false) ∧
      t.droppedCounter? name = (if t.refused = 0 then none else some t.refused) ∧
      (t.channel.isOpen = true → t.channel.receipt = .ended →
        (∀ i, t.channel.hasSender i = false) ∧ t.accepted = t.received + t.drained) := by
  obtain ⟨hlimit, hfits, hbalance, hcounted⟩ := accounted_of_reachable hreach
  refine ⟨hfits, hbalance, ?_, Signal.delivery_eq_closed_iff, hcounted, ?_⟩
  · rw [Signal.delivery_eq_full_iff, hlimit]
    exact and_congr_right fun _ => ⟨Nat.le_antisymm hfits, fun heq => Nat.le_of_eq heq.symm⟩
  · intro hopen hended
    obtain ⟨hnone, hgone⟩ := Signal.receipt_eq_ended_iff.1 hended
    have hbefore := hbalance hopen
    rw [hnone, Nat.add_zero] at hbefore
    exact ⟨hgone, hbefore⟩

/-- Two senders share a channel that was asked to hold nothing, and holds one signal: the second
signal is refused, the first is received, a third is discarded, and both senders go. -/
theorem signals_are_accounted_for_of_two : ∃ t, Reachable (act? "refresh") (start 0) t ∧
    t.droppedCounter? "refresh" = some 1 ∧ t.accepted = 2 ∧ t.received + t.drained = 2 ∧
      ∀ i, t.channel.hasSender i = false := by
  obtain ⟨t, hreach, hcheck⟩ := exists_reachable (act? "refresh") (start 0)
    [.clone 0, .notify 0, .notify 1, .receive, .notify 1, .drain, .dropSender 0, .dropSender 1,
      .receive]
    (fun t => t.channel.isOpen && t.channel.receipt == .ended && t.refused == 1 &&
      t.accepted == 2)
    (by decide +kernel)
  simp only [Bool.and_eq_true, beq_iff_eq] at hcheck
  obtain ⟨⟨⟨hopen, hended⟩, hrefused⟩, haccepted⟩ := hcheck
  obtain ⟨-, -, -, -, hcounted, hend⟩ := signals_are_accounted_for hreach
  obtain ⟨hgone, hbalance⟩ := hend hopen hended
  rw [hrefused] at hcounted
  exact ⟨t, hreach, hcounted, haccepted, hbalance.symm.trans haccepted, hgone⟩

end Traffic

end FleetSharding
