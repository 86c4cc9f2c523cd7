/-!
# Coalescing signals

A channel for signals that carry nothing.  It holds a bounded number of pending signals; one that
does not fit is dropped, because whoever receives looks at the whole state anyway.  Any number of
senders share one receiver.

* `notify` never waits: the signal is accepted, or dropped because the channel is full, or lost
  because the receiver is gone.
* `receive` takes one pending signal; the channel has ended when none is pending and every sender is
  gone.
* `delivery_eq_accepted_iff`, `receipt_eq_ended_iff` and the like: when each answer is given.
* `notify_eq` and what follows from it: what sending changes, whatever becomes of the signal.
-/

namespace FleetSharding

/-- What became of a signal. -/
inductive Delivery where
  | accepted
  /-- Dropped, as many signals as fit were pending. -/
  | full
  /-- Lost, the receiver is gone. -/
  | closed
  deriving DecidableEq, Repr

/-- What a receiver finds. -/
inductive Receipt where
  | signal
  /-- Nothing is pending, but a sender is left. -/
  | waiting
  | ended
  deriving DecidableEq, Repr

structure Signal where
  /-- At most this many signals are pending. -/
  limit : Nat
  pending : Nat
  /-- Whether each sender ever made is still there. -/
  senders : List Bool
  /-- Whether the receiver is still there. -/
  isOpen : Bool
  deriving DecidableEq, Repr

namespace Signal

/-- A channel with one sender.  It holds one signal at least. -/
def ofCapacity (capacity : Nat) : Signal := ⟨max capacity 1, 0, [true], true⟩

/-- Whether a sender is there. -/
def hasSender (s : Signal) (i : Nat) : Bool := s.senders.getD i false

def hasSenders (s : Signal) : Bool := s.senders.any id

/-- What would become of a signal. -/
def delivery (s : Signal) : Delivery :=
  if !s.isOpen then .closed
  else if s.limit ≤ s.pending then .full
  else .accepted

/-- The channel after a signal was sent. -/
def notify (s : Signal) : Signal :=
  match s.delivery with
  | .accepted => { s with pending := s.pending + 1 }
  | _ => s

/-- One more sender. -/
def addSender (s : Signal) : Signal := { s with senders := s.senders ++ [true] }

def dropSender (s : Signal) (i : Nat) : Signal := { s with senders := s.senders.set i false }

/-- What the receiver finds next. -/
def receipt (s : Signal) : Receipt :=
  if 0 < s.pending then .signal
  else if s.hasSenders then .waiting
  else .ended

/-- The channel after the receiver took what it found. -/
def receive (s : Signal) : Signal := { s with pending := s.pending - 1 }

/-- The channel after the receiver discarded all that was pending. -/
def drain (s : Signal) : Signal := { s with pending := 0 }

/-- The receiver is gone, and pending signals with it. -/
def close (s : Signal) : Signal := { s with isOpen := false, pending := 0 }

/-- Who is there is known from the list of the senders. -/
theorem hasSenders_eq_false_iff {s : Signal} :
    s.hasSenders = false ↔ ∀ i, s.hasSender i = false := by
  rw [hasSenders, List.any_eq_false]
  constructor
  · intro hnone i
    rw [hasSender, List.getD_eq_getElem?_getD]
    cases hi : s.senders[i]? with
    | none => rfl
    | some alive => simpa using hnone alive (List.mem_of_getElem? hi)
  · intro hnone alive halive
    obtain ⟨i, hi⟩ := List.getElem?_of_mem halive
    have hdead := hnone i
    rw [hasSender, List.getD_eq_getElem?_getD, hi] at hdead
    simpa using hdead

/-- A signal is found exactly if one is pending. -/
theorem receipt_eq_signal_iff {s : Signal} : s.receipt = .signal ↔ 0 < s.pending := by
  unfold receipt
  split
  · next hpending => simp [hpending]
  · next hnone => split <;> simp [hnone]

/-- A channel has ended once nothing is pending and every sender is gone. -/
theorem receipt_eq_ended_iff {s : Signal} :
    s.receipt = .ended ↔ s.pending = 0 ∧ ∀ i, s.hasSender i = false := by
  rw [← hasSenders_eq_false_iff, receipt]
  split
  · next hpending => simp only [reduceCtorEq, false_iff]; omega
  · next hnone =>
    have hzero : s.pending = 0 := by omega
    cases s.hasSenders <;> simp [hzero]

/-- A signal is lost exactly if the receiver is gone. -/
theorem delivery_eq_closed_iff {s : Signal} : s.delivery = .closed ↔ s.isOpen = false := by
  unfold delivery
  cases s.isOpen
  · simp
  · by_cases hfull : s.limit ≤ s.pending <;> simp [hfull]

/-- It is dropped exactly if as many as fit are pending for a receiver. -/
theorem delivery_eq_full_iff {s : Signal} :
    s.delivery = .full ↔ s.isOpen = true ∧ s.limit ≤ s.pending := by
  unfold delivery
  cases s.isOpen
  · simp
  · by_cases hfull : s.limit ≤ s.pending <;> simp [hfull]

/-- It is accepted exactly if there is room for it and a receiver. -/
theorem delivery_eq_accepted_iff {s : Signal} :
    s.delivery = .accepted ↔ s.isOpen = true ∧ s.pending < s.limit := by
  unfold delivery
  cases s.isOpen
  · simp
  · by_cases hfull : s.limit ≤ s.pending <;> simp [hfull, Nat.not_le.1, Nat.not_lt.2]

/-- A signal that is sent changes nothing but what is pending, and this only if it is accepted. -/
theorem notify_eq (s : Signal) :
    s.notify = { s with pending := s.pending + if s.delivery = .accepted then 1 else 0 } := by
  unfold notify
  cases s.delivery <;> rfl

/-- A signal leaves the channel as large as it was. -/
theorem limit_notify (s : Signal) : s.notify.limit = s.limit := by
  rw [notify_eq]

/-- It leaves it open or closed. -/
theorem isOpen_notify (s : Signal) : s.notify.isOpen = s.isOpen := by
  rw [notify_eq]

/-- A signal is accepted or finds others pending. -/
theorem pending_le_notify (s : Signal) : s.pending ≤ s.notify.pending := by
  rw [notify_eq]
  exact Nat.le_add_right ..

/-- Never more signals are pending than fit. -/
theorem pending_notify_le {s : Signal} (h : s.pending ≤ s.limit) :
    s.notify.pending ≤ s.limit := by
  rw [notify_eq]
  dsimp only
  split
  · next haccepted => exact (delivery_eq_accepted_iff.1 haccepted).2
  · exact h

/-- A signal that is sent into an open channel leaves one pending. -/
theorem pending_notify_pos {s : Signal} (hopen : s.isOpen = true) (hlimit : 0 < s.limit) :
    0 < s.notify.pending := by
  by_cases hfull : s.limit ≤ s.pending
  · exact Nat.lt_of_lt_of_le hlimit (Nat.le_trans hfull (pending_le_notify s))
  · have haccepted : s.delivery = .accepted :=
      delivery_eq_accepted_iff.2 ⟨hopen, Nat.lt_of_not_le hfull⟩
    rw [notify_eq, if_pos haccepted]
    exact Nat.succ_pos _

end Signal

end FleetSharding
