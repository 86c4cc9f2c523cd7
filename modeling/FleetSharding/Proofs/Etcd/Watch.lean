import FleetSharding.Etcd.Record
import FleetSharding.Etcd.Store
import FleetSharding.Etcd.Watch
import FleetSharding.Proofs.Reachable

/-!
# A watch misses no change

A stream reports what changes after it was opened, as long as it lasts; nobody tells what changed
while there was none, and what it has not reported when it ends is lost with it.  The watch makes up
for both with the signal at each opening.

* `Vigil.act?`: a watch at work, the store's end of its stream, and the changes, in any order.
* `Vigil.Alert`, `alert_of_act`: while a stream is open, what has changed since the last signal is
  still to be reported, or a signal is about to be made.
* `Vigil.signalled_after_last_change`: so once all is reported and handled, a signal has followed
  the last change.  -/

namespace FleetSharding.Etcd

/-- What there is to tell of a watch: a key changes, and it signals. -/
inductive Occurrence where
  | changed (key : String)
  | signalled
  deriving DecidableEq, Repr

/-- A signal was made, and no key that starts like this has changed since. -/
def Signalled (front : String) : List Occurrence → Prop
  | [] => False
  | .signalled :: _ => True
  | .changed key :: past => startsLike front key = false ∧ Signalled front past

/-- A watch and the store that it watches. -/
structure Vigil where
  watch : Watch
  /-- What is left to do of what the last input has led to. -/
  todo : List WatchEffect
  /-- What the store's end of the stream has to report, in order. -/
  stream : Option (List String)
  clock : Nat
  /-- What has happened, the latest first. -/
  past : List Occurrence

inductive VigilEvent where
  | change (key : String)
  /-- The watch goes on from its start or after a pause. -/
  | resume (isHeard : Bool)
  /-- The store opens the stream that was asked for. -/
  | establish
  /-- The watch hears that its stream is open. -/
  | opened
  /-- The opening fails, or its answer is lost. -/
  | refuse
  /-- The stream reports so many changes; a report of none is passed over. -/
  | report (count : Nat)
  | cease (how : StreamEnd)
  /-- The watch does the next thing that it has to do. -/
  | perform
  /-- Time passes. -/
  | pass (clock : Nat)
  deriving DecidableEq, Repr

namespace Vigil

/-- A watch that was just started. -/
def start (clock : Nat) : Vigil := ⟨.starting, [], none, clock, []⟩

/-- Whether a pause is over, if there is one. -/
def mayResume (v : Vigil) : Bool :=
  match v.watch with
  | .starting => true
  | .pausing due => due ≤ v.clock
  | _ => false

/-- The watch gets an input. -/
def feed (delay : Duration) (v : Vigil) (i : WatchInput) : Vigil :=
  { v with watch := (v.watch.step delay v.clock i).1, todo := (v.watch.step delay v.clock i).2 }

/-- What an effect adds to what has happened. -/
def traceOf : WatchEffect → List Occurrence
  | .notify => [.signalled]
  | _ => []

/-- What there is after an event, if it can happen. -/
def act? (delay : Duration) (front : String) (v : Vigil) : VigilEvent → Option Vigil
  | .change key =>
    some
      { v with
        stream := v.stream.map fun keys => if startsLike front key then keys ++ [key] else keys
        past := .changed key :: v.past }
  | .resume isHeard =>
    if v.todo = [] ∧ v.mayResume then some (v.feed delay (.resumed isHeard)) else none
  | .establish =>
    if v.todo = [] ∧ v.watch = .opening ∧ v.stream = none then some { v with stream := some [] }
    else none
  | .opened =>
    if v.todo = [] ∧ v.watch = .opening ∧ v.stream.isSome then some (v.feed delay .opened)
    else none
  | .refuse =>
    if v.todo = [] ∧ v.watch = .opening then some { v.feed delay .refused with stream := none }
    else none
  | .report count =>
    match v.stream with
    | some keys =>
      if v.todo = [] ∧ v.watch = .streaming ∧ count ≤ keys.length then
        if count = 0 then some v
        else some { v.feed delay .changed with stream := some (keys.drop count) }
      else none
    | none => none
  | .cease how =>
    if v.todo = [] ∧ v.watch = .streaming then
      some { v.feed delay (.over how) with stream := none }
    else none
  | .perform =>
    match v.todo with
    | [] => none
    | e :: rest => some { v with todo := rest, past := traceOf e ++ v.past }
  | .pass clock => if v.clock ≤ clock then some { v with clock } else none

/-- While a stream is open, no change is forgotten: it is still to be reported, or a signal is about
to be made, or one was made since. -/
def Alert (front : String) (v : Vigil) : Prop :=
  v.watch = .streaming → ∃ keys, v.stream = some keys ∧
    (keys ≠ [] ∨ .notify ∈ v.todo ∨ Signalled front v.past)

variable {delay : Duration} {front : String} {v v' : Vigil}

/-- Whoever is about to signal is alert. -/
theorem alert_of_notify {keys : List String} (hstream : v.stream = some keys)
    (hnotify : .notify ∈ v.todo) : v.Alert front :=
  fun _ => ⟨keys, hstream, Or.inr (Or.inl hnotify)⟩

/-- A change is put on the stream, if it is one that is watched. -/
theorem Alert.change (h : v.Alert front) (key : String)
    (hact : v.act? delay front (.change key) = some v') : v'.Alert front := by
  cases hact
  intro hstreaming
  obtain ⟨keys, hstream, hcovered⟩ := h hstreaming
  by_cases hkey : startsLike front key = true
  · refine ⟨keys ++ [key], ?_, Or.inl (by simp)⟩
    simp [hstream, hkey]
  · refine ⟨keys, by simp [hstream, hkey], ?_⟩
    rcases hcovered with hleft | hnotify | hsignalled
    · exact Or.inl hleft
    · exact Or.inr (Or.inl hnotify)
    · exact Or.inr (Or.inr ⟨by simpa using hkey, hsignalled⟩)

/-- What the watch does next is to signal, or something that nobody hears of. -/
theorem Alert.perform (h : v.Alert front) (hact : v.act? delay front .perform = some v') :
    v'.Alert front := by
  simp only [act?] at hact
  split at hact
  · cases hact
  · next e rest htodo =>
    cases hact
    intro hstreaming
    obtain ⟨keys, hstream, hcovered⟩ := h hstreaming
    refine ⟨keys, hstream, ?_⟩
    rcases hcovered with hleft | hnotify | hsignalled
    · exact Or.inl hleft
    · rw [htodo] at hnotify
      rcases List.mem_cons.1 hnotify with rfl | hrest
      · exact Or.inr (Or.inr trivial)
      · exact Or.inr (Or.inl hrest)
    · refine Or.inr (Or.inr ?_)
      cases e with
      | notify => trivial
      | _ => exact hsignalled

/-- **Whatever happens, the watch stays alert.** -/
theorem alert_of_act {e : VigilEvent} (h : v.Alert front) (hact : v.act? delay front e = some v') :
    v'.Alert front := by
  cases e with
  | change key => exact h.change key hact
  | perform => exact h.perform hact
  | resume isHeard =>
      simp only [act?] at hact
      split at hact
      · next hready =>
        cases hact
        -- It asks for a stream, or stops.
        intro hstreaming
        have hresume := hready.2
        unfold mayResume at hresume
        simp only [feed] at hstreaming
        split at hresume <;> next hwatch => cases isHeard <;> simp [hwatch, Watch.step] at *
      · cases hact
  | establish =>
      simp only [act?] at hact
      split at hact
      · next hready =>
        cases hact
        intro hstreaming
        cases hready.2.1.symm.trans hstreaming
      · cases hact
  | opened =>
      simp only [act?] at hact
      split at hact
      · next hready =>
        cases hact
        obtain ⟨-, hwatch, hsome⟩ := hready
        obtain ⟨keys, hstream⟩ := Option.isSome_iff_exists.1 hsome
        exact alert_of_notify hstream (by simp [feed, hwatch, Watch.step])
      · cases hact
  | refuse =>
      simp only [act?] at hact
      split at hact
      · next hready =>
        cases hact
        intro hstreaming
        simp [feed, hready.2, Watch.step] at hstreaming
      · cases hact
  | report count =>
      simp only [act?] at hact
      split at hact
      · split at hact
        · next hready =>
          split at hact
          · cases hact
            exact h
          · cases hact
            exact alert_of_notify rfl (by simp [feed, hready.2.1, Watch.step])
        · cases hact
      · cases hact
  | cease how =>
      simp only [act?] at hact
      split at hact
      · next hready =>
        cases hact
        intro hstreaming
        simp [feed, hready.2, Watch.step] at hstreaming
      · cases hact
  | pass clock =>
      simp only [act?] at hact
      split at hact
      · cases hact
        exact h
      · cases hact

/-- So whatever happens, no change is forgotten while a stream is open. -/
theorem alert_of_reachable {clock : Nat}
    (hreach : Reachable (act? delay front) (start clock) v) : v.Alert front := by
  induction hreach with
  | start => exact nofun
  | act _ hact ih => exact alert_of_act ih hact

/-- **A watch misses no change.**  However often its stream fails to open, ends, fails or is
canceled, and whatever changes meanwhile: when a stream is open, the watch has done all that its
inputs have led to, and everything that has changed since the stream opened was reported, a signal
was made after the last change of a key that is watched. -/
theorem signalled_after_last_change {clock : Nat}
    (hreach : Reachable (act? delay front) (start clock) v) (hstreaming : v.watch = .streaming)
    (hdone : v.todo = []) (hreported : v.stream = some []) : Signalled front v.past := by
  obtain ⟨keys, hstream, hcovered⟩ := alert_of_reachable hreach hstreaming
  rw [hreported, Option.some.injEq] at hstream
  rw [← hstream, hdone] at hcovered
  rcases hcovered with hleft | hnotify | hsignalled
  · exact absurd rfl hleft
  · cases hnotify
  · exact hsignalled

/-- A key changes while the first stream opens and another one is reported; the next is lost with
the stream, and the one after that comes in the pause.  The second stream is refused; while the
third one opens a key of another cluster changes, and one that is watched. -/
def outages : List VigilEvent :=
  let member := memberKey "lab"
  [.change (member 0), .resume true, .perform, .change (member 1), .establish, .change (member 2),
    .opened, .perform, .report 1, .perform, .report 0, .change (member 3), .cease .canceled, .perform,
    .perform, .change (member 4), .pass 1000000000, .resume true, .perform, .refuse, .perform,
    .perform, .pass 2000000000, .resume true, .perform, .establish, .change (memberKey "field" 0),
    .change (member 5), .opened, .perform, .report 1, .perform]

/-- After all this it signals once more, and then only the key of the other cluster changes. -/
theorem signalled_after_outages :
    ∃ v, Reachable (act? (.ofSecs 1) (membersPrefix "lab")) (start 0) v ∧
      v.watch = .streaming ∧ v.todo = [] ∧ v.stream = some [] ∧
      Signalled (membersPrefix "lab") v.past := by
  obtain ⟨v, hreach, hcheck⟩ := exists_reachable (act? (.ofSecs 1) (membersPrefix "lab")) (start 0)
    (outages ++ [.change (memberKey "field" 1)])
    (fun v => v.watch = .streaming ∧ v.todo = [] ∧ v.stream = some []) (by decide +kernel)
  obtain ⟨hstreaming, hdone, hreported⟩ := of_decide_eq_true hcheck
  exact ⟨v, hreach, hstreaming, hdone, hreported,
    signalled_after_last_change hreach hstreaming hdone hreported⟩

end Vigil

end FleetSharding.Etcd
