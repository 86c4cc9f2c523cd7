/-!
# What can come to be

Where several parties act side by side, a function says what there is after an event, if the event
can happen.  All interleavings of the parties are then the lists of events.

* `Reachable`: what can come to be, for invariants by induction.
* `Yields`: what comes of some events, for invariants that speak of the events.
* `exists_reachable`: a list of events that can happen leads to something reachable, with all that
  can be checked there.
-/

namespace FleetSharding

variable {σ ε : Type}

/-- What can come to be, one event after the other. -/
inductive Reachable (act? : σ → ε → Option σ) (s₀ : σ) : σ → Prop
  | start : Reachable act? s₀ s₀
  | act {s s' : σ} {e : ε} (hreach : Reachable act? s₀ s) (hact : act? s e = some s') :
      Reachable act? s₀ s'

/-- Some events, the latest first, yield one thing from another. -/
inductive Yields (act? : σ → ε → Option σ) (s₀ : σ) : List ε → σ → Prop
  | start : Yields act? s₀ [] s₀
  | act {es : List ε} {s s' : σ} {e : ε} (hyields : Yields act? s₀ es s)
      (hact : act? s e = some s') : Yields act? s₀ (e :: es) s'

variable {act? : σ → ε → Option σ} {s₀ : σ}

/-- What events lead to from something reachable is reachable. -/
theorem reachable_of_foldlM {s s' : σ} {es : List ε} (hreach : Reachable act? s₀ s)
    (h : es.foldlM act? s = some s') : Reachable act? s₀ s' := by
  induction es generalizing s with
  | nil =>
      cases h
      exact hreach
  | cons e es ih =>
      rw [List.foldlM_cons] at h
      obtain ⟨s₁, hact, hrest⟩ := Option.bind_eq_some_iff.1 h
      exact ih (hreach.act hact) hrest

/-- Events that can happen lead to something reachable, with all that can be checked there. -/
theorem exists_reachable (act? : σ → ε → Option σ) (s₀ : σ) (es : List ε) (p : σ → Bool)
    (h : (es.foldlM act? s₀).any p = true) : ∃ s, Reachable act? s₀ s ∧ p s = true := by
  obtain ⟨s, hfollow, hcheck⟩ := (Option.any_eq_true _ _).1 h
  exact ⟨s, reachable_of_foldlM .start hfollow, hcheck⟩

end FleetSharding
