import FleetSharding.Api
import FleetSharding.Proofs.Coordinator.Accord

/-!
# What the health says of the discovery

The status has a flag for whether the latest query of the membership succeeded, and the health check
shows it.  Not every answer is told of, though: a failure while the coordinator looks for itself
leaves the flag alone, and so does a success of the delayed strand that leads to nothing.

* `tells?`: what an answer says of the discovery, if it is told of.
* `told?`: what was told last.
* `health_is_told`: the flag is what was told last, so it is right after each answer told of.
* `exists_misreports`: after either kind of the others it can be wrong.
-/

namespace FleetSharding

/-- Whether a query is answered with members in a step. -/
def Step.succeeds : Step → Bool
  | .answer _ (.ok _) => true
  | _ => false

namespace Coordinator

variable {c c' : Coordinator}

/-- What a step says of the discovery, if it answers a query that is told of. -/
def tells? (c : Coordinator) : Step → Option Bool
  | .answer .main (.ok _) => some true
  | .answer .main (.error _) =>
    match c.main.point with
    | .registering _ => none
    | _ => some false
  | .answer .delayed (.ok members) =>
    (c.decision? (.answer .delayed (.ok members))).map fun _ => true
  | .answer .delayed (.error _) => some false
  | _ => none

/-- Once the coordinator has found itself, every answer to the main strand is told of. -/
theorem tells?_main (hpoint : ∀ attempt, c.main.point ≠ .registering attempt) (a : Answer) :
    c.tells? (.answer .main a) = some a.isOk := by
  cases a with
  | ok members => rfl
  | error e =>
      unfold tells?
      dsimp only
      split
      · next attempt hregistering => exact absurd hregistering (hpoint attempt)
      · rfl

/-- What is told of a query is how it was answered. -/
theorem succeeds_of_tells? {s : Step} {b : Bool} (h : c.tells? s = some b) :
    s.isAnswer = true ∧ s.succeeds = b := by
  unfold tells? at h
  split at h
  · cases h
    exact ⟨rfl, rfl⟩
  · split at h
    · cases h
    · cases h
      exact ⟨rfl, rfl⟩
  · obtain ⟨_, -, rfl⟩ := Option.map_eq_some_iff.1 h
    exact ⟨rfl, rfl⟩
  · cases h
    exact ⟨rfl, rfl⟩
  · cases h

end Coordinator

/-- What was told last of the discovery. -/
def told? : List Moment → Option Bool
  | [] => none
  | m :: log => (m.before.tells? m.step).or (told? log)

/-- The flag that is published for the discovery, as the outlook has it. -/
def Picture.discoveryOk (v : Picture) : Bool := v.outlook.status.discoveryOk

/-- The steps that answer no query leave the flag alone, and do not lead back to the search. -/
theorem discoveryOk_of_turn {cluster : ClusterConfig} {v v' : Picture} {s : Step}
    {d : Option Decision} (hturn : Turn cluster v s d v') (hs : s.isAnswer = false) :
    v'.discoveryOk = v.discoveryOk ∧ (v'.stage = .seeking → v.stage = .seeking) := by
  cases hturn with
  | quiet => exact ⟨rfl, id⟩
  | enter | halt | leave | release => exact ⟨rfl, nofun⟩
  | adopt | wait | settle | fail | rebalance | takeOver => cases hs

namespace Standing

/-- A decision of the steady loop says that the discovery works. -/
theorem discoveryOk_rebalanced (cluster : ClusterConfig) (slot : Nat) (members : List Member)
    (s : Standing) : (s.rebalanced cluster slot members).status.discoveryOk = true := by
  rw [rebalanced_eq]
  rfl

end Standing

namespace Coordinator

variable {c c' : Coordinator}

/-- Looking once more, or giving up, leaves the flag alone. -/
theorem discoveryOk_retry (htodo : c.main.todo = []) {attempt : Nat} {l : List Action}
    (hl : ∀ a ∈ l, a.isWrite = false) :
    (c.retry attempt l).picture.discoveryOk = c.picture.discoveryOk := by
  unfold retry
  split
  · rw [picture_goMain_of_finished htodo (unfinished_append hl rfl)]
    rfl
  · rw [picture_release htodo hl]
    rfl

/-- An answer while the coordinator looks for itself: only that it was found is told of. -/
theorem discoveryOk_registration (h : c.work.Disciplined) (htodo : c.main.todo = [])
    {attempt : Nat} (hpoint : c.main.point = .registering attempt)
    (hok : c.picture.discoveryOk = true) (a : Answer) :
    (c.onRegistration attempt a).picture.discoveryOk = true := by
  have hdelayed : unfinished c.delayed.todo = false :=
    delayed_finished_of_early h (by rw [hpoint]; rfl)
  cases a with
  | error e =>
      exact (discoveryOk_retry htodo (by simp [Action.isWrite])).trans hok
  | ok members =>
      unfold onRegistration
      dsimp only
      split
      · rw [picture_goMain (by exact hdelayed)]
        rfl
      · exact (discoveryOk_retry htodo (by simp [Action.isWrite])).trans hok

/-- An answer while the coordinator waits for enough members is told of. -/
theorem discoveryOk_warmup (h : c.work.Disciplined) (hpoint : c.main.point = .warming)
    (a : Answer) :
    (c.onWarmup a).picture.discoveryOk = a.isOk ∧ (c.onWarmup a).stage = .gated := by
  have hdelayed : unfinished c.delayed.todo = false :=
    delayed_finished_of_early h (by rw [hpoint]; rfl)
  cases a with
  | error e =>
      rw [onWarmup, picture_goMain hdelayed]
      exact ⟨rfl, rfl⟩
  | ok members =>
      unfold onWarmup
      dsimp only
      split <;> rw [picture_goMain hdelayed] <;> exact ⟨rfl, rfl⟩

/-- An answer in the steady loop is told of. -/
theorem discoveryOk_rebalance (h : c.work.Disciplined) (htodo : c.main.todo = [])
    (hpoint : c.main.point = .rebalancing) (a : Answer) :
    (c.onRebalance a).picture.discoveryOk = a.isOk ∧ (c.onRebalance a).stage = .aloft := by
  have howner : c.owner = some .main := h.owner_of_rebalancing hpoint htodo
  have hdelayed : unfinished c.delayed.todo = false := delayed_finished h (Or.inl howner)
  cases a with
  | error e =>
      rw [onRebalance, picture_goMain hdelayed]
      exact ⟨rfl, rfl⟩
  | ok members =>
      rw [onRebalance, picture_goMain hdelayed,
        Standing.carryOut_append _ fun a => isOrdinary_of_mem_rebalanceActions]
      exact ⟨Standing.discoveryOk_rebalanced .., rfl⟩

/-- An answer to the delayed strand is told of, unless it is a success that leads to nothing. -/
theorem discoveryOk_check (h : c.work.Disciplined) (htodo : c.delayed.todo = [])
    (hpoint : c.delayed.point = .checking) (a : Answer) :
    (c.onDelayed a).picture.discoveryOk =
        (c.tells? (.answer .delayed a)).getD c.picture.discoveryOk ∧
      ((c.onDelayed a).stage = .aloft ∨ (c.onDelayed a).stage = .stopping) := by
  have howner : c.owner = some .delayed := h.owner_of_checking hpoint htodo
  have hborn : c.delayed.point ≠ .unborn := by
    rw [hpoint]
    nofun
  have hmain : unfinished c.main.todo = false := main_finished h howner hborn
  have hstage : c.stage = .aloft ∨ c.stage = .stopping :=
    stage_of_alive h hborn (by rw [hpoint]; nofun)
  cases a with
  | error e =>
      refine ⟨?_, hstage⟩
      rw [onDelayed, picture_goDelayed hmain]
      rfl
  | ok members =>
      refine ⟨?_, hstage⟩
      rw [onDelayed, picture_goDelayed hmain,
        Standing.carryOut_append _ fun a => isOrdinary_of_mem_delayedActions]
      unfold tells? decision?
      dsimp only
      split
      · next hidle =>
        have houtlook : c.outlook = c.standing := outlook_of_finished hmain (by rw [htodo]; rfl)
        rw [delayedActions, if_pos hidle]
        show c.standing.status.discoveryOk = c.outlook.status.discoveryOk
        rw [houtlook]
      · next hacts =>
        rw [not_or, Bool.not_eq_true, Nat.not_lt] at hacts
        show (c.standing.takenOver c.cluster c.slot members).status.discoveryOk = true
        rw [Standing.takenOver_eq hacts.1 hacts.2]
        rfl

/-- **After each step the flag is what the step told, if anything.**  While the coordinator looks
for itself it stands as it was at first. -/
theorem discoveryOk_of_moves {s : Step} {es : List Effect} (h : c.work.Disciplined)
    (hm : Moves c s c' es) (hwhole : c.interrupts s = false)
    (hseeking : c.stage = .seeking → c.picture.discoveryOk = true) :
    c'.picture.discoveryOk = (c.tells? s).getD c.picture.discoveryOk ∧
      (c'.stage = .seeking → c'.picture.discoveryOk = true) := by
  have hfound : ∀ {g : Stage} {ok : Bool}, g = .gated ∨ g = .aloft ∨ g = .stopping →
      g = .seeking → ok = true := by
    intro g ok hg hseek
    rcases hg with rfl | rfl | rfl <;> cases hseek
  cases hs : s.isAnswer with
  | false =>
      have hturn := turn_of_moves h hm hwhole
      obtain ⟨hsame, hstage⟩ := discoveryOk_of_turn hturn hs
      have hnone : c.tells? s = none := by
        cases s with
        | answer => cases hs
        | _ => rfl
      rw [hnone]
      exact ⟨hsame, fun hg => hsame.trans (hseeking (hstage hg))⟩
  | true =>
      cases hm with
      | @registration attempt a htodo hpoint =>
          have hok : c.picture.discoveryOk = true := hseeking (by rw [stage, hpoint]; rfl)
          have hafter := discoveryOk_registration h htodo hpoint hok a
          refine ⟨?_, fun _ => hafter⟩
          rw [hafter]
          cases a with
          | ok members => rfl
          | error e => rw [tells?, hpoint, Option.getD_none, hok]
      | @warmup a htodo hpoint =>
          obtain ⟨hafter, hg⟩ := discoveryOk_warmup h hpoint a
          rw [tells?_main fun _ hregistering => by cases hpoint.symm.trans hregistering]
          exact ⟨hafter, hfound (Or.inl hg)⟩
      | @rebalance a htodo hpoint =>
          obtain ⟨hafter, hg⟩ := discoveryOk_rebalance h htodo hpoint a
          rw [tells?_main fun _ hregistering => by cases hpoint.symm.trans hregistering]
          exact ⟨hafter, hfound (Or.inr (Or.inl hg))⟩
      | @check a htodo hpoint =>
          obtain ⟨hafter, hg⟩ := discoveryOk_check h htodo hpoint a
          exact ⟨hafter, hfound (Or.inr hg)⟩
      | _ => cases hs

section Started

variable {cluster : ClusterConfig} {timers : TimerConfig} {devices : List Device}
  {updates changes : Signal} {clock : Nat} {log : List Moment}

/-- **In every run the flag will be what was told last**, as long as nothing was cut short. -/
theorem discoveryOk_of_run
    (hrun : Run (start cluster timers devices updates changes clock) log c)
    (hwhole : wasInterrupted log = false) :
    c.picture.discoveryOk = (told? log).getD true ∧
      (c.stage = .seeking → c.picture.discoveryOk = true) := by
  induction hrun with
  | start => exact ⟨rfl, fun _ => rfl⟩
  | @step log c c' s es hrun hstep ih =>
      rw [wasInterrupted, List.any_cons, Bool.or_eq_false_iff] at hwhole
      obtain ⟨hbefore, hseeking⟩ := ih hwhole.2
      obtain ⟨hafter, hseeking'⟩ := discoveryOk_of_moves
        (disciplined_of_run hrun (disciplined_start ..)) (moves_of_step? hstep) hwhole.1 hseeking
      refine ⟨?_, hseeking'⟩
      rw [hafter, hbefore, told?]
      cases c.tells? s <;> rfl

/-- A query that is told of is the last that was told of while it is the latest. -/
theorem told?_of_latestQuery? {m : Moment} (hlatest : latestQuery? log = some m) {b : Bool}
    (htells : m.before.tells? m.step = some b) : told? log = some b := by
  induction log with
  | nil => cases hlatest
  | cons first log ih =>
      rw [latestQuery?, List.find?_cons] at hlatest
      split at hlatest
      · cases hlatest
        rw [told?, htells]
        rfl
      · next hno =>
        have hnone : first.before.tells? first.step = none := by
          cases htells' : first.before.tells? first.step with
          | none => rfl
          | some b' =>
              rw [(succeeds_of_tells? htells').1] at hno
              cases hno
        rw [told?, hnone, Option.none_or]
        exact ih hlatest

/-- What a health check answers is up to the flag alone. -/
theorem health_code_eq (a : AdminView) :
    (a.respond "GET" "/health").code = if a.status.status.discoveryOk then 200 else 503 := by
  have htarget : Endpoint.ofTarget? "/health" = some .health := by decide +kernel
  rw [AdminView.respond, htarget]
  dsimp only
  rw [if_pos rfl, AdminView.view]
  split <;> rfl

/-- **The health check shows what was told last of the discovery.**  In every run, when nothing that
was begun is left to write and nothing was cut short, the flag is what was told last, and as at
first if nothing was.  So it says whether the latest query succeeded after each one that is told of:
all but the failures before the coordinator has found itself, and the successes of the delayed
strand that lead to nothing. -/
theorem health_is_told
    (hrun : Run (start cluster timers devices updates changes clock) log c)
    (hwhole : wasInterrupted log = false) (hmain : unfinished c.main.todo = false)
    (hdelayed : unfinished c.delayed.todo = false) :
    c.status.discoveryOk = (told? log).getD true ∧
      (∀ m, latestQuery? log = some m → m.before.tells? m.step ≠ none →
        c.status.discoveryOk = m.step.succeeds) ∧
      ∀ a : AdminView, a.status.status = c.status →
        ((a.respond "GET" "/health").code = 200 ↔ c.status.discoveryOk = true) := by
  have hflag : c.status.discoveryOk = (told? log).getD true := by
    rw [← (discoveryOk_of_run hrun hwhole).1]
    show c.standing.status.discoveryOk = c.outlook.status.discoveryOk
    rw [outlook_of_finished hmain hdelayed]
  refine ⟨hflag, ?_, ?_⟩
  · intro m hlatest htold
    obtain ⟨b, hb⟩ := Option.ne_none_iff_exists'.1 htold
    rw [hflag, told?_of_latestQuery? hlatest hb, Option.getD_some]
    exact (succeeds_of_tells? hb).2.symm
  · intro a ha
    rw [health_code_eq, ha]
    split
    · next hok => simp [hok]
    · next hok => simp [hok]

/-- A node whose decision failed says so. -/
theorem health_is_told_after_outage :
    ∃ log c, Run (ofTwo "b") log c ∧ (∃ m, latestQuery? log = some m ∧ m.step.succeeds = false) ∧
      ∀ a : AdminView, a.status.status = c.status → (a.respond "GET" "/health").code ≠ 200 := by
  obtain ⟨log, c, hrun, hcheck⟩ := exists_run_of_follow (ofTwo "b") outageSteps
    (fun log c => !wasInterrupted log && !unfinished c.main.todo && !unfinished c.delayed.todo &&
      (latestQuery? log).any fun m => !m.step.succeeds && (m.before.tells? m.step).isSome)
    (by decide +kernel)
  simp only [Bool.and_eq_true, Bool.not_eq_true', Option.any_eq_true] at hcheck
  obtain ⟨⟨⟨hwhole, hmain⟩, hdelayed⟩, m, hlatest, hfails, htold⟩ := hcheck
  obtain ⟨-, htells, hcode⟩ := health_is_told hrun hwhole hmain hdelayed
  refine ⟨log, c, hrun, ⟨m, hlatest, hfails⟩, fun a ha hok => ?_⟩
  have hflag : c.status.discoveryOk = false :=
    (htells m hlatest (Option.isSome_iff_ne_none.1 htold)).trans hfails
  rw [hcode a ha, hflag] at hok
  cases hok

/-- Nothing is left to write and nothing was cut short, and the flag says the opposite of how the
latest query was answered. -/
structure Misreports (succeeded : Bool) (log : List Moment) (c : Coordinator) : Prop where
  whole : wasInterrupted log = false
  main : unfinished c.main.todo = false
  delayed : unfinished c.delayed.todo = false
  latest : ∃ m, latestQuery? log = some m ∧ m.step.succeeds = succeeded
  flag : c.status.discoveryOk = !succeeded

/-- Whether a run misreports a query can be computed. -/
theorem exists_misreports_of_follow (succeeded : Bool) (steps : List Step)
    (h : ((ofTwo "b").follow [] steps).any (fun r =>
      !wasInterrupted r.1 && !unfinished r.2.main.todo && !unfinished r.2.delayed.todo &&
        (latestQuery? r.1).any (fun m => m.step.succeeds == succeeded) &&
        r.2.status.discoveryOk == !succeeded) = true) :
    ∃ log c, Run (ofTwo "b") log c ∧ Misreports succeeded log c := by
  obtain ⟨⟨log, c⟩, hfollow, hcheck⟩ := (Option.any_eq_true _ _).1 h
  simp only [Bool.and_eq_true, Bool.not_eq_true', Option.any_eq_true, beq_iff_eq] at hcheck
  obtain ⟨⟨⟨⟨hwhole, hmain⟩, hdelayed⟩, hlatest⟩, hflag⟩ := hcheck
  exact ⟨log, c, run_of_follow .start hfollow, hwhole, hmain, hdelayed, hlatest, hflag⟩

/-- The flag is wrong after the two kinds of answers that are not told of: it stands after a failure
before the coordinator has found itself, and it is down after a success of the delayed strand, if
the decision before it failed. -/
theorem exists_misreports :
    (∃ log c, Run (ofTwo "b") log c ∧ Misreports false log c) ∧
      ∃ log c, Run (ofTwo "b") log c ∧ Misreports true log c := by
  constructor
  · exact exists_misreports_of_follow false
      ([.run .main, .answer .main (.error .unavailable)] ++ List.replicate 3 (.run .main))
      (by decide +kernel)
  · exact exists_misreports_of_follow true
      (outageSteps ++ [.run .delayed, .pass 101000000000, .wake .delayed, .run .delayed,
        .run .delayed, .answer .delayed (.ok (membersOfTwo .passing)), .run .delayed,
        .run .delayed])
      (by decide +kernel)

end Started

end Coordinator

end FleetSharding
