import FleetSharding.Proofs.Coordinator.Quitting

/-!
# How long a coordinator looks for itself

A coordinator asks for the members until it finds itself among them, and pauses between two queries.
It asks at most as often as its budget says, once at least, and there is no pause after the last
query.  If it has not found itself by then it gives up, which is the one error that it may end with.

* `Search`, `searchResult?`: what a log tells of the search, and of its end.
* `Searching`, `searched_of_searching`: how far a search is, and what each step makes of it.
* `Accounts`, `searched_of_run`: what it has used when it is over.
* `search_keeps_to_budget`: what a search comes to, after how many queries and pauses.
-/

namespace FleetSharding

/-- What a search comes to. -/
inductive SearchResult where
  | adopted (slot : Nat)
  /-- The budget was used up. -/
  | unseen (attempts : Nat)
  /-- The shutdown came in a pause. -/
  | stopped
  deriving DecidableEq, Repr

/-- The slot that an answer shows to be a node's own. -/
def adopted? (cluster : ClusterConfig) : Answer → Option Nat
  | .ok members => ownSlot? cluster members
  | .error _ => none

/-- What there is to tell of a search. -/
structure Search where
  /-- What the queries were answered, in order. -/
  answers : List Answer := []
  /-- How many queries were made. -/
  asked : Nat := 0
  /-- How many pauses have lasted their full time. -/
  pauses : Nat := 0
  /-- Whether a pause was cut by the shutdown. -/
  isCut : Bool := false
  /-- When the main strand did something last. -/
  since : Nat := 0

namespace Search

/-- What one moment adds.  A pause was full if the main strand did nothing for so long. -/
def next (interval : Duration) (h : Search) (m : Moment) : Search :=
  if m.before.main.point.isSeeking then
    let h := { h with asked := h.asked + m.effects.count (.asked .main) }
    match m.step with
    | .run .main => { h with since := m.before.clock }
    | .answer .main a => { h with answers := h.answers ++ [a], since := m.before.clock }
    | .wake .main =>
      { h with
        pauses := if h.since + interval.nanos ≤ m.before.clock then h.pauses + 1 else h.pauses
        since := m.before.clock }
    | .stop .main => { h with isCut := true, since := m.before.clock }
    | _ => h
  else h

/-- What a log tells of the search. -/
def ofLog (interval : Duration) : List Moment → Search
  | [] => {}
  | m :: log => (ofLog interval log).next interval m

variable {interval : Duration} {h : Search} {m : Moment}

/-- When the search is over there is nothing more to tell. -/
theorem next_of_not_seeking (hover : m.before.main.point.isSeeking = false) :
    h.next interval m = h := by
  rw [next, hover]
  rfl

/-- What others do tells nothing. -/
theorem next_of_other (hother : m.step.isMain = false) (hasked : .asked .main ∉ m.effects) :
    h.next interval m = h := by
  unfold next
  rw [List.count_eq_zero_of_not_mem hasked]
  split
  · dsimp only
    split
    · next hstep => rw [hstep] at hother; cases hother
    · next hstep => rw [hstep] at hother; cases hother
    · next hstep => rw [hstep] at hother; cases hother
    · next hstep => rw [hstep] at hother; cases hother
    · rfl
  · rfl

/-- So many queries were made and answered, so far in vain, and so many pauses were full; none was
cut. -/
structure Tried (cluster : ClusterConfig) (h : Search) (asked answered paused : Nat) : Prop where
  asked : h.asked = asked
  answered : h.answers.length = answered
  paused : h.pauses = paused
  uncut : h.isCut = false
  fruitless : ∀ a ∈ h.answers, adopted? cluster a = none

end Search

open Search (Tried)

namespace Coordinator

/-- What a search has come to, as where the coordinator goes next tells. -/
def leaving? (c : Coordinator) : Option SearchResult :=
  match c.main.point with
  | .registering _ | .retrying _ => none
  | .releasing =>
    match c.main.todo.getLast? with
    | some (.finish (.timedOut n)) => some (.unseen n)
    | _ => some .stopped
  | _ => some (.adopted c.slot)

/-- The main strand has something to do, or waits for an answer, or for the end of a pause. -/
def GoesOn (c : Coordinator) : Prop :=
  (c.step? (.run .main)).isSome ∨ (∀ a, (c.step? (.answer .main a)).isSome) ∨
    ∀ clock, c.main.due ≤ clock → ({ c with clock }.step? (.wake .main)).isSome

end Coordinator

/-- What the search came to, once it is over. -/
def searchResult? : List Moment → Coordinator → Option SearchResult
  | [], c => c.leaving?
  | m :: log, c => (searchResult? log m.before).or c.leaving?

namespace Coordinator

variable {c c' : Coordinator} {s : Step} {es : List Effect} {log : List Moment}
  {cluster : ClusterConfig} {interval : Duration} {budget : Nat}

/-- Nothing is said of a search while it goes on. -/
theorem leaving?_of_seeking (h : c.main.point.isSeeking = true) : c.leaving? = none := by
  unfold leaving?
  split
  · rfl
  · rfl
  · next hpoint =>
    rw [hpoint] at h
    cases h
  · next hregistering hretrying _ =>
    cases hpoint : c.main.point with
    | registering attempt => exact absurd hpoint (hregistering attempt)
    | retrying attempt => exact absurd hpoint (hretrying attempt)
    | _ =>
        rw [hpoint] at h
        cases h

/-- What a release says of the search that it ends. -/
theorem leaving?_release (c : Coordinator) (o : Outcome) (before : List Action) :
    (c.release o before).leaving? =
      some (match o with
        | .timedOut n => .unseen n
        | _ => .stopped) := by
  have hlast : (before ++ releaseActions o).getLast? = some (.finish o) := by
    simp [releaseActions]
  simp only [leaving?, release, goMain, hlast]
  cases o <;> rfl

/-- Where a search is; `done` attempts were in vain, and each takes six steps at most. -/
inductive Place (cluster : ClusterConfig) (interval : Duration) (budget : Nat) (h : Search)
    (steps : Nat) (c : Coordinator) : Prop
  | asking {done : Nat} (hpoint : c.main.point = .registering (done + 1))
      (htodo : c.main.todo = [.ask]) (hdone : done < budget) (hsteps : steps ≤ 6 * done)
      (htried : Tried cluster h done done done) : Place cluster interval budget h steps c
  | awaiting {done : Nat} (hpoint : c.main.point = .registering (done + 1))
      (htodo : c.main.todo = []) (hdone : done < budget) (hsteps : steps ≤ 6 * done + 1)
      (htried : Tried cluster h (done + 1) done done) : Place cluster interval budget h steps c
  | telling {done : Nat} {before : List Action} (hpoint : c.main.point = .retrying (done + 1))
      (htodo : c.main.todo = before ++ [.sleep interval])
      (hbefore : ∀ a ∈ before, a.isTold = true) (hdone : done + 1 < budget)
      (hsteps : steps + before.length ≤ 6 * done + 4)
      (htried : Tried cluster h (done + 1) (done + 1) done) :
      Place cluster interval budget h steps c
  | pausing {done : Nat} (hpoint : c.main.point = .retrying (done + 1)) (htodo : c.main.todo = [])
      (hdue : h.since + interval.nanos ≤ c.main.due) (hdone : done + 1 < budget)
      (hsteps : steps ≤ 6 * done + 5) (htried : Tried cluster h (done + 1) (done + 1) done) :
      Place cluster interval budget h steps c

namespace Place

variable {h : Search} {steps : Nat}

/-- At each of these places the main strand looks for itself. -/
theorem isSeeking (hplace : Place cluster interval budget h steps c) :
    c.main.point.isSeeking = true := by
  cases hplace with
  | asking hpoint | awaiting hpoint | telling hpoint | pausing hpoint =>
      rw [hpoint]
      rfl

/-- A search stays where it is while the main strand does nothing. -/
theorem congr (hplace : Place cluster interval budget h steps c) (hmain : c'.main = c.main) :
    Place cluster interval budget h steps c' := by
  cases hplace with
  | asking hpoint htodo hdone hsteps htried =>
      exact .asking (hmain ▸ hpoint) (hmain ▸ htodo) hdone hsteps htried
  | awaiting hpoint htodo hdone hsteps htried =>
      exact .awaiting (hmain ▸ hpoint) (hmain ▸ htodo) hdone hsteps htried
  | telling hpoint htodo hbefore hdone hsteps htried =>
      exact .telling (hmain ▸ hpoint) (hmain ▸ htodo) hbefore hdone hsteps htried
  | pausing hpoint htodo hdue hdone hsteps htried =>
      exact .pausing (hmain ▸ hpoint) (hmain ▸ htodo) (hmain ▸ hdue) hdone hsteps htried

/-- As long as a search goes on it has found nothing, and is within its budget. -/
theorem within (hplace : Place cluster interval budget h steps c) :
    (∀ a ∈ h.answers, adopted? cluster a = none) ∧ h.answers.length < budget ∧
      h.isCut = false ∧ steps ≤ 6 * budget := by
  cases hplace with
  | asking _ _ hdone hsteps htried | awaiting _ _ hdone hsteps htried
  | telling _ _ _ hdone hsteps htried | pausing _ _ _ hdone hsteps htried =>
      obtain ⟨-, hanswered, -, huncut, hfruitless⟩ := htried
      exact ⟨hfruitless, by omega, huncut, by omega⟩

/-- It goes on by itself, but for the answers and the time that it waits for. -/
theorem goesOn (hplace : Place cluster interval budget h steps c) (hidle : c.Idle) : c.GoesOn := by
  have hacts : ∀ {a : Action} {rest : List Action}, c.main.todo = a :: rest → c.GoesOn :=
    fun htodo => Or.inl (by rw [step?_run htodo hidle.isBlocked]; rfl)
  cases hplace with
  | asking _ htodo => exact hacts htodo
  | awaiting hpoint htodo =>
      exact Or.inr (Or.inl fun a => by simp [step?, htodo, answerMain?, hpoint])
  | @telling done before _ htodo =>
      cases before with
      | nil => exact hacts htodo
      | cons b before => exact hacts htodo
  | pausing hpoint htodo =>
      refine Or.inr (Or.inr fun clock hdue => ?_)
      simp [step?, wakeMain?, htodo, hpoint, hdue]

end Place

/-- A search that goes on. -/
structure Searching (cluster : ClusterConfig) (interval : Duration) (budget : Nat)
    (log : List Moment) (c : Coordinator) : Prop where
  result : searchResult? log c = none
  idle : c.Idle
  place : Place cluster interval budget (Search.ofLog interval log) (mainSteps log) c

/-- What a search has used when it is over. -/
inductive Accounts (cluster : ClusterConfig) (budget : Nat) (h : Search) : SearchResult → Prop
  | adopted {done id : Nat} {earlier : List Answer} {last : Answer} (hdone : done < budget)
      (hanswers : h.answers = earlier ++ [last])
      (hearlier : ∀ a ∈ earlier, adopted? cluster a = none)
      (hlast : adopted? cluster last = some id) (hlength : earlier.length = done)
      (hasked : h.asked = done + 1) (hpaused : h.pauses = done) (huncut : h.isCut = false) :
      Accounts cluster budget h (.adopted id)
  | unseen {done : Nat} (hdone : done + 1 = budget)
      (htried : Tried cluster h (done + 1) (done + 1) done) :
      Accounts cluster budget h (.unseen budget)
  | stopped {done : Nat} (hdone : done + 1 < budget) (hasked : h.asked = done + 1)
      (hanswered : h.answers.length = done + 1) (hpaused : h.pauses = done)
      (hcut : h.isCut = true) (hfruitless : ∀ a ∈ h.answers, adopted? cluster a = none) :
      Accounts cluster budget h .stopped

/-- What becomes of a coordinator after its search: it gives up within so many steps, or never. -/
def Fate (bound steps : Nat) (c : Coordinator) : SearchResult → Prop
  | .unseen n => Quits n bound steps c
  | _ => c.Keeps

/-- How far a coordinator is with its search, or after it. -/
inductive Searched (cluster : ClusterConfig) (interval : Duration) (budget : Nat)
    (log : List Moment) (c : Coordinator) : Prop
  | searching (h : Searching cluster interval budget log c) :
      Searched cluster interval budget log c
  | ended {r : SearchResult} (hresult : searchResult? log c = some r)
      (haccounts : Accounts cluster budget (Search.ofLog interval log) r)
      (hfate : Fate (6 * budget + 5) (mainSteps log) c r) : Searched cluster interval budget log c

namespace Searching

/-- A search comes to what the coordinator goes on with. -/
theorem result_cons (hs : Searching cluster interval budget log c) (s : Step) (es : List Effect)
    (c' : Coordinator) : searchResult? (⟨c, s, es⟩ :: log) c' = c'.leaving? := by
  rw [searchResult?, hs.result, Option.none_or]

/-- A search goes on if its next place is known. -/
theorem next (hs : Searching cluster interval budget log c) (howner : c'.owner = c.owner)
    (hqueue : c'.queue = c.queue)
    (hplace : Place cluster interval budget (Search.ofLog interval (⟨c, s, es⟩ :: log))
      (mainSteps (⟨c, s, es⟩ :: log)) c') :
    Searched cluster interval budget (⟨c, s, es⟩ :: log) c' :=
  .searching
    { result := (hs.result_cons s es c').trans (leaving?_of_seeking hplace.isSeeking)
      idle := ⟨howner ▸ hs.idle.owner, hqueue ▸ hs.idle.queue⟩
      place := hplace }

/-- What an answer adds. -/
theorem ofLog_answer (hs : Searching cluster interval budget log c) (a : Answer) :
    Search.ofLog interval (⟨c, .answer .main a, []⟩ :: log) =
      { Search.ofLog interval log with
        answers := (Search.ofLog interval log).answers ++ [a]
        since := c.clock } := by
  rw [Search.ofLog, Search.next, if_pos hs.place.isSeeking]
  rfl

/-- An answer of no use is followed by a pause, or by the release if the budget is used up. -/
theorem retry {done : Nat} {a : Answer} {before : List Action}
    (hs : Searching cluster interval budget log c) (hbudget : c.attempts = budget)
    (hinterval : c.timers.registrationInterval = interval) (hdone : done < budget)
    (hsteps : mainSteps log ≤ 6 * done + 1)
    (htried : Tried cluster (Search.ofLog interval log) (done + 1) done done)
    (ha : adopted? cluster a = none) (hbefore : ∀ b ∈ before, b.isTold = true)
    (hlength : before.length ≤ 2) :
    Searched cluster interval budget (⟨c, .answer .main a, []⟩ :: log)
      (c.retry (done + 1) before) := by
  have htried' : Tried cluster (Search.ofLog interval (⟨c, .answer .main a, []⟩ :: log))
      (done + 1) (done + 1) done := by
    obtain ⟨hasked, hanswered, hpaused, huncut, hfruitless⟩ := htried
    rw [hs.ofLog_answer]
    refine ⟨hasked, by simp [hanswered], hpaused, huncut, ?_⟩
    exact List.forall_mem_append.2 ⟨hfruitless, List.forall_mem_singleton.2 ha⟩
  have hsteps' : mainSteps (⟨c, .answer .main a, []⟩ :: log) ≤ 6 * done + 2 := by
    rw [mainSteps_cons]
    exact Nat.succ_le_succ hsteps
  -- The attempts are counted from one, so that the last one has the number of the budget.
  unfold Coordinator.retry
  rw [hbudget, hinterval]
  split
  · next hmore => exact hs.next rfl rfl (.telling rfl rfl hbefore hmore (by omega) htried')
  · next hlast =>
    have hall : done + 1 = budget := by omega
    refine .ended (r := .unseen budget) ?_ (.unseen hall htried') ?_
    · rw [hs.result_cons, leaving?_release]
    · exact Quits.release hs.idle hbefore (by omega)

/-- **What the coordinator makes of an answer.** -/
theorem answer {done : Nat} (hs : Searching cluster interval budget log c)
    (hcluster : c.cluster = cluster) (hbudget : c.attempts = budget)
    (hinterval : c.timers.registrationInterval = interval) (hdone : done < budget)
    (hsteps : mainSteps log ≤ 6 * done + 1)
    (htried : Tried cluster (Search.ofLog interval log) (done + 1) done done) (a : Answer) :
    Searched cluster interval budget (⟨c, .answer .main a, []⟩ :: log)
      (c.onRegistration (done + 1) a) := by
  have hretry : adopted? cluster a = none → ∀ before : List Action,
      (∀ b ∈ before, b.isTold = true) → before.length ≤ 2 →
      Searched cluster interval budget (⟨c, .answer .main a, []⟩ :: log)
        (c.retry (done + 1) before) :=
    fun ha _ hbefore hlength => hs.retry hbudget hinterval hdone hsteps htried ha hbefore hlength
  cases a with
  | error e => exact hretry rfl _ (by simp [Action.isTold]) (by simp)
  | ok members =>
      unfold onRegistration
      dsimp only
      split
      · next id hown =>
        have hlast : adopted? cluster (.ok members) = some id := hcluster ▸ hown
        obtain ⟨hasked, hanswered, hpaused, huncut, hfruitless⟩ := htried
        refine .ended (r := .adopted id) (hs.result_cons ..) ?_ (keeps_goMain rfl nofun (by simp))
        rw [hs.ofLog_answer]
        exact .adopted hdone rfl hfruitless hlast hanswered hasked hpaused huncut
      · next hown =>
        have hnone : adopted? cluster (.ok members) = none := hcluster ▸ hown
        refine hretry hnone _ (by simp [Action.isTold]) ?_
        unfold ownSlotWarning
        split
        · split <;> simp
        · simp

/-- No action ends a search: it asks, tells of an answer, or begins to pause. -/
theorem act {a : Action} {rest : List Action} (hs : Searching cluster interval budget log c)
    (hnext : c.main.todo = a :: rest) :
    Searched cluster interval budget
      (⟨c, .run .main, (exec .main a (c.setTodo .main rest)).2⟩ :: log)
      (exec .main a (c.setTodo .main rest)).1 := by
  have hof : Search.ofLog interval
      (⟨c, .run .main, (exec .main a (c.setTodo .main rest)).2⟩ :: log) =
      { Search.ofLog interval log with
        asked := (Search.ofLog interval log).asked +
          (exec .main a (c.setTodo .main rest)).2.count (.asked .main)
        since := c.clock } := by
    rw [Search.ofLog, Search.next, if_pos hs.place.isSeeking]
  have hcount : mainSteps (⟨c, .run .main, (exec .main a (c.setTodo .main rest)).2⟩ :: log) =
      mainSteps log + 1 := mainSteps_cons _ _
  cases hs.place with
  | asking hpoint htodo hdone hsteps htried =>
      obtain ⟨rfl, rfl⟩ := List.cons.inj (htodo.symm.trans hnext)
      refine hs.next rfl rfl (.awaiting hpoint rfl hdone (by omega) ?_)
      obtain ⟨hasked, hanswered, hpaused, huncut, hfruitless⟩ := htried
      rw [hof]
      exact ⟨congrArg (· + 1) hasked, hanswered, hpaused, huncut, hfruitless⟩
  | @telling done before hpoint htodo hbefore hdone hsteps htried =>
      obtain ⟨hasked, hanswered, hpaused, huncut, hfruitless⟩ := htried
      cases before with
      | nil =>
          obtain ⟨rfl, rfl⟩ := List.cons.inj (htodo.symm.trans hnext)
          rw [List.length_nil] at hsteps
          refine hs.next rfl rfl (.pausing hpoint rfl ?_ hdone (by omega) ?_)
          · rw [hof]
            exact Nat.le_refl _
          · rw [hof]
            exact ⟨hasked, hanswered, hpaused, huncut, hfruitless⟩
      | cons b before =>
          obtain ⟨rfl, rfl⟩ := List.cons.inj (htodo.symm.trans hnext)
          obtain ⟨htold, hrest⟩ := List.forall_mem_cons.1 hbefore
          rw [List.length_cons] at hsteps
          cases b with
          | report | measure =>
              refine hs.next rfl rfl (.telling hpoint rfl hrest hdone (by omega) ?_)
              rw [hof]
              exact ⟨hasked, hanswered, hpaused, huncut, hfruitless⟩
          | _ => cases htold
  | awaiting _ htodo | pausing _ htodo => cases htodo.symm.trans hnext

/-- The end of a pause leads to the next query. -/
theorem again {attempt : Nat} (hs : Searching cluster interval budget log c)
    (hnone : c.main.todo = []) (hretrying : c.main.point = .retrying attempt)
    (hover : c.main.due ≤ c.clock) :
    Searched cluster interval budget (⟨c, .wake .main, []⟩ :: log)
      (c.goMain (.registering (attempt + 1)) [.ask]) := by
  cases hs.place with
  | @pausing done hpoint _ hdue hdone hsteps htried =>
      obtain rfl : attempt = done + 1 := MainPoint.retrying.inj (hretrying.symm.trans hpoint)
      obtain ⟨hasked, hanswered, hpaused, huncut, hfruitless⟩ := htried
      have hfull : (Search.ofLog interval log).since + interval.nanos ≤ c.clock :=
        Nat.le_trans hdue hover
      have hof : Search.ofLog interval (⟨c, .wake .main, []⟩ :: log) =
          { Search.ofLog interval log with pauses := done + 1, since := c.clock } := by
        rw [Search.ofLog, Search.next, if_pos hs.place.isSeeking]
        simp only [List.count_nil, Nat.add_zero, if_pos hfull, hpaused]
      have hcount : mainSteps (⟨c, .wake .main, []⟩ :: log) = mainSteps log + 1 :=
        mainSteps_cons _ _
      refine hs.next rfl rfl (.asking rfl rfl hdone (by omega) ?_)
      rw [hof]
      exact ⟨hasked, hanswered, rfl, huncut, hfruitless⟩
  | asking hpoint | awaiting hpoint => cases hpoint.symm.trans hretrying
  | telling _ htodo => simp [htodo] at hnone

/-- The shutdown ends the search in a pause. -/
theorem leave {attempt : Nat} (hs : Searching cluster interval budget log c)
    (hnone : c.main.todo = []) (hretrying : c.main.point = .retrying attempt) :
    Searched cluster interval budget (⟨c, .stop .main, []⟩ :: log) (c.release .completed []) := by
  cases hs.place with
  | @pausing done hpoint _ hdue hdone hsteps htried =>
      have hof : Search.ofLog interval (⟨c, .stop .main, []⟩ :: log) =
          { Search.ofLog interval log with isCut := true, since := c.clock } := by
        rw [Search.ofLog, Search.next, if_pos hs.place.isSeeking]
        rfl
      refine .ended (r := .stopped) ?_ ?_ (keeps_goMain rfl nofun (by simp [releaseActions]))
      · rw [hs.result_cons, leaving?_release]
      · rw [hof]
        exact .stopped hdone htried.asked htried.answered htried.paused rfl htried.fruitless
  | asking hpoint | awaiting hpoint => cases hpoint.symm.trans hretrying
  | telling _ htodo => simp [htodo] at hnone

end Searching

/-- **A search goes on, or comes to its result.** -/
theorem searched_of_searching (hcluster : c.cluster = cluster) (hbudget : c.attempts = budget)
    (hinterval : c.timers.registrationInterval = interval)
    (hs : Searching cluster interval budget log c) (h : Alone c s c' es) :
    Searched cluster interval budget (⟨c, s, es⟩ :: log) c' := by
  cases h with
  | act hnext => exact hs.act hnext
  | answer hnone hregistering =>
      cases hs.place with
      | awaiting hpoint _ hdone hsteps htried =>
          obtain rfl := MainPoint.registering.inj (hregistering.symm.trans hpoint)
          exact hs.answer hcluster hbudget hinterval hdone hsteps htried _
      | asking _ htodo => cases htodo.symm.trans hnone
      | telling hpoint | pausing hpoint => cases hpoint.symm.trans hregistering
  | again hnone hretrying hover => exact hs.again hnone hretrying hover
  | leave hnone hretrying => exact hs.leave hnone hretrying
  | stay hother hmain howner hqueue hasked =>
      have hof : Search.ofLog interval (⟨c, s, es⟩ :: log) = Search.ofLog interval log :=
        Search.next_of_other hother hasked
      have hcount : mainSteps (⟨c, s, es⟩ :: log) = mainSteps log := by
        rw [mainSteps_cons, hother]
        rfl
      refine hs.next howner hqueue ?_
      rw [hof, hcount]
      exact hs.place.congr hmain

/-- After its search a coordinator goes its way. -/
theorem searched_of_over {r : SearchResult} (hd : c.work.Disciplined)
    (hstep : c.step? s = some (c', es)) (hresult : searchResult? log c = some r)
    (haccounts : Accounts cluster budget (Search.ofLog interval log) r)
    (hfate : Fate (6 * budget + 5) (mainSteps log) c r) :
    Searched cluster interval budget (⟨c, s, es⟩ :: log) c' := by
  have hresult' : searchResult? (⟨c, s, es⟩ :: log) c' = some r := by
    rw [searchResult?, hresult]
    rfl
  have hkeep : c.Keeps → c'.Keeps := keeps_of_moves hd (moves_of_step? hstep)
  have hover : c.main.point.isSeeking = false ∧
      Fate (6 * budget + 5) (mainSteps (⟨c, s, es⟩ :: log)) c' r := by
    cases r with
    | unseen n =>
        have hquits : Quits n (6 * budget + 5) (mainSteps log) c := hfate
        have halone : Alone c s c' es :=
          alone_of_step? hd hquits.idle (Or.inr hquits.isClosing) hstep
        refine ⟨?_, quits_of_alone hd halone hquits⟩
        cases hquits with
        | releasing hpoint | ended hpoint =>
            rw [hpoint]
            rfl
    | adopted id => exact ⟨Keeps.point hfate, hkeep hfate⟩
    | stopped => exact ⟨Keeps.point hfate, hkeep hfate⟩
  refine .ended hresult' ?_ hover.2
  rw [Search.ofLog, Search.next_of_not_seeking hover.1]
  exact haccounts

/-- What a search has used, and what it comes to. -/
structure Spends (cluster : ClusterConfig) (budget : Nat) (h : Search)
    (result : Option SearchResult) : Prop where
  /-- No answer but the last is of any use. -/
  earlier : ∀ a ∈ h.answers.dropLast, adopted? cluster a = none
  /-- A slot is adopted as soon as an answer shows it. -/
  adopted : ∀ id, result = some (.adopted id) ↔
    ∃ a, h.answers.getLast? = some a ∧ adopted? cluster a = some id
  /-- The search is given up when all the answers that it may ask for were of no use. -/
  unseen : ∀ n, result = some (.unseen n) ↔
    n = budget ∧ h.answers.length = budget ∧ ∀ a ∈ h.answers, adopted? cluster a = none
  /-- It is stopped when a pause is cut. -/
  stopped : result = some .stopped ↔ h.isCut = true
  cut : h.isCut = true → h.answers.length < budget ∧ ∀ a ∈ h.answers, adopted? cluster a = none
  /-- Each query was answered, and there was a full pause between any two. -/
  spent : result ≠ none →
    h.asked = h.answers.length ∧ h.pauses + 1 = h.answers.length ∧ h.answers.length ≤ budget

section Spends

variable {h : Search}

/-- Answers of no use show no slot. -/
theorem not_adopted_of_fruitless (hfruitless : ∀ a ∈ h.answers, adopted? cluster a = none)
    (id : Nat) : ¬ ∃ a, h.answers.getLast? = some a ∧ adopted? cluster a = some id := by
  rintro ⟨a, ha, hadopted⟩
  rw [hfruitless a (List.mem_of_getLast? ha)] at hadopted
  cases hadopted

/-- A search that has found nothing yet has not spent its budget. -/
theorem spends_of_none (hfruitless : ∀ a ∈ h.answers, adopted? cluster a = none)
    (hlength : h.answers.length < budget) (huncut : h.isCut = false) :
    Spends cluster budget h none where
  earlier a ha := hfruitless a (List.mem_of_mem_dropLast ha)
  adopted id := iff_of_false nofun (not_adopted_of_fruitless hfruitless id)
  unseen n := iff_of_false nofun fun hfull => by omega
  stopped := iff_of_false nofun (by simp [huncut])
  cut hcut := absurd (huncut.symm.trans hcut) Bool.noConfusion
  spent hsome := absurd rfl hsome

/-- A search that is over has used what is told of its end. -/
theorem Accounts.spends {r : SearchResult} (haccounts : Accounts cluster budget h r) :
    Spends cluster budget h (some r) := by
  cases haccounts with
  | @adopted done id earlier last hdone hanswers hearlier hlast hlength hasked hpaused huncut =>
      have hgetLast : h.answers.getLast? = some last := by rw [hanswers, List.getLast?_concat]
      have hcount : h.answers.length = done + 1 := by simp [hanswers, hlength]
      exact
        { earlier := by
            rw [hanswers, List.dropLast_concat]
            exact hearlier
          adopted := fun id' => by simp [hgetLast, hlast]
          unseen := fun n => iff_of_false nofun fun hfull =>
            not_adopted_of_fruitless hfull.2.2 id ⟨last, hgetLast, hlast⟩
          stopped := iff_of_false nofun (by simp [huncut])
          cut := fun hcut => absurd (huncut.symm.trans hcut) Bool.noConfusion
          spent := fun _ => ⟨by omega, by omega, by omega⟩ }
  | unseen hdone htried =>
      obtain ⟨hasked, hanswered, hpaused, huncut, hfruitless⟩ := htried
      exact
        { earlier := fun a ha => hfruitless a (List.mem_of_mem_dropLast ha)
          adopted := fun id => iff_of_false nofun (not_adopted_of_fruitless hfruitless id)
          unseen := fun n => by
            constructor
            · rintro ⟨⟩
              exact ⟨rfl, by omega, hfruitless⟩
            · rintro ⟨rfl, -, -⟩
              rfl
          stopped := iff_of_false nofun (by simp [huncut])
          cut := fun hcut => absurd (huncut.symm.trans hcut) Bool.noConfusion
          spent := fun _ => ⟨by omega, by omega, by omega⟩ }
  | stopped hdone hasked hanswered hpaused hcut hfruitless =>
      exact
        { earlier := fun a ha => hfruitless a (List.mem_of_mem_dropLast ha)
          adopted := fun id => iff_of_false nofun (not_adopted_of_fruitless hfruitless id)
          unseen := fun n => iff_of_false nofun fun hfull => by omega
          stopped := iff_of_true rfl hcut
          cut := fun _ => ⟨by omega, hfruitless⟩
          spent := fun _ => ⟨by omega, by omega, by omega⟩ }

end Spends

/-- A coordinator has returned once its main strand has ended. -/
theorem outcome?_eq_some_iff {o : Outcome} : c.outcome? = some o ↔ c.main.point = .ended o := by
  unfold outcome?
  split
  · next hpoint => rw [hpoint, Option.some.injEq, MainPoint.ended.injEq]
  · next hopen => exact ⟨nofun, fun hpoint => absurd hpoint (hopen o)⟩

/-- Whoever gives up has returned, or has something to do. -/
theorem Quits.returns {n bound steps : Nat} (h : Quits n bound steps c) :
    (c.outcome? = some (.timedOut n) ∨ c.outcome? = none ∧ (c.step? (.run .main)).isSome) ∧
      steps ≤ bound := by
  cases h with
  | @releasing before hpoint htodo hbefore hsteps hidle =>
      have hreturned : c.outcome? = none := by rw [outcome?, hpoint]
      refine ⟨Or.inr ⟨hreturned, ?_⟩, by omega⟩
      cases before with
      | nil =>
          rw [step?_run htodo hidle.isBlocked]
          rfl
      | cons b before =>
          rw [step?_run htodo hidle.isBlocked]
          rfl
  | ended hpoint hsteps _ => exact ⟨Or.inl (outcome?_eq_some_iff.2 hpoint), hsteps⟩

/-- Nobody else returns as if it had given up. -/
theorem Fate.eq_unseen {bound steps n : Nat} {r : SearchResult} (h : Fate bound steps c r)
    (hended : c.outcome? = some (.timedOut n)) : r = .unseen n := by
  rw [outcome?_eq_some_iff] at hended
  cases r with
  | adopted | stopped => exact absurd (Or.inr hended) (Keeps.kept h n)
  | unseen attempts =>
      have hquits : Quits attempts bound steps c := h
      cases hquits with
      | releasing hpoint => cases hpoint.symm.trans hended
      | ended hpoint =>
          cases hpoint.symm.trans hended
          rfl

section Started

variable {timers : TimerConfig} {devices : List Device} {updates changes : Signal} {clock : Nat}

/-- Every coordinator looks for itself, or has done so and goes its way. -/
theorem searched_of_run (hrun : Run (start cluster timers devices updates changes clock) log c) :
    Searched cluster timers.registrationInterval (max timers.registrationAttempts 1) log c := by
  induction hrun with
  | start =>
      have hbudget : 0 < max timers.registrationAttempts 1 := by omega
      have htried : Tried cluster {} 0 0 0 := ⟨rfl, rfl, rfl, rfl, by simp⟩
      exact .searching ⟨rfl, ⟨nofun, rfl⟩, .asking rfl rfl hbudget (Nat.le_refl 0) htried⟩
  | @step log c c' s es hrun hstep ih =>
      have hd : c.work.Disciplined := disciplined_of_run hrun (disciplined_start ..)
      have htimers : c.timers = timers := hrun.timers.1
      -- The delayed strand is not born before the search is over, so the main strand is alone.
      cases ih with
      | searching hs =>
          exact searched_of_searching (cluster_of_run hrun) (by rw [attempts, htimers])
            (by rw [htimers]) hs (alone_of_step? hd hs.idle (Or.inl hs.place.isSeeking) hstep)
      | ended hresult haccounts hfate => exact searched_of_over hd hstep hresult haccounts hfate

/-- **A search keeps to its budget.**  Whatever the queries are answered, a coordinator that is
started asks until an answer shows its slot, its budget is used up, or the shutdown cuts a pause.
It has asked once for each answer, and has paused for the full time between any two queries; the
number of its steps is bounded, and until the search is over there is a next one.  If its budget is
used up, and only then, the coordinator returns an error. -/
theorem search_keeps_to_budget
    (hrun : Run (start cluster timers devices updates changes clock) log c) :
    let budget := max timers.registrationAttempts 1
    let result := searchResult? log c
    Spends cluster budget (Search.ofLog timers.registrationInterval log) result ∧
      (result = none → c.GoesOn ∧ mainSteps log ≤ 6 * budget) ∧
      (∀ n, c.outcome? = some (.timedOut n) → result = some (.unseen n)) ∧
      ∀ n, result = some (.unseen n) →
        (c.outcome? = some (.timedOut n) ∨ c.outcome? = none ∧ (c.step? (.run .main)).isSome) ∧
          mainSteps log ≤ 6 * budget + 5 := by
  intro budget result
  cases searched_of_run hrun with
  | searching hs =>
      have hresult : result = none := hs.result
      obtain ⟨hfruitless, hlength, huncut, hsteps⟩ := hs.place.within
      rw [hresult]
      refine ⟨spends_of_none hfruitless hlength huncut,
        fun _ => ⟨hs.place.goesOn hs.idle, hsteps⟩, fun n hended => ?_, nofun⟩
      have hseeking := hs.place.isSeeking
      rw [outcome?_eq_some_iff.1 hended] at hseeking
      cases hseeking
  | @ended r hr haccounts hfate =>
      have hresult : result = some r := hr
      rw [hresult]
      refine ⟨haccounts.spends, nofun, fun n hended => congrArg some (hfate.eq_unseen hended),
        fun n hunseen => ?_⟩
      obtain rfl := Option.some.inj hunseen
      exact Quits.returns hfate

/-- A node that looks for itself twice at most. -/
def ofTwoAttempts : Coordinator :=
  start { nodeAddress := "b", numberOfNodes := 2 } { registrationAttempts := 2 } devicesOfTwo
    (.ofCapacity 1) (.ofCapacity 1) 0

/-- Two queries in vain, and the release that follows. -/
def fruitlessSteps : List Step :=
  let acts (k : Nat) : List Step := List.replicate k (.run .main)
  acts 1 ++ [.answer .main (.error .unavailable)] ++
    acts 3 ++ [.pass 1000000000, .wake .main] ++
    acts 1 ++ [.answer .main (.ok [Member.sharded 0 "a"])] ++ acts 6

/-- Who has two attempts and is not seen pauses once and then returns an error. -/
theorem search_ends_unseen_after_two :
    ∃ log c, Run ofTwoAttempts log c ∧ c.outcome? = some (.timedOut 2) ∧
      searchResult? log c = some (.unseen 2) ∧
      (Search.ofLog (.ofSecs 1) log).asked = 2 ∧
      (Search.ofLog (.ofSecs 1) log).pauses = 1 := by
  obtain ⟨log, c, hrun, hcheck⟩ := exists_run_of_follow ofTwoAttempts fruitlessSteps
    (fun _ c => c.outcome? == some (.timedOut 2)) (by decide +kernel)
  have hreturned : c.outcome? = some (.timedOut 2) := eq_of_beq hcheck
  obtain ⟨hspends, -, hunseen, -⟩ := search_keeps_to_budget hrun
  have hresult := hunseen 2 hreturned
  obtain ⟨-, hlength, -⟩ := (hspends.unseen 2).1 hresult
  obtain ⟨hasked, hpauses, -⟩ := hspends.spent (by simp [hresult])
  have hbudget : max ({ registrationAttempts := 2 } : TimerConfig).registrationAttempts 1 = 2 := rfl
  rw [hlength, hbudget] at hasked hpauses
  exact ⟨log, c, hrun, hreturned, hresult, hasked, Nat.succ.inj hpauses⟩

end Started

end Coordinator

end FleetSharding
