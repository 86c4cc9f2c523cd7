import FleetSharding.Coordinator.Basic

/-!
# Decisions

What follows from an answer to a query, as the list of actions that carry it out.  The list is fixed
when the answer comes: nothing it depends on changes while the ownership is held.
-/

namespace FleetSharding

/-- The count of a failed query. -/
def queryFailed : Measurement := .discoveryError "instances"

/-- Takes over the devices of failed slots, or of none. -/
def takeoverActions (slot : Nat) (slots : SlotMap) (source : String) : List Action :=
  .installExtra slots ::
    if slots.allPassing then []
    else
      [ .measure (.takeover source),
        .report (.takeoverInstalled slot slots.failed slots.survivors source) ]

/-- Removes both filters; the first time it is reported. -/
def suspendActions (suspended : Bool) (healthy minimum : Nat) : List Action :=
  [.removeMain, .removeExtra] ++
    if suspended then []
    else
      [ .setSuspended true, .measure (.suspended true), .report (.suspended healthy minimum) ]

/-- Installs the main filter again, if collection was suspended. -/
def unsuspendActions (suspended : Bool) (healthy minimum : Nat) : List Action :=
  if suspended then
    [ .installMain, .setSuspended false, .measure (.suspended false),
      .report (.unsuspended healthy minimum) ]
  else []

/-- The phase that a decision leads to. -/
def decidedPhase (slots : SlotMap) (healthy minimum : Nat) : Phase :=
  if minimum ≤ healthy then if slots.allPassing then .steady else .takenOver
  else .suspended

/-- Carries out a new decision on a list of members, up to the refresh. -/
def rebalanceActions (c : ClusterConfig) (slot : Nat) (suspended : Bool)
    (members : List Member) : List Action :=
  let slots := SlotMap.ofMembers c.numberOfNodes members
  let healthy := healthyCount members
  (snapshotWarnings c.numberOfNodes members).map .report ++
    [.measure (.membership healthy slots.failed.length)] ++
    (if c.minimumShards ≤ healthy then
      unsuspendActions suspended healthy c.minimumShards ++ takeoverActions slot slots "steady"
    else suspendActions suspended healthy c.minimumShards) ++
    [ .measure (.rebalance "ok"), .requestRefresh,
      .publish (.decided (decidedPhase slots healthy c.minimumShards) healthy slots.failed) ]

/-- What the delayed look for failed slots leads to. -/
def delayedActions (c : ClusterConfig) (slot : Nat) (members : List Member) : List Action :=
  let slots := SlotMap.ofMembers c.numberOfNodes members
  let healthy := healthyCount members
  .measure (.membership healthy slots.failed.length) ::
    if slots.allPassing ∨ healthy < c.minimumShards then []
    else
      takeoverActions slot slots "delayed" ++
        [.requestRefresh, .publish (.decided .takenOver healthy slots.failed)]

namespace Coordinator

/-- Removes everything and says so. -/
def releaseActions (outcome : Outcome) : List Action :=
  [.acquire, .dropMain, .publish (.phase .stopped), .unlock, .finish outcome]

/-- The end of the main strand's work: what it installed is released. -/
def release (c : Coordinator) (outcome : Outcome) (before : List Action) : Coordinator :=
  c.goMain .releasing (before ++ releaseActions outcome)

/-- Looks for itself once more after a pause, or gives up. -/
def retry (c : Coordinator) (attempt : Nat) (before : List Action) : Coordinator :=
  if attempt < c.attempts then
    c.goMain (.retrying attempt) (before ++ [.sleep c.timers.registrationInterval])
  else c.release (.timedOut c.attempts) before

/-- What the main strand makes of an answer while it looks for itself. -/
def onRegistration (c : Coordinator) (attempt : Nat) : Answer → Coordinator
  | .ok members =>
    match ownSlot? c.cluster members with
    | some slot =>
      { c with slot }.goMain .warming
        [ .report (.registered c.cluster.nodeAddress slot attempt), .publish (.registered slot),
          .ask ]
    | none => c.retry attempt ((ownSlotWarning c.cluster members).map .report)
  | .error e =>
    c.retry attempt [.measure queryFailed, .report (.registrationQueryFailed attempt e)]

/-- What the main strand makes of an answer while it waits for enough members. -/
def onWarmup (c : Coordinator) : Answer → Coordinator
  | .ok members =>
    let healthy := healthyCount members
    let required := c.cluster.initializingShards
    let seen : List Action :=
      [.report (.warmupProgress healthy required), .publish (.warmth healthy)]
    if required ≤ healthy then
      c.goMain .settling (seen ++ [.publish (.phase .settling), .sleep c.timers.settleWindow])
    else c.goMain .waiting (seen ++ [.sleep c.timers.warmupInterval])
  | .error e =>
    c.goMain .waiting
      [ .measure queryFailed, .report (.warmupQueryFailed e), .publish .discoveryFailed,
        .sleep c.timers.warmupInterval ]

/-- The main shard goes in, and the steady loop begins. -/
def enterSteady (c : Coordinator) : Coordinator :=
  c.goMain .steady
    [ .installMain, .report (.mainShardInstalled c.slot c.cluster.numberOfNodes), .requestRefresh,
      .publish (.phase .steady), .spawnDelayed, .startTicker ]

/-- What the main strand makes of an answer in the steady loop. -/
def onRebalance (c : Coordinator) : Answer → Coordinator
  | .ok members =>
    c.goMain .steady
      (rebalanceActions c.cluster c.slot c.suspended members ++ [.unlock, .settle])
  | .error e =>
    c.goMain .steady
      [ .measure queryFailed, .measure (.rebalance "error"), .report (.rebalanceQueryFailed e),
        .publish .discoveryFailed, .unlock ]

/-- What the delayed strand makes of an answer. -/
def onDelayed (c : Coordinator) : Answer → Coordinator
  | .ok members => c.goDelayed .ended (delayedActions c.cluster c.slot members ++ [.unlock])
  | .error e =>
    c.goDelayed .ended
      [ .measure queryFailed, .report (.delayedQueryFailed e), .publish .discoveryFailed, .unlock ]

end Coordinator

end FleetSharding
