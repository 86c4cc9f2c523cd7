import FleetSharding.Proofs.Coordinator.Overlap
import FleetSharding.Proofs.SlotMap.Survivors

/-!
# The threshold of the suspension

A node suspends collection when a decision finds too few healthy members.  Members are weighed and
not slots: a healthy member that ends up with no slot counts towards the minimum all the same.

* `suspended_iff_of_decidedOn`: when a decision suspends collection, in members and in slots.
* `exists_awake_below_minimum`: a node goes on with fewer surviving slots than the minimum.
-/

namespace FleetSharding

/-- A decision leads to the phase of the suspension exactly if too few members are healthy. -/
theorem decidedPhase_eq_suspended_iff {slots : SlotMap} {healthy minimum : Nat} :
    decidedPhase slots healthy minimum = .suspended ↔ healthy < minimum := by
  unfold decidedPhase
  split
  · next henough =>
    have hnot : ¬ healthy < minimum := Nat.not_lt.2 henough
    split <;> simp [hnot]
  · next hfew => simp [Nat.not_le.1 hfew]

namespace Coordinator

/-- **When a decision suspends collection.**  It does so if the healthy members are fewer than the
minimum; these are one for each surviving slot, and those that were passed over.  The published
phase says the same, and without a suspension the main filter is in. -/
theorem suspended_iff_of_decidedOn {cluster : ClusterConfig} {devices : List Device}
    {members : List Member} {c : Coordinator} (h : DecidedOn cluster devices members c) :
    (c.suspended = true ↔ healthyCount members < cluster.minimumShards) ∧
      (c.suspended = true ↔
        (SlotMap.ofMembers cluster.numberOfNodes members).survivors +
          (SlotMap.passedOver cluster.numberOfNodes members).length < cluster.minimumShards) ∧
      (c.suspended = true →
        (SlotMap.ofMembers cluster.numberOfNodes members).survivors < cluster.minimumShards) ∧
      (c.status.phase = .suspended ↔ c.suspended = true) ∧
      c.registry.has mainFilter = !c.suspended := by
  have hdecided : c.standing.Decided cluster c.slot members := h.decided.1
  have hflag : c.suspended = decide (healthyCount members < cluster.minimumShards) :=
    hdecided.suspended
  have hfew : c.suspended = true ↔ healthyCount members < cluster.minimumShards := by
    rw [hflag, decide_eq_true_iff]
  have hslots := hfew
  rw [SlotMap.healthyCount_eq_survivors_add cluster.numberOfNodes] at hslots
  refine ⟨hfew, hslots, fun hsuspended => ?_, ?_, ?_⟩
  · exact lt_of_le_of_lt (Nat.le_add_right _ _) (hslots.1 hsuspended)
  · rw [show c.status.phase = _ from hdecided.phase, decidedPhase_eq_suspended_iff, hfew]
  · rw [show c.registry.has mainFilter = _ from hdecided.holds.has_main, hflag]
    by_cases henough : cluster.minimumShards ≤ healthyCount members
    · simp [henough]
    · simp [henough, Nat.not_le.1 henough]

/-- Steps that can be taken lead to a coordinator that has decided, with all that can be checked
there. -/
theorem exists_decidedOn_of_follow (cluster : ClusterConfig) (timers : TimerConfig)
    (devices : List Device) (updates changes : Signal) (clock : Nat) (steps : List Step)
    (members : List Member) (p : Coordinator → Bool)
    (h : ((start cluster timers devices updates changes clock).follow [] steps).any (fun r =>
      latestDecision r.1 == some (.rebalance members) && !inProgress r.1 r.2 &&
        r.2.status.phase != .stopped && p r.2) = true) :
    ∃ c, DecidedOn cluster devices members c ∧ p c = true := by
  obtain ⟨⟨log, c⟩, hfollow, hcheck⟩ := (Option.any_eq_true _ _).1 h
  simp only [Bool.and_eq_true, beq_iff_eq, Bool.not_eq_true', bne_iff_ne] at hcheck
  obtain ⟨⟨⟨hlatest, hidle⟩, hheld⟩, hp⟩ := hcheck
  exact ⟨c, ⟨⟨timers, updates, changes, clock, log, run_of_follow .start hfollow, hlatest, hidle⟩,
    hheld⟩, hp⟩

/-- The first of two nodes, neither of which may be missing. -/
def bothOfTwo : ClusterConfig := { nodeAddress := "a", numberOfNodes := 2, minimumShards := 2 }

/-- It starts while both are healthy, and its first tick decides on a list of members. -/
def decisionSteps (members : List Member) : List Step :=
  failoverSteps.take 24 ++ [.answer .main (.ok members)] ++
    List.replicate ((rebalanceActions bothOfTwo 0 false members).length + 2) (.run .main)

/-- With the other node failed one slot survives, and the first node suspends collection. -/
theorem suspended_of_two :
    ∃ c, DecidedOn bothOfTwo devicesOfTwo (membersOfTwo .critical) c ∧ c.suspended = true ∧
      c.registry.has mainFilter = false := by
  obtain ⟨c, hc, -⟩ := exists_decidedOn_of_follow bothOfTwo {} devicesOfTwo (.ofCapacity 1)
    (.ofCapacity 1) 0 (decisionSteps (membersOfTwo .critical)) (membersOfTwo .critical)
    (fun _ => true) (by decide +kernel)
  obtain ⟨hfew, -, -, -, hmain⟩ := suspended_iff_of_decidedOn hc
  have hsuspended : c.suspended = true := hfew.2 (by decide +kernel)
  rw [hsuspended] at hmain
  exact ⟨c, hc, hsuspended, hmain⟩

/-- A member with an id past the last slot keeps the first node out of the suspension, though one
slot survives where two are the minimum. -/
theorem exists_awake_below_minimum :
    ∃ c, DecidedOn bothOfTwo devicesOfTwo [.sharded 0 "a", .sharded 7 "b"] c ∧
      bothOfTwo.minimumShards ≤ bothOfTwo.numberOfNodes ∧
      (SlotMap.ofMembers bothOfTwo.numberOfNodes [.sharded 0 "a", .sharded 7 "b"]).survivors <
        bothOfTwo.minimumShards ∧
      c.suspended = false := by
  obtain ⟨c, hc, hawake⟩ := exists_decidedOn_of_follow bothOfTwo {} devicesOfTwo (.ofCapacity 1)
    (.ofCapacity 1) 0 (decisionSteps [.sharded 0 "a", .sharded 7 "b"])
    [.sharded 0 "a", .sharded 7 "b"] (fun c => !c.suspended) (by decide +kernel)
  exact ⟨c, hc, by decide, by decide +kernel, by simpa using hawake⟩

end Coordinator

end FleetSharding
