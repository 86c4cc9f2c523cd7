import FleetSharding.Proofs.Coordinator.Rebalance
import FleetSharding.Proofs.SlotMap.Seating

/-!
# Decisions on lists in another order

Nodes need not see the members in the same order.  As long as no two members claim one slot of the
cluster, they decide alike all the same: the layout and the number of healthy members do not depend
on the order, and a decision looks at nothing else.

* `Standing.Decided.congr`: a decision looks at the layout and at the number of healthy members.
* `Coordinator.concord_of_perm`: what two nodes come to on the same members in another order.
-/

namespace FleetSharding

/-- A decision looks at the layout of the slots and at the number of healthy members only. -/
theorem Standing.Decided.congr {cluster : ClusterConfig} {slot : Nat}
    {members members' : List Member} {s : Standing} (h : s.Decided cluster slot members)
    (hslots : SlotMap.ofMembers cluster.numberOfNodes members =
      SlotMap.ofMembers cluster.numberOfNodes members')
    (hhealthy : healthyCount members = healthyCount members') :
    s.Decided cluster slot members' := by
  obtain ⟨hholds, hsuspended, hphase, hcount, hfailed⟩ := h
  rw [hslots, hhealthy] at hholds
  rw [hhealthy] at hsuspended hcount
  rw [hslots, hhealthy] at hphase
  rw [hslots] at hfailed
  exact ⟨hholds, hsuspended, hphase, hcount, hfailed⟩

namespace Coordinator

variable {c c' : Coordinator}

/-- A call of the rebalance on a list of members comes to its end with a decision on that list. -/
theorem Ready.exists_decided {cluster : ClusterConfig} (h : Ready cluster c)
    (members : List Member) :
    ∃ d, c.rebalance? (.ok members) = some d ∧ d.standing.Decided cluster c.slot members ∧
      d.standing.status.filters = d.standing.registry.names := by
  obtain ⟨hcluster, -⟩ := h.exists_steadied
  obtain ⟨d, hcall, -, -, -, hd⟩ := exists_rebalance? h.unowned (.ok members)
  rw [hcluster] at hd
  refine ⟨d, hcall, ?_, ?_⟩
  · rw [hd]
    exact Standing.decided_rebalanced h.tended.poised
  · rw [hd]
    exact (h.tended.after (.ok members)).names

/-- **Agreement does not depend on the order in which members are listed.**  On two lists of the
same members, in which no two with the marker claim one slot of the cluster, the layouts are equal,
as many members are healthy, each device has the same owner, and any two nodes with one slot and the
same settings that decide on them end up with the same filters, flag and published decision. -/
theorem concord_of_perm {size : Nat} {members members' : List Member}
    (hperm : members.Perm members') (hunique : SlotMap.SeatsUnique size members) :
    SlotMap.ofMembers size members = SlotMap.ofMembers size members' ∧
      healthyCount members = healthyCount members' ∧
      (∀ d : Device, (SlotMap.ofMembers size members).ownerOf d.key =
        (SlotMap.ofMembers size members').ownerOf d.key) ∧
      ∀ {cluster cluster' : ClusterConfig} {c c' : Coordinator}, Ready cluster c →
        Ready cluster' c' → cluster.numberOfNodes = size → cluster'.numberOfNodes = size →
        cluster.minimumShards = cluster'.minimumShards →
        c.status.shardId = c'.status.shardId →
        ∃ d d', c.rebalance? (.ok members) = some d ∧ c'.rebalance? (.ok members') = some d' ∧
          d.standing.Agrees d'.standing := by
  have hslots := hunique.ofMembers_perm hperm
  have hhealthy := healthyCount_perm hperm
  refine ⟨hslots, hhealthy, fun d => by rw [hslots], ?_⟩
  intro cluster cluster' c c' h h' hnodes hnodes' hminimum hshard
  have hslot : c.slot = c'.slot := by
    rw [h.shard, h'.shard] at hshard
    exact Option.some.inj hshard
  obtain ⟨d, hcall, hdecided, hnames⟩ := h.exists_decided members
  obtain ⟨d', hcall', hdecided', hnames'⟩ := h'.exists_decided members'
  have hsame : d.standing.Decided cluster c.slot members' :=
    hdecided.congr (by rw [hnodes, hslots]) hhealthy
  rw [← hslot] at hdecided'
  exact ⟨d, d', hcall, hcall',
    hsame.agrees hdecided' (hnodes.trans hnodes'.symm) hminimum hnames hnames'⟩

/-- A node of a cluster of two that is up, one that has failed, and others whose ids are no slots of
the cluster; one of them has no marker. -/
def mixedMembers : List Member :=
  [{ Member.sharded 0 "a" with id := "+0", status := .critical },
    { Member.sharded 1 "b" with id := "01" }, { Member.sharded 7 "c" with id := "7" },
    { Member.sharded 7 "d" with id := "7" }, { Member.sharded 0 "e" with id := "node-e" },
    { id := "1", address := "f", status := .passing }]

/-- Two nodes with different pasts see them in opposite orders, and both take over the device of the
node that has failed. -/
theorem concord_of_reverse :
    mixedMembers.Perm mixedMembers.reverse ∧ SlotMap.SeatsUnique 2 mixedMembers ∧
      ∃ c c' d d', Ready { nodeAddress := "b", numberOfNodes := 2 } c ∧
        Ready { nodeAddress := "b", numberOfNodes := 2 } c' ∧
        c.status.phase = .takenOver ∧ c'.status.phase = .steady ∧
        c.rebalance? (.ok mixedMembers) = some d ∧
        c'.rebalance? (.ok mixedMembers.reverse) = some d' ∧ d.standing.Agrees d'.standing := by
  have hperm : mixedMembers.Perm mixedMembers.reverse := (List.reverse_perm _).symm
  have hunique : SlotMap.SeatsUnique 2 mixedMembers := by decide +kernel
  obtain ⟨c, hc, hshard, hphase⟩ :=
    exists_ready_of_two failoverSteps .takenOver (by simp) (by decide +kernel)
  obtain ⟨c', hc', hshard', hphase'⟩ :=
    exists_ready_of_two (failoverSteps.take 18) .steady (by simp) (by decide +kernel)
  obtain ⟨-, -, -, hagree⟩ := concord_of_perm hperm hunique
  obtain ⟨d, d', hcall, hcall', hagrees⟩ :=
    hagree hc hc' rfl rfl rfl (hshard.trans hshard'.symm)
  exact ⟨hperm, hunique, c, c', d, d', hc, hc', hphase, hphase', hcall, hcall', hagrees⟩

end Coordinator

end FleetSharding
