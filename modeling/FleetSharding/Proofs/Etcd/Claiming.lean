import FleetSharding.Proofs.Allotment
import FleetSharding.Proofs.Etcd.Enrolment
import FleetSharding.Proofs.Etcd.Namespace
import FleetSharding.Proofs.Etcd.ReadBack

/-!
# A free slot is always found

A node that registers lists the members once, and then claims the slots that none of them holds, one
after the other.  Its list grows old while others claim and lose slots, and there may be keys in its
way that hold no member.  But whichever slot it passes over was taken when it listed the members or
when it claimed the slot, so it gets past no slot that is free all the time.

* `taken_of_holdsSlot`, `taken_of_contains`: why a slot may be passed over.
* `Findings`: what a registration has found out, at each place it may be at.
* `Unlisted.serve`, `Enquiry.unlisted_of_reachable`: an address that is in no record stays so,
  whatever nodes with other addresses ask for.
* `Enquiry.free_slot_is_found`: what comes of a registration among any others.
-/

namespace FleetSharding.Etcd

/-- A key is there that is the number of a slot. -/
def Taken (front : String) (s : Store) (slot : Nat) : Prop :=
  ∃ key ∈ s.records.keys,
    startsLike front key = true ∧ Text.word? (dropFront front key) = some slot

instance (front : String) (s : Store) (slot : Nat) : Decidable (Taken front s slot) :=
  inferInstanceAs (Decidable (∃ key ∈ s.records.keys, _))

/-- A member is listed for each record under the front that can be read. -/
theorem mem_listed_iff {clusterId : String} {s : Store} {m : Member} :
    m ∈ listed clusterId s ↔ ∃ key r record, s.records.get? key = some r ∧
      startsLike (membersPrefix clusterId) key = true ∧
      MemberRecord.read (Text.encode r.value) = .ok record ∧
      m = record.toMember (dropFront (membersPrefix clusterId) key) := by
  rw [listed, readRecords_members, List.mem_filterMap]
  constructor
  · rintro ⟨e, he, hm⟩
    obtain ⟨⟨key, r⟩, hmem, rfl⟩ := List.mem_map.1 he
    obtain ⟨hentry, hfront⟩ := List.mem_filter.1 hmem
    rw [decodeMember, Text.decodeLossy_encode] at hm
    cases hread : MemberRecord.read (Text.encode r.value) with
    | error fault =>
        rw [hread] at hm
        cases hm
    | ok record =>
        rw [hread] at hm
        cases hm
        exact ⟨key, r, record, SortedMap.mem_entries_iff.1 hentry, hfront, hread, rfl⟩
  · rintro ⟨key, r, record, hr, hfront, hread, rfl⟩
    refine ⟨(key, r.value), List.mem_map.2 ⟨(key, r), ?_, rfl⟩, ?_⟩
    · exact List.mem_filter.2 ⟨SortedMap.mem_entries_iff.2 hr, hfront⟩
    · rw [decodeMember, Text.decodeLossy_encode, hread]
      rfl

/-- The slot of a member that is listed is taken. -/
theorem taken_of_holdsSlot {clusterId : String} {s : Store} {slot : Nat}
    (h : holdsSlot (listed clusterId s) slot = true) : Taken (membersPrefix clusterId) s slot := by
  obtain ⟨m, hm, hslot⟩ := holdsSlot_iff.1 h
  obtain ⟨key, r, record, hr, hfront, -, rfl⟩ := mem_listed_iff.1 hm
  exact ⟨key, SortedMap.mem_keys_iff.2 (by rw [hr]; rfl), hfront, hslot⟩

/-- So is a slot whose key is there, whatever it holds. -/
theorem taken_of_contains {clusterId : String} {s : Store} {slot : Nat}
    (h : s.records.contains (memberKey clusterId slot) = true) (hword : slot < Text.wordBound) :
    Taken (membersPrefix clusterId) s slot := by
  refine ⟨memberKey clusterId slot, SortedMap.mem_keys_iff.2 h, ?_, ?_⟩
  · rw [startsLike_iff, memberKey, String.toList_append]
    exact List.prefix_append _ _
  · rw [memberKey, dropFront_append, Text.word?_toString hword]

/-- No record that is listed bears an address. -/
def Unlisted (clusterId address : String) (s : Store) : Prop :=
  ∀ m ∈ listed clusterId s, m.address ≠ address

instance (clusterId address : String) (s : Store) : Decidable (Unlisted clusterId address s) :=
  inferInstanceAs (Decidable (∀ m ∈ listed clusterId s, _))

namespace Unlisted

variable {clusterId address : String} {s s' : Store}

/-- An address stays unlisted as long as only records of others are written. -/
theorem of_records (h : Unlisted clusterId address s)
    (hrecords : ∀ key r, s'.records.get? key = some r →
      s.records.get? key = some r ∨
        ∃ other, other ≠ address ∧ r.value = (MemberRecord.passing other).write) :
    Unlisted clusterId address s' := by
  intro m hm
  obtain ⟨key, r, record, hr, hfront, hread, rfl⟩ := mem_listed_iff.1 hm
  rcases hrecords key r hr with hold | ⟨other, hother, hvalue⟩
  · exact h _ (mem_listed_iff.2 ⟨key, r, record, hold, hfront, hread, rfl⟩)
  · rw [hvalue, MemberRecord.read_write ⟨"passing", rfl⟩] at hread
    cases hread
    exact hother

/-- Another node's record does not list this one. -/
theorem put (h : Unlisted clusterId address s) {other : String} (hother : other ≠ address)
    (key : String) (lease : Option Nat) :
    Unlisted clusterId address (s.put key (MemberRecord.passing other).write lease) := by
  refine h.of_records fun k r hr => ?_
  rw [Store.get?_put] at hr
  split at hr
  · cases hr
    exact Or.inr ⟨other, hother, rfl⟩
  · exact Or.inl hr

/-- Nor does the end of leases. -/
theorem endLeases (h : Unlisted clusterId address s) (ended : Nat → Bool) :
    Unlisted clusterId address (s.endLeases ended) := by
  refine h.of_records fun k r hr => Or.inl ?_
  rw [Store.get?_endLeases] at hr
  exact (Option.filter_eq_some_iff.1 hr).1

/-- A node with another address does not list it. -/
theorem serve (h : Unlisted clusterId address s) {r : Registrant} (hother : r.address ≠ address)
    {g : Registration} {q : Request} (hq : g.request? r = some q) :
    Unlisted clusterId address (s.serve q).1 := by
  cases g with
  | start | listing | opening =>
      cases hq
      exact h
  | adopting lease slot =>
      cases hq
      exact h.put hother _ _
  | claiming lease slot members =>
      cases hq
      simp only [Store.serve]
      split
      · exact h
      · exact h.put hother _ _
  | yielding lease =>
      cases hq
      exact h.endLeases _
  | ended result => cases hq

/-- The node that has the address lists it with its own record only. -/
theorem serve_own {r : Registrant} {g : Registration} {q : Request}
    (h : g.written? = none → Unlisted clusterId address s) (hq : g.request? r = some q)
    (hwritten : (g.receive r (.answered (s.serve q).2)).1.written? = none) :
    Unlisted clusterId address (s.serve q).1 := by
  cases g with
  | start | listing =>
      cases hq
      exact h rfl
  | adopting | opening =>
      cases hq
      cases hwritten
  | claiming lease slot members =>
      cases hq
      simp only [Store.serve] at hwritten ⊢
      split
      · exact h rfl
      · next hfree =>
        rw [if_neg hfree] at hwritten
        cases hwritten
  | yielding lease =>
      cases hq
      exact (h rfl).endLeases _
  | ended => cases hq

end Unlisted

/-- What a registration has found out, at each place that it may be at: `taken` are slots that were
taken at some moment, and `talk` what it has asked for and got, the latest first. -/
inductive Findings (r : Registrant) (taken : Nat → Prop) (talk : List (Request × Response)) :
    Registration → Prop
  | start (hlength : talk = []) : Findings r taken talk .start
  | listing {lease : Nat} (hgranted : (.grant r.ttl, .lease lease) ∈ talk)
      (hlength : talk.length ≤ 1) : Findings r taken talk (.listing lease)
  /-- All slots below the one that is claimed were taken, and so are those of the members. -/
  | claiming {lease slot : Nat} {members : List Member}
      (hgranted : (.grant r.ttl, .lease lease) ∈ talk) (hlength : talk.length ≤ slot + 2)
      (hslot : slot < r.nodes) (hbelow : ∀ k < slot, taken k)
      (hmembers : ∀ k, holdsSlot members k = true → taken k) :
      Findings r taken talk (.claiming lease slot members)
  | yielding {lease : Nat} (hgranted : (.grant r.ttl, .lease lease) ∈ talk)
      (hlength : talk.length ≤ r.nodes + 2) (hall : ∀ k < r.nodes, taken k) :
      Findings r taken talk (.yielding lease)
  | opening {lease slot : Nat} (hlength : talk.length ≤ slot + 3) (hslot : slot < r.nodes)
      (hbelow : ∀ k < slot, taken k) : Findings r taken talk (.opening lease slot)
  | registered {lease slot : Nat} (hbelow : ∀ k < slot, taken k) :
      Findings r taken talk (.ended (.ok (r.session lease slot)))
  | full {lease : Nat} (hgranted : (.grant r.ttl, .lease lease) ∈ talk)
      (hrevoked : (.revoke lease, .done) ∈ talk) (hall : ∀ k < r.nodes, taken k) :
      Findings r taken talk (.ended (.error (.noFreeSlot r.nodes)))

namespace Findings

variable {r : Registrant} {taken taken' : Nat → Prop} {talk : List (Request × Response)}
  {g : Registration} {q : Request} {s : Store}

/-- What was found out stays true. -/
theorem mono (h : Findings r taken talk g) (hmore : ∀ k, taken k → taken' k) :
    Findings r taken' talk g := by
  cases h with
  | start hlength => exact .start hlength
  | listing hgranted hlength => exact .listing hgranted hlength
  | claiming hgranted hlength hslot hbelow hmembers =>
      exact .claiming hgranted hlength hslot (fun k hk => hmore k (hbelow k hk))
        fun k hk => hmore k (hmembers k hk)
  | yielding hgranted hlength hall =>
      exact .yielding hgranted hlength fun k hk => hmore k (hall k hk)
  | opening hlength hslot hbelow =>
      exact .opening hlength hslot fun k hk => hmore k (hbelow k hk)
  | registered hbelow => exact .registered fun k hk => hmore k (hbelow k hk)
  | full hgranted hrevoked hall =>
      exact .full hgranted hrevoked fun k hk => hmore k (hall k hk)

/-- A registration goes on to the next slot that no member of its list holds. -/
theorem claimFrom {lease first : Nat} {members : List Member}
    (hgranted : (.grant r.ttl, .lease lease) ∈ talk) (hlength : talk.length ≤ first + 2)
    (hfirst : first ≤ r.nodes) (hbelow : ∀ k < first, taken k)
    (hmembers : ∀ k, holdsSlot members k = true → taken k) :
    Findings r taken talk (r.claimFrom lease first members) := by
  have htaken : ∀ k, (first ≤ k → holdsSlot members k = true) → taken k := by
    intro k hheld
    by_cases hk : k < first
    · exact hbelow k hk
    · exact hmembers k (hheld (Nat.le_of_not_lt hk))
  unfold Registrant.claimFrom
  split
  · next slot hfree =>
    obtain ⟨hle, hslot, -, hheld⟩ := freeSlotFrom_eq_some_iff.1 hfree
    exact .claiming hgranted (by omega) hslot
      (fun k hk => htaken k fun hfrom => hheld k hfrom hk) hmembers
  · next hnone =>
    have hheld := freeSlotFrom_eq_none_iff.1 hnone
    exact .yielding hgranted (by omega) fun k hk => htaken k fun hfrom => hheld k hfrom hk

/-- A node whose address is new finds no slot of its own. -/
theorem formerSlot?_eq_none (h : Unlisted r.clusterId r.address s) :
    r.formerSlot? (listed r.clusterId s) = none := by
  have hnobody : (listed r.clusterId s).find? (·.address == r.address) = none :=
    List.find?_eq_none.2 fun m hm => by simpa using h m hm
  rw [Registrant.formerSlot?, hnobody]
  rfl

/-- **A request that is served** leads on, and past a slot only if it is taken. -/
theorem serve (h : Findings r taken talk g) (hq : g.request? r = some q)
    (hword : r.nodes ≤ Text.wordBound)
    (hnew : ∀ lease, g = .listing lease → Unlisted r.clusterId r.address s)
    (htaken : g.written? = none → ∀ k, Taken r.front s k → taken k) :
    Findings r taken ((q, (s.serve q).2) :: talk)
      (g.receive r (.answered (s.serve q).2)).1 := by
  cases h with
  | start hlength =>
      cases hq
      subst hlength
      exact .listing List.mem_cons_self (Nat.le_refl 1)
  | @listing lease hgranted hlength =>
      cases hq
      have hnext : ((Registration.listing lease).receive r
          (.answered (s.serve (.range r.front)).2)).1 =
            r.claimFrom lease 0 (listed r.clusterId s) := by
        have hformer : r.formerSlot? (readRecords r.front (s.range r.front)).1 = none :=
          formerSlot?_eq_none (hnew lease rfl)
        simp only [Registration.receive, Registration.answer, Store.serve, hformer]
        rfl
      rw [hnext]
      exact claimFrom (List.mem_cons_of_mem _ hgranted) (Nat.succ_le_succ hlength)
        (Nat.zero_le _) (fun k hk => absurd hk (Nat.not_lt_zero k))
        fun k hk => htaken rfl k (taken_of_holdsSlot hk)
  | @claiming lease slot members hgranted hlength hslot hbelow hmembers =>
      cases hq
      simp only [Store.serve]
      split
      · next hthere =>
        refine claimFrom (List.mem_cons_of_mem _ hgranted) (Nat.succ_le_succ hlength) hslot
          (fun k hk => ?_) hmembers
        -- The slot that could not be claimed is taken at this very moment.
        rcases Nat.lt_succ_iff_lt_or_eq.1 hk with hlt | rfl
        · exact hbelow k hlt
        · exact htaken rfl k (taken_of_contains hthere (Nat.lt_of_lt_of_le hslot hword))
      · exact .opening (Nat.succ_le_succ hlength) hslot hbelow
  | yielding hgranted hlength hall =>
      cases hq
      exact .full (List.mem_cons_of_mem _ hgranted) List.mem_cons_self hall
  | opening hlength hslot hbelow =>
      cases hq
      exact .registered hbelow
  | registered => cases hq
  | full => cases hq

/-- A registration that has not ended has a request left, and has asked only so often. -/
theorem ended_or_request (h : Findings r taken talk g) :
    (∃ result, g = .ended result) ∨
      (∃ q, g.request? r = some q) ∧ talk.length < r.nodes + 3 := by
  cases h with
  | start hlength =>
      subst hlength
      exact Or.inr ⟨⟨_, rfl⟩, Nat.succ_pos _⟩
  | listing _ hlength => exact Or.inr ⟨⟨_, rfl⟩, by omega⟩
  | claiming _ hlength hslot => exact Or.inr ⟨⟨_, rfl⟩, by omega⟩
  | yielding _ hlength => exact Or.inr ⟨⟨_, rfl⟩, by omega⟩
  | opening hlength hslot => exact Or.inr ⟨⟨_, rfl⟩, by omega⟩
  | registered => exact Or.inl ⟨_, rfl⟩
  | full => exact Or.inl ⟨_, rfl⟩

end Findings

/-- Whether an event breaks off what a node is doing. -/
def EnrolmentEvent.breaksOff {ι : Type} [DecidableEq ι] (i : ι) : EnrolmentEvent ι → Bool
  | .fail j _ _ | .restart j | .leave j => j = i
  | _ => false

/-- One registration of a node, among all that the others do. -/
structure Enquiry (ι : Type) where
  now : Enrolment ι
  /-- What there was at each moment since it began, the latest first. -/
  moments : List (Enrolment ι)
  /-- What the node has asked for and got, the latest first. -/
  talk : List (Request × Response)

namespace Enquiry

variable {ι : Type} [DecidableEq ι] {node : ι → Registrant} {i : ι}

def start (f : Enrolment ι) : Enquiry ι := ⟨f, [f], []⟩

/-- What an event adds to what a node has asked for and got. -/
def said (node : ι → Registrant) (i : ι) (f : Enrolment ι) :
    EnrolmentEvent ι → List (Request × Response)
  | .serve j =>
    if j = i then
      (((f.place i).request? (node i)).map fun q => (q, (f.store.serve q).2)).toList
    else []
  | _ => []

/-- What there is after something has happened, if it can: no request of the node fails. -/
def act? (node : ι → Registrant) (i : ι) (c : Enquiry ι) (e : EnrolmentEvent ι) :
    Option (Enquiry ι) :=
  if e.breaksOff i then none
  else (c.now.act? node e).map fun f => ⟨f, f :: c.moments, said node i c.now e ++ c.talk⟩

/-- A slot was taken at some moment before the node had written its record. -/
def WasTaken (node : ι → Registrant) (i : ι) (c : Enquiry ι) (slot : Nat) : Prop :=
  ∃ f ∈ c.moments, (f.place i).written? = none ∧ Taken (node i).front f.store slot

variable {c c' : Enquiry ι} {e : EnrolmentEvent ι} {f f' : Enrolment ι}

/-- What has happened is added to what there was. -/
theorem exists_of_act (hact : c.act? node i e = some c') :
    e.breaksOff i = false ∧ ∃ f', c.now.act? node e = some f' ∧
      c' = ⟨f', f' :: c.moments, said node i c.now e ++ c.talk⟩ := by
  simp only [act?] at hact
  split at hact
  · cases hact
  · next hbreaks =>
    obtain ⟨f', hf', rfl⟩ := Option.map_eq_some_iff.1 hact
    exact ⟨Bool.eq_false_iff.2 hbreaks, f', hf', rfl⟩

/-- The last moment is now. -/
theorem now_mem_moments (hreach : Reachable (act? node i) (start f) c) : c.now ∈ c.moments := by
  cases hreach with
  | start => exact List.mem_singleton_self _
  | act _ hact =>
      obtain ⟨-, f', -, rfl⟩ := exists_of_act hact
      exact List.mem_cons_self

/-- What an event of another node or of the store leaves as it is. -/
theorem others_act (hbreaks : e.breaksOff i = false) (hown : e ≠ .serve i)
    (hact : f.act? node e = some f') :
    f'.place i = f.place i ∧ said node i f e = [] ∧
      ((∀ j, j ≠ i → (node j).address ≠ (node i).address) →
        Unlisted (node i).clusterId (node i).address f.store →
          Unlisted (node i).clusterId (node i).address f'.store) := by
  cases e with
  | serve j =>
      have hji : j ≠ i := fun hji => hown (by rw [hji])
      obtain ⟨q, hq, rfl⟩ := Option.map_eq_some_iff.1 hact
      refine ⟨Function.update_of_ne hji.symm .., if_neg hji, fun hothers h => ?_⟩
      exact h.serve (hothers j hji) hq
  | fail j isCarriedOut isRefused =>
      have hji : j ≠ i := of_decide_eq_false hbreaks
      obtain ⟨q, hq, rfl⟩ := Option.map_eq_some_iff.1 hact
      cases isCarriedOut with
      | true =>
          refine ⟨Function.update_of_ne hji.symm .., rfl, fun hothers h => ?_⟩
          exact h.serve (hothers j hji) hq
      | false => exact ⟨Function.update_of_ne hji.symm .., rfl, fun _ h => h⟩
  | expire ended =>
      cases hact
      exact ⟨rfl, rfl, fun _ h => h.endLeases _⟩
  | restart j =>
      have hji : j ≠ i := of_decide_eq_false hbreaks
      cases hact
      exact ⟨Function.update_of_ne hji.symm .., rfl, fun _ h => h⟩
  | leave j =>
      have hji : j ≠ i := of_decide_eq_false hbreaks
      simp only [Enrolment.act?] at hact
      split at hact
      · cases hact
        exact ⟨Function.update_of_ne hji.symm .., rfl, fun _ h => h⟩
      · cases hact
  | revoke lease =>
      simp only [Enrolment.act?] at hact
      split at hact
      · cases hact
        exact ⟨rfl, rfl, fun _ h => h.endLeases _⟩
      · cases hact

/-- What the node is served, it hears. -/
theorem own_act (hact : f.act? node (.serve i) = some f') :
    ∃ q, (f.place i).request? (node i) = some q ∧ f'.store = (f.store.serve q).1 ∧
      f'.place i = ((f.place i).receive (node i) (.answered (f.store.serve q).2)).1 ∧
      said node i f (.serve i) = [(q, (f.store.serve q).2)] := by
  obtain ⟨q, hq, rfl⟩ := Option.map_eq_some_iff.1 hact
  refine ⟨q, hq, rfl, Function.update_self .., ?_⟩
  rw [said, if_pos rfl, hq]
  rfl

/-- If the others have other addresses, one that is new stays unlisted until its node has written
its record. -/
theorem unlisted_of_reachable (hothers : ∀ j, j ≠ i → (node j).address ≠ (node i).address)
    (hnew : Unlisted (node i).clusterId (node i).address f.store)
    (hreach : Reachable (act? node i) (start f) c) :
    ∀ f ∈ c.moments, (f.place i).written? = none →
      Unlisted (node i).clusterId (node i).address f.store := by
  induction hreach with
  | start => exact List.forall_mem_singleton.2 fun _ => hnew
  | @act c c' e hreach hact ih =>
      obtain ⟨hbreaks, f', hf', rfl⟩ := exists_of_act hact
      refine List.forall_mem_cons.2 ⟨fun hwritten => ?_, ih⟩
      by_cases hown : e = .serve i
      · subst hown
        obtain ⟨q, hq, hstore, hplace, -⟩ := own_act hf'
        rw [hplace] at hwritten
        rw [hstore]
        exact Unlisted.serve_own (ih c.now (now_mem_moments hreach)) hq hwritten
      · obtain ⟨hplace, -, hkeeps⟩ := others_act hbreaks hown hf'
        rw [hplace] at hwritten
        exact hkeeps hothers (ih c.now (now_mem_moments hreach) hwritten)

/-- What a node has found out holds after whatever happens, its own requests and those of others. -/
theorem findings_of_act (hword : (node i).nodes ≤ Text.wordBound) (hnow : c.now ∈ c.moments)
    (hnew : ∀ lease, c.now.place i = .listing lease →
      Unlisted (node i).clusterId (node i).address c.now.store)
    (h : Findings (node i) (c.WasTaken node i) c.talk (c.now.place i))
    (hact : c.act? node i e = some c') :
    Findings (node i) (c'.WasTaken node i) c'.talk (c'.now.place i) := by
  obtain ⟨hbreaks, f', hf', rfl⟩ := exists_of_act hact
  have hmore : ∀ k, c.WasTaken node i k →
      WasTaken node i ⟨f', f' :: c.moments, said node i c.now e ++ c.talk⟩ k := by
    rintro k ⟨f, hf, htaken⟩
    exact ⟨f, List.mem_cons_of_mem _ hf, htaken⟩
  -- Only its own requests tell the node anything; to what others do it adds one more moment.
  by_cases hown : e = .serve i
  · subst hown
    obtain ⟨q, hq, -, hplace, hsaid⟩ := own_act hf'
    have hserved := (h.mono hmore).serve hq hword hnew
      fun hwritten k htaken => ⟨c.now, List.mem_cons_of_mem _ hnow, hwritten, htaken⟩
    simp only [hsaid, hplace]
    exact hserved
  · obtain ⟨hplace, hsaid, -⟩ := others_act hbreaks hown hf'
    simp only [hsaid, hplace, List.nil_append] at hmore ⊢
    exact h.mono hmore

/-- **Whatever happens around it, a node makes nothing of the slots that is untrue.** -/
theorem findings_of_reachable (hword : (node i).nodes ≤ Text.wordBound)
    (hstart : f.place i = .start) (hreach : Reachable (act? node i) (start f) c)
    (hnew : ∀ f ∈ c.moments, ∀ lease, f.place i = .listing lease →
      Unlisted (node i).clusterId (node i).address f.store) :
    Findings (node i) (c.WasTaken node i) c.talk (c.now.place i) := by
  induction hreach with
  | start => exact hstart ▸ .start rfl
  | @act c c' e hreach hact ih =>
      have hnow := now_mem_moments hreach
      have hsub : ∀ f ∈ c.moments, f ∈ c'.moments := by
        obtain ⟨-, f', -, rfl⟩ := exists_of_act hact
        exact fun f hf => List.mem_cons_of_mem _ hf
      exact findings_of_act hword hnow (hnew c.now (hsub _ hnow))
        (ih fun f hf => hnew f (hsub f hf)) hact

/-- **A free slot is always found.**  A node registers whose address is in no record when it lists
them, none of its requests fails, and in between the other nodes do whatever they do, and leases
end.  It has a next request until it has ended, and makes three more than there are slots at most.
If one of the slots is free at each moment until the node has written its record, it ends with a
session, at that slot or below.  If it ends with an error, it has found no free slot; then each slot
was taken at some moment, and it has asked for the end of the lease that it was granted. -/
theorem free_slot_is_found (hword : (node i).nodes ≤ Text.wordBound)
    (hstart : f.place i = .start) (hreach : Reachable (act? node i) (start f) c)
    (hnew : ∀ f ∈ c.moments, ∀ lease, f.place i = .listing lease →
      Unlisted (node i).clusterId (node i).address f.store) :
    ((∃ result, c.now.place i = .ended result) ∨
      (c.act? node i (.serve i)).isSome ∧ c.talk.length < (node i).nodes + 3) ∧
    (∀ slot < (node i).nodes,
      (∀ f ∈ c.moments, (f.place i).written? = none → ¬ Taken (node i).front f.store slot) →
      ∀ result, c.now.place i = .ended result →
        ∃ lease found, found ≤ slot ∧ result = .ok ((node i).session lease found)) ∧
    (∀ error, c.now.place i = .ended (.error error) →
      error = .noFreeSlot (node i).nodes ∧
      (∀ slot < (node i).nodes, ∃ f ∈ c.moments, Taken (node i).front f.store slot) ∧
      ∃ lease, (.grant (node i).ttl, .lease lease) ∈ c.talk ∧
        (.revoke lease, .done) ∈ c.talk) := by
  have hfindings := findings_of_reachable hword hstart hreach hnew
  refine ⟨?_, ?_, ?_⟩
  · rcases hfindings.ended_or_request with hended | ⟨⟨q, hq⟩, hlength⟩
    · exact Or.inl hended
    · exact Or.inr ⟨by simp [act?, EnrolmentEvent.breaksOff, Enrolment.act?, hq], hlength⟩
  · intro slot hslot hfree result hended
    rw [hended] at hfindings
    have hnever : ¬ c.WasTaken node i slot := by
      rintro ⟨f, hf, hwritten, htaken⟩
      exact hfree f hf hwritten htaken
    cases hfindings with
    | @registered lease found hbelow =>
        refine ⟨lease, found, ?_, rfl⟩
        by_contra hgt
        exact hnever (hbelow slot (Nat.lt_of_not_le hgt))
    | full _ _ hall => exact absurd (hall slot hslot) hnever
  · intro error hended
    rw [hended] at hfindings
    cases hfindings with
    | @full lease hgranted hrevoked hall =>
        refine ⟨rfl, fun slot hslot => ?_, lease, hgranted, hrevoked⟩
        obtain ⟨f, hf, -, htaken⟩ := hall slot hslot
        exact ⟨f, hf, htaken⟩

/-- Two nodes that want one of three slots. -/
def contenders (i : Bool) : Registrant := ⟨"lab", bif i then "a" else "b", 3, 15⟩

/-- A key that holds no record is at the first slot. -/
def obstructed : Store := Store.empty.put ((contenders false).key 0) "gone" none

/-- The second node lists nobody.  Then the first node gets past the key in the way and claims the
next slot, so that both are taken when the second node claims them, and it goes on to the third. -/
def overtakenTwice : List (EnrolmentEvent Bool) :=
  List.replicate 2 (.serve false) ++ List.replicate 4 (.serve true) ++
    List.replicate 4 (.serve false)

/-- The third slot was free all the time, so the node has got a slot no higher. -/
theorem free_slot_of_contenders :
    ∃ c, Reachable (act? contenders false) (start (Enrolment.start obstructed)) c ∧
      (∀ f ∈ c.moments, (f.place false).written? = none →
        ¬ Taken (contenders false).front f.store 2) ∧
      ∃ lease found, found ≤ 2 ∧
        c.now.place false = .ended (.ok ((contenders false).session lease found)) := by
  obtain ⟨c, hreach, hcheck⟩ := exists_reachable (act? contenders false)
    (start (Enrolment.start obstructed)) overtakenTwice
    (fun c => (c.act? contenders false (.serve false)).isNone ∧
      ∀ f ∈ c.moments, (f.place false).written? = none →
        ¬ Taken (contenders false).front f.store 2) (by decide +kernel)
  obtain ⟨hdone, hfree⟩ := of_decide_eq_true hcheck
  have hunlisted := unlisted_of_reachable (by decide) (by decide +kernel) hreach
  obtain ⟨hcourse, hfound, -⟩ := free_slot_is_found (by decide) rfl hreach
    fun f hf lease hlisting => hunlisted f hf (by rw [hlisting]; rfl)
  refine ⟨c, hreach, hfree, ?_⟩
  rcases hcourse with ⟨result, hended⟩ | ⟨hmore, -⟩
  · obtain ⟨lease, found, hle, rfl⟩ := hfound 2 (by decide) hfree result hended
    exact ⟨lease, found, hle, hended⟩
  · rw [Option.isNone_iff_eq_none.1 hdone] at hmore
    cases hmore

end Enquiry

end FleetSharding.Etcd
