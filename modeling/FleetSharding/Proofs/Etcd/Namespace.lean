import FleetSharding.Etcd.Client
import FleetSharding.Proofs.Etcd.ReadBack
import FleetSharding.Proofs.Etcd.Server
import FleetSharding.Proofs.SlotMap.Seating

/-!
# Clusters in one store

Several clusters may share a store.  Each lists what lies under a front of its own, which holds the
cluster's id, and ids may be any text.  A front ends with a separator and what is behind it in a key
has none, so a key starts like a front exactly if the front it was made with does.  Of two different
fronts one starts like the other only if the longer id goes on from the shorter one with the word
that separates a cluster from its members.

* `startsLike_memberKey_iff`: when a cluster reads the keys of another.
* `listed_put_of_not_startsLike`: what is written elsewhere is not listed.
* `healthyCount_listed_put`: a live node's record under the front is one healthy member more.
* `read_across_iff`: so two clusters are apart exactly if neither id goes on from the other like
  this.  -/

namespace FleetSharding

section Entries

variable {α : Type} {k : String} {v : α}

/-- An entry whose key does not count is not noticed among those that do. -/
theorem filter_insertEntry {p : String → Bool} (hp : p k = false) (es : List (String × α)) :
    (insertEntry k v es).filter (p ·.1) = es.filter (p ·.1) := by
  induction es with
  | nil => simp [insertEntry, hp]
  | cons e es ih =>
      rw [insertEntry]
      split
      · simp [hp]
      · next hk =>
        split
        · rw [List.filter_cons, List.filter_cons, ih]
        · next hk' =>
          have hkey : e.1 = k := String.le_antisymm (String.not_lt.1 hk) (String.not_lt.1 hk')
          simp [hp, hkey]

/-- An entry with a new key is one more. -/
theorem insertEntry_perm {es : List (String × α)} (hnew : ∀ e ∈ es, e.1 ≠ k) (v : α) :
    (insertEntry k v es).Perm ((k, v) :: es) := by
  induction es with
  | nil => exact .refl _
  | cons e es ih =>
      rw [insertEntry]
      split
      · exact .refl _
      · next hk =>
        split
        · exact ((ih fun e' he' => hnew e' (List.mem_cons_of_mem _ he')).cons e).trans (.swap _ _ _)
        · next hk' =>
          have hkey : e.1 = k := String.le_antisymm (String.not_lt.1 hk) (String.not_lt.1 hk')
          exact absurd hkey (hnew e List.mem_cons_self)

end Entries

section Separators

variable {α : Type} {sep : α}

/-- What ends with a separator is in front of a text with a tail that has none exactly if it is in
front of the text. -/
theorem concat_prefix_append_iff {front text tail : List α} (hsep : sep ∉ tail) :
    front ++ [sep] <+: text ++ tail ↔ front ++ [sep] <+: text := by
  constructor
  · intro h
    rcases List.prefix_or_prefix_of_prefix h (List.prefix_append text tail) with hshort | hlong
    · exact hshort
    · obtain ⟨rest, hrest⟩ := hlong
      rcases List.eq_nil_or_concat rest with rfl | ⟨init, last, rfl⟩
      · rw [← hrest, List.append_nil]
      · -- The separator would have to stand in the tail.
        have hlast : last = sep := by
          have := congrArg List.getLast? hrest
          simpa [← List.append_assoc] using this
        rw [← hrest, List.prefix_append_right_inj] at h
        exact absurd (h.subset (by simp [hlast])) hsep
  · exact fun h => h.trans (List.prefix_append text tail)

/-- Two different texts, each with one word between separators behind it: the one with the word is
in front of the other exactly if no more than the word's first separator is needed of the other. -/
theorem word_prefix_word_iff {short long word : List α} (hword : sep ∉ word) (hne : short ≠ long) :
    short ++ sep :: (word ++ [sep]) <+: long ++ sep :: (word ++ [sep]) ↔
      short ++ sep :: (word ++ [sep]) <+: long ++ [sep] := by
  have hfirst : long ++ [sep] <+: long ++ sep :: (word ++ [sep]) :=
    (List.prefix_append_right_inj long).2 ⟨word ++ [sep], rfl⟩
  constructor
  · intro h
    have hlength : short.length ≤ long.length := by
      have := h.length_le
      simp only [List.length_append] at this
      omega
    obtain ⟨rest, rfl⟩ : short <+: long :=
      List.prefix_of_prefix_length_le ((List.prefix_append _ _).trans h) (List.prefix_append _ _)
        hlength
    rcases List.prefix_or_prefix_of_prefix h hfirst with hshort | hlong
    · exact hshort
    · -- The other's first separator falls into the word of the one, so on its last separator.
      rw [List.append_assoc, List.prefix_append_right_inj] at hlong ⊢
      cases rest with
      | nil => exact absurd (List.append_nil short).symm hne
      | cons c rest =>
          obtain ⟨rfl, hrest⟩ := List.cons_prefix_cons.1 hlong
          rcases List.prefix_concat_iff.1 hrest with hend | hinside
          · have hrest : rest ++ [c] = word ++ [c] := hend
            exact ⟨[], by rw [List.append_nil, List.cons_append, hrest]⟩
          · exact absurd (hinside.subset (by simp)) hword
  · exact fun h => h.trans hfirst

end Separators

namespace Etcd

/-- A key starts like a text if the text is a prefix. -/
theorem startsLike_iff {front key : String} :
    startsLike front key = true ↔ front.toList <+: key.toList :=
  List.isPrefixOf_iff_prefix

/-- The members of a cluster lie among those of another: its id is the other's with the word behind
it that separates a cluster from its members, and maybe more. -/
def NestedIn (reader writer : String) : Prop :=
  reader.toList ++ "/members/".toList <+: writer.toList ++ ['/']

instance (reader writer : String) : Decidable (NestedIn reader writer) :=
  inferInstanceAs (Decidable (_ <+: _))

/-- A number is written without the separator. -/
theorem separator_not_mem_toString (id : Nat) : '/' ∉ (toString id).toList := by
  intro hmem
  have hdigit : ('/' : Char).isDigit = true :=
    Nat.isDigit_of_mem_toDigits (b := 10) (n := id) (by decide) (by decide) (by simpa using hmem)
  exact absurd hdigit (by decide)

/-- The characters of the prefix under which a cluster keeps its members. -/
theorem toList_membersPrefix (clusterId : String) :
    (membersPrefix clusterId).toList =
      "/telefleet/v1/clusters/".toList ++ (clusterId.toList ++ "/members/".toList) := by
  unfold membersPrefix
  simp only [String.toList_append, List.append_assoc]

/-- The characters of a member's key: the prefix of its cluster, and then its id. -/
theorem toList_memberKey (clusterId : String) (id : Nat) :
    (memberKey clusterId id).toList = "/telefleet/v1/clusters/".toList ++
      ((clusterId.toList ++ "/members/".toList) ++ (toString id).toList) := by
  unfold memberKey
  rw [String.toList_append, toList_membersPrefix, List.append_assoc]

/-- The part between a cluster's id and a member's begins with the separator. -/
theorem members_eq_cons : "/members/".toList = '/' :: ("members".toList ++ ['/']) := by decide

/-- It ends with the separator, too. -/
theorem append_members (text : List Char) :
    text ++ "/members/".toList = (text ++ '/' :: "members".toList) ++ ['/'] := by
  rw [members_eq_cons, List.append_assoc, List.cons_append]

/-- **When a cluster reads the keys of another.** -/
theorem startsLike_memberKey_iff {reader writer : String} (hne : reader ≠ writer) (id : Nat) :
    startsLike (membersPrefix reader) (memberKey writer id) = true ↔ NestedIn reader writer := by
  have hword : '/' ∉ "members".toList := by decide
  have hlists : reader.toList ≠ writer.toList := fun h => hne (String.toList_inj.1 h)
  rw [startsLike_iff, toList_membersPrefix, toList_memberKey, List.prefix_append_right_inj,
    append_members reader.toList, concat_prefix_append_iff (separator_not_mem_toString id),
    ← append_members, NestedIn, members_eq_cons, word_prefix_word_iff hword hlists]

/-- The id of a cluster without the separator goes on from no other. -/
theorem not_nestedIn {reader writer : String} (h : '/' ∉ writer.toList) :
    ¬ NestedIn reader writer := by
  intro hnested
  rw [NestedIn, append_members, List.prefix_concat_iff] at hnested
  rcases hnested with hend | hinside
  · have hwriter : reader.toList ++ '/' :: "members".toList = writer.toList :=
      (List.append_inj' hend rfl).1
    exact h (hwriter ▸ by simp)
  · exact h (hinside.subset (by simp))

/-- The members that a cluster lists, as long as its requests are answered. -/
def listed (clusterId : String) (s : Store) : List Member :=
  (readRecords (membersPrefix clusterId) (s.range (membersPrefix clusterId))).1

/-- The members that are read are the records that can be decoded, in order. -/
theorem readRecords_members (front : String) (found : List (String × String)) :
    (readRecords front found).1 = found.filterMap fun e =>
      (decodeMember front (Text.encode e.1) (Text.encode e.2)).toOption := by
  induction found with
  | nil => rfl
  | cons e found ih =>
      rw [List.filterMap_cons, ← ih, readRecords, List.foldr_cons]
      cases decodeMember front (Text.encode e.1) (Text.encode e.2) <;> rfl

/-- Whoever gets an answer has got what is listed. -/
theorem instances_eq_ok {c : Client} {members : List Member} (h : c.instances.1 = .ok members) :
    members = listed c.cluster.clusterId c.server.store := by
  rw [Client.instances, Client.bounded, Client.request] at h
  rcases Server.request_cases c.server (.range c.front) with ⟨call, o, -, rfl | rfl, hr⟩ | hr
  · rw [hr] at h
    cases h
  · rw [hr] at h
    cases h
  · rw [hr] at h
    cases h
    rfl

/-- **What is written elsewhere is not listed.** -/
theorem listed_put_of_not_startsLike {clusterId key : String}
    (h : startsLike (membersPrefix clusterId) key = false) (s : Store) (value : String)
    (lease : Option Nat) : listed clusterId (s.put key value lease) = listed clusterId s := by
  have hrange : (s.put key value lease).range (membersPrefix clusterId) =
      s.range (membersPrefix clusterId) := by
    simp only [Store.range, Store.put, SortedMap.insert, filter_insertEntry h]
  rw [listed, listed, hrange]

/-- A new key that starts like a front is one key more of those that do. -/
theorem range_put_perm {front key : String} (h : startsLike front key = true) {s : Store}
    (hnew : s.records.get? key = none) (value : String) (lease : Option Nat) :
    ((s.put key value lease).range front).Perm ((key, value) :: s.range front) := by
  have hfresh : ∀ e ∈ s.records.entries, e.1 ≠ key := by
    rintro e he rfl
    rw [SortedMap.mem_entries_iff.1 he] at hnew
    cases hnew
  let record : Stored := ⟨value, s.revision + 1, lease⟩
  have hkept : ((key, record) :: s.records.entries).filter (fun e => startsLike front e.1) =
      (key, record) :: s.records.entries.filter fun e => startsLike front e.1 :=
    List.filter_cons_of_pos h
  have hentries := ((insertEntry_perm hfresh record).filter fun e => startsLike front e.1).map
    fun e => (e.1, e.2.value)
  rw [hkept] at hentries
  rw [Store.range, Store.put, hnew]
  exact hentries

/-- A new record under the front that holds a member is one member more. -/
theorem listed_put_perm {clusterId key value : String} {m : Member}
    (h : startsLike (membersPrefix clusterId) key = true)
    (hread : decodeMember (membersPrefix clusterId) (Text.encode key) (Text.encode value) = .ok m)
    {s : Store} (hnew : s.records.get? key = none) (lease : Option Nat) :
    (listed clusterId (s.put key value lease)).Perm (m :: listed clusterId s) := by
  have hlisted := (range_put_perm h hnew value lease).filterMap fun e : String × String =>
    (decodeMember (membersPrefix clusterId) (Text.encode e.1) (Text.encode e.2)).toOption
  rw [List.filterMap_cons_some (by rw [hread]; rfl)] at hlisted
  rwa [listed, listed, readRecords_members, readRecords_members]

/-- A text with a character that is neither digit nor plus sign is no number. -/
theorem word?_eq_none {text : String} {c : Char} (hc : c ∈ text.toList) (hplus : c ≠ '+')
    (hdigit : c.isDigit = false) : Text.word? text = none := by
  have hmem : c ∈ Text.dropPlus text.toList := by
    unfold Text.dropPlus
    split
    · next cs htext =>
      rw [htext] at hc
      exact (List.mem_cons.1 hc).resolve_left hplus
    · exact hc
  have hall : ¬ (Text.dropPlus text.toList).all Char.isDigit = true := by
    rw [List.all_eq_true]
    intro hall
    rw [hall c hmem] at hdigit
    cases hdigit
  rw [Text.word?, Text.unsigned?, Text.digits?, if_neg fun h => hall h.2, Option.filter_none]

/-- What is behind the front of one cluster in a key of another is no number. -/
theorem exists_memberKey_eq {reader writer : String} (hnested : NestedIn reader writer) (id : Nat) :
    ∃ text, memberKey writer id = membersPrefix reader ++ text ∧ Text.word? text = none := by
  obtain ⟨rest, hrest⟩ := hnested
  let text := String.ofList (rest ++ ("members".toList ++ '/' :: (toString id).toList))
  have htext : text.toList = rest ++ ("members".toList ++ '/' :: (toString id).toList) :=
    String.toList_ofList
  have hmem : '/' ∈ text.toList := by
    rw [htext]
    simp
  refine ⟨text, ?_, word?_eq_none hmem (by decide) (by decide)⟩
  have hbehind : writer.toList ++ "/members/".toList ++ (toString id).toList =
      reader.toList ++ "/members/".toList ++ text.toList := by
    rw [htext, ← List.append_assoc _ rest, hrest, members_eq_cons]
    simp only [List.append_assoc, List.cons_append, List.nil_append]
  rw [← String.toList_inj, String.toList_append, toList_memberKey, toList_membersPrefix, hbehind]
  simp only [List.append_assoc]

/-- **A live node's record among the keys that another cluster reads** is one healthy member more
there, and the member has no slot. -/
theorem healthyCount_listed_put {reader writer : String} (hne : reader ≠ writer)
    (hnested : NestedIn reader writer) {id : Nat} {s : Store}
    (hnew : s.records.get? (memberKey writer id) = none) (address : String) (lease : Option Nat) :
    let after := s.put (memberKey writer id) (MemberRecord.passing address).write lease
    healthyCount (listed reader after) = healthyCount (listed reader s) + 1 ∧
      ∃ m ∈ listed reader after, m.address = address ∧ m.slot = none ∧ m.isHealthyShard = true := by
  intro after
  obtain ⟨text, hsplit, hnumber⟩ := exists_memberKey_eq hnested id
  let m := (MemberRecord.passing address).toMember text
  have hread : decodeMember (membersPrefix reader) (Text.encode (memberKey writer id))
      (Text.encode (MemberRecord.passing address).write) = .ok m := by
    rw [hsplit]
    exact decodeMember_append _ _ (MemberRecord.read_write ⟨"passing", rfl⟩)
  have hhealthy : m.isHealthyShard = true := Member.isHealthyShard_sharded 0 address
  have hperm : (listed reader after).Perm (m :: listed reader s) :=
    listed_put_perm ((startsLike_memberKey_iff hne id).2 hnested) hread hnew lease
  refine ⟨?_, m, hperm.mem_iff.2 List.mem_cons_self, rfl, hnumber, hhealthy⟩
  rw [healthyCount_perm hperm, healthyCount, List.filter_cons_of_pos hhealthy, List.length_cons]
  rfl

/-- Nothing that is written under an id without the separator is listed by another cluster. -/
theorem listed_put_of_no_separator {reader writer : String} (hne : reader ≠ writer)
    (h : '/' ∉ writer.toList) (id : Nat) (s : Store) (value : String) (lease : Option Nat) :
    listed reader (s.put (memberKey writer id) value lease) = listed reader s :=
  listed_put_of_not_startsLike
    (Bool.eq_false_iff.2 (mt (startsLike_memberKey_iff hne id).1 (not_nestedIn h))) s value lease

/-- **When a cluster reads the members of another.**  The keys of one cluster are among those that
another reads exactly if its id goes on from the other's with the word that separates clusters from
members.  If it does not, nothing that is written under its keys changes what the other lists.  If
it does, the record of a live node there is listed as a member without a slot, and it counts as
healthy. -/
theorem read_across_iff {reader writer : String} (hne : reader ≠ writer) (id : Nat) (s : Store) :
    (startsLike (membersPrefix reader) (memberKey writer id) = true ↔ NestedIn reader writer) ∧
    (¬ NestedIn reader writer → ∀ value lease,
      listed reader (s.put (memberKey writer id) value lease) = listed reader s) ∧
    (NestedIn reader writer → s.records.get? (memberKey writer id) = none → ∀ address lease,
      let after := s.put (memberKey writer id) (MemberRecord.passing address).write lease
      healthyCount (listed reader after) = healthyCount (listed reader s) + 1 ∧
        ∃ m ∈ listed reader after,
          m.address = address ∧ m.slot = none ∧ m.isHealthyShard = true) := by
  have hkey := startsLike_memberKey_iff hne id
  refine ⟨hkey, ?_, fun hnested hnew => healthyCount_listed_put hne hnested hnew⟩
  intro hapart value lease
  exact listed_put_of_not_startsLike (Bool.eq_false_iff.2 (mt hkey.1 hapart)) s value lease

/-- A cluster whose id goes on from that of another, and one whose id does not. -/
theorem read_across_of_labs :
    let after := Store.empty.put (memberKey "lab/members/east" 0) (MemberRecord.passing "b").write none
    ("lab" ≠ "lab/members/east" ∧ NestedIn "lab" "lab/members/east" ∧
      startsLike (membersPrefix "lab") (memberKey "lab/members/east" 0) = true ∧
      healthyCount (listed "lab" after) = healthyCount (listed "lab" .empty) + 1) ∧
    "lab" ≠ "lab-east" ∧ ¬ NestedIn "lab" "lab-east" ∧ ∀ value lease,
      listed "lab" (Store.empty.put (memberKey "lab-east" 0) value lease) = listed "lab" .empty := by
  intro after
  have hne : "lab" ≠ "lab/members/east" := by decide
  have hnested : NestedIn "lab" "lab/members/east" := by decide
  have hne' : "lab" ≠ "lab-east" := by decide
  have hapart : ¬ NestedIn "lab" "lab-east" := by decide
  obtain ⟨hreads, -, hcount⟩ := read_across_iff hne 0 Store.empty
  obtain ⟨-, hkeeps, -⟩ := read_across_iff hne' 0 Store.empty
  exact ⟨⟨hne, hnested, hreads.2 hnested, (hcount hnested rfl "b" none).1⟩, hne', hapart,
    hkeeps hapart⟩

/-- Two configurations with different cluster ids are accepted, and the members of one cluster are
healthy members of the other. -/
theorem exists_read_across :
    ∃ (reader writer : FleetConfig) (id : Nat),
      reader.check = .ok () ∧ writer.check = .ok () ∧
      reader.cluster.clusterId ≠ writer.cluster.clusterId ∧
      startsLike (membersPrefix reader.cluster.clusterId)
        (memberKey writer.cluster.clusterId id) = true ∧
      ∃ m ∈ listed reader.cluster.clusterId (Store.empty.put
          (memberKey writer.cluster.clusterId id)
          (MemberRecord.passing writer.cluster.nodeAddress).write none),
        m.address = writer.cluster.nodeAddress ∧ m.isHealthyShard = true := by
  let reader : FleetConfig := { cluster := { clusterId := "lab" } }
  let writer : FleetConfig := { cluster := { clusterId := "lab/members/east", nodeAddress := "b" } }
  have hreader : reader.check = .ok () := by decide
  have hwriter : writer.check = .ok () := by decide
  have hne : "lab" ≠ "lab/members/east" := by decide
  have hnested : NestedIn "lab" "lab/members/east" := by decide
  have hnew : Store.empty.records.get? (memberKey "lab/members/east" 0) = none := rfl
  obtain ⟨-, m, hm, haddress, -, hhealthy⟩ := healthyCount_listed_put hne hnested hnew "b" none
  exact ⟨reader, writer, 0, hreader, hwriter, hne, (startsLike_memberKey_iff hne 0).2 hnested,
    m, hm, haddress, hhealthy⟩

end Etcd

end FleetSharding
