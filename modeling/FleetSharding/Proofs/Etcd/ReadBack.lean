import FleetSharding.Etcd.Record
import FleetSharding.Proofs.Json.Writing
import FleetSharding.Proofs.SortedMap

/-!
# Records are read back

The reader of a record goes through it entry by entry.  A step of the reader that finds one field
right behind its colon leaves the bytes of the entries that follow, so a written object is read by
as many steps as it has entries.  A record has three fields in a fixed order, its labels come in
any.

* `readEntries_cons`: one entry is read, then the rest.
* `readLabels_textsOf`: a map of texts is read back in whatever order it is written.
* `read_writeInOrder`: so is a record.
* `registered_is_read_back`: a registered record is listed as the member that registered.
-/

namespace FleetSharding.Etcd

open Text (Bytes encodeChars)
open Json (Scan Reads byte comma entryBytes tailBytes quote render)

namespace MemberRecord

/-- What a scanner of lexemes finds, a reader of records finds. -/
theorem reads_ofScan {α : Type} {s : Bytes} {x : Scan α s} {a : α} {rest : Bytes}
    (h : Reads x a rest) : Reads (ofScan x) a rest := by
  obtain ⟨hlt, rfl⟩ := h
  exact ⟨hlt, rfl⟩

/-- A quoted text is read as a text. -/
theorem readText_quote (t : String) (rest : Bytes) :
    Reads (readText (Text.encode (quote t) ++ rest)) t rest := by
  rw [Json.encode_quote, List.cons_append, List.append_assoc, List.singleton_append]
  obtain ⟨hlt, hopen⟩ := reads_ofScan (Json.next_cons (b := byte '"') (by decide)
    (encodeChars (t.toList.flatMap Json.escapeChar) ++ byte '"' :: rest))
  obtain ⟨hlt', htext⟩ := reads_ofScan (Json.string_escaped t rest)
  refine ⟨Nat.lt_trans hlt' hlt, ?_⟩
  rw [readText, hopen]
  simp only [bind, Except.bind, if_true, htext, pure, Except.pure]

/-- The colon before a value is passed. -/
theorem colon_cons (r : Bytes) : Reads (colon (byte ':' :: r)) () r := by
  obtain ⟨hlt, hnext⟩ := reads_ofScan (Json.next_cons (b := byte ':') (by decide) r)
  refine ⟨hlt, ?_⟩
  rw [colon, hnext]
  simp only [bind, Except.bind, if_true, pure, Except.pure]

section Entries

variable {σ : Type} {step : String → σ → (s : Bytes) → Reading σ s} {found result : σ}
  {q t u : Bytes}

/-- The closing brace ends the entries. -/
theorem readEntries_brace (isFirst : Bool) (found : σ) (r : Bytes) :
    Reads (readEntries step isFirst found (byte '\x7d' :: r)) found r := by
  obtain ⟨hlt, hnext⟩ := reads_ofScan (Json.next_cons (b := byte '\x7d') (by decide) r)
  refine ⟨hlt, ?_⟩
  rw [readEntries, hnext]
  simp only [bind, Except.bind, if_true, pure, Except.pure]

/-- An entry is read as its key and what the step makes of the rest. -/
theorem readEntries_entry (isFirst : Bool) {key : String} {found' : σ}
    (hstep : Reads (step key found q) found' t)
    (hrest : Reads (readEntries step false found' t) result u) :
    Reads (readEntries step isFirst found (comma isFirst ++ (Text.encode (quote key) ++ q)))
      result u := by
  rw [Json.encode_quote, List.cons_append, List.append_assoc, List.singleton_append]
  obtain ⟨hkey, hstring⟩ := reads_ofScan (Json.string_escaped key q)
  obtain ⟨hopen, hquote⟩ := reads_ofScan (Json.next_cons (b := byte '"') (by decide)
    (encodeChars (key.toList.flatMap Json.escapeChar) ++ byte '"' :: q))
  obtain ⟨ht, hstep⟩ := hstep
  obtain ⟨hu, hrest⟩ := hrest
  have hne : byte '"' ≠ byte '\x7d' := by decide
  cases isFirst with
  | true =>
      refine ⟨by simp only [comma, if_true, List.nil_append]; omega, ?_⟩
      show readEntries step true found (byte '"' :: _) = _
      rw [readEntries, hquote]
      simp only [bind, Except.bind, if_neg hne, entryStart, if_true, not_true, ne_eq, if_false,
        hstring, hstep, hrest, pure, Except.pure]
      rfl
  | false =>
      have hne' : byte ',' ≠ byte '\x7d' := by decide
      obtain ⟨hsep, hcomma⟩ := reads_ofScan (Json.next_cons (b := byte ',') (by decide)
        (byte '"' :: (encodeChars (key.toList.flatMap Json.escapeChar) ++ byte '"' :: q)))
      refine ⟨by simp only [comma, Bool.false_eq_true, if_false, List.singleton_append]; omega, ?_⟩
      show readEntries step false found (byte ',' :: byte '"' :: _) = _
      rw [readEntries, hcomma]
      simp only [bind, Except.bind, if_neg hne', entryStart, if_true, Bool.false_eq_true, if_false,
        hquote, not_true, ne_eq, hstring, hstep, hrest, pure, Except.pure]
      rfl

/-- The entries of a written object are read one after the other. -/
theorem readEntries_cons (isFirst : Bool) {e : String × Json} {es : List (String × Json)}
    (found' : σ) (hstep : Reads (step e.1 found
      (byte ':' :: (Text.encode (render e.2) ++ (tailBytes false es ++ u)))) found'
      (tailBytes false es ++ u))
    (hrest : Reads (readEntries step false found' (tailBytes false es ++ u)) result u) :
    Reads (readEntries step isFirst found (tailBytes isFirst (e :: es) ++ u)) result u := by
  have hbytes : tailBytes isFirst (e :: es) ++ u = comma isFirst ++ (Text.encode (quote e.1) ++
      byte ':' :: (Text.encode (render e.2) ++ (tailBytes false es ++ u))) := by
    simp only [tailBytes, entryBytes, List.append_assoc, List.cons_append]
  rw [hbytes]
  exact readEntries_entry isFirst hstep hrest

end Entries

section Labels

/-- The map that entries with texts write, in their order. -/
def textsOf (es : List (String × String)) : Json := .obj (es.map fun e => (e.1, .str e.2))

/-- What is done with one entry of a map of texts. -/
def readLabel (key : String) (labels : SortedMap String) (s : Bytes) :
    Reading (SortedMap String) s := do
  let (_, ⟨r, hr⟩) ← colon s
  let (text, ⟨q, hq⟩) ← readText r
  return (labels.insert key text, ⟨q, Json.length_lt_trans hq hr⟩)

/-- An entry of a map of texts is read. -/
theorem readLabel_quote (key text : String) (labels : SortedMap String) (u : Bytes) :
    Reads (readLabel key labels (byte ':' :: (Text.encode (quote text) ++ u)))
      (labels.insert key text) u := by
  obtain ⟨hlt, hcolon⟩ := colon_cons (Text.encode (quote text) ++ u)
  obtain ⟨hlt', htext⟩ := readText_quote text u
  refine ⟨Nat.lt_trans hlt' hlt, ?_⟩
  simp only [readLabel, hcolon, htext, bind, Except.bind, pure, Except.pure]

/-- The entries of a map of texts go into the map one after the other. -/
theorem readEntries_labels (isFirst : Bool) (es : List (String × String))
    (labels : SortedMap String) (u : Bytes) :
    Reads (readEntries readLabel isFirst labels
        (tailBytes isFirst (es.map fun e => (e.1, .str e.2)) ++ u))
      (es.foldl (fun m e => m.insert e.1 e.2) labels) u := by
  induction es generalizing isFirst labels with
  | nil => exact readEntries_brace isFirst labels u
  | cons e es ih => exact readEntries_cons isFirst _ (readLabel_quote e.1 e.2 labels _) (ih false _)

/-- A map of texts is read entry by entry. -/
theorem readLabels_eq (s : Bytes) : readLabels s = (do
    let (b, ⟨r, hr⟩) ← ofScan (Json.next s)
    if b = byte '\x7b' then
      let (labels, ⟨q, hq⟩) ← readEntries readLabel true .empty r
      return (labels, ⟨q, Json.length_lt_trans hq hr⟩)
    else mismatch b r) :=
  rfl

/-- **A map of texts is read back**, whatever the order of its entries. -/
theorem readLabels_textsOf (es : List (String × String)) (u : Bytes) :
    Reads (readLabels (Text.encode (render (textsOf es)) ++ u)) (SortedMap.ofList es) u := by
  rw [textsOf, Json.encode_render_obj, List.cons_append]
  obtain ⟨hlt, hopen⟩ := reads_ofScan (Json.next_cons (b := byte '\x7b') (by decide)
    (tailBytes true (es.map fun e => (e.1, .str e.2)) ++ u))
  obtain ⟨hlt', hentries⟩ := readEntries_labels true es .empty u
  refine ⟨Nat.lt_trans hlt' hlt, ?_⟩
  rw [readLabels_eq, hopen]
  simp only [bind, Except.bind, if_true, hentries, pure, Except.pure]
  rfl

end Labels

section Fields

variable {f : Found}

/-- An address is read back. -/
theorem readField_address (h : f.address = none) (t : String) (u : Bytes) :
    Reads (readField "address" f (byte ':' :: (Text.encode (quote t) ++ u)))
      { f with address := some t } u := by
  obtain ⟨hlt, hcolon⟩ := colon_cons (Text.encode (quote t) ++ u)
  obtain ⟨hlt', htext⟩ := readText_quote t u
  refine ⟨Nat.lt_trans hlt' hlt, ?_⟩
  simp only [readField, if_true, h, Option.isSome_none, Bool.false_eq_true, if_false, hcolon, htext,
    bind, Except.bind, pure, Except.pure]

/-- So is a status. -/
theorem readField_status (h : f.status = none) (t : String) (u : Bytes) :
    Reads (readField "status" f (byte ':' :: (Text.encode (quote t) ++ u)))
      { f with status := some t } u := by
  obtain ⟨hlt, hcolon⟩ := colon_cons (Text.encode (quote t) ++ u)
  obtain ⟨hlt', htext⟩ := readText_quote t u
  have hne : "status" ≠ "address" := by decide
  refine ⟨Nat.lt_trans hlt' hlt, ?_⟩
  simp only [readField, if_neg hne, if_true, h, Option.isSome_none, Bool.false_eq_true, if_false,
    hcolon, htext, bind, Except.bind, pure, Except.pure]

/-- So are the labels. -/
theorem readField_meta (h : f.labels = none) (es : List (String × String)) (u : Bytes) :
    Reads (readField "meta" f (byte ':' :: (Text.encode (render (textsOf es)) ++ u)))
      { f with labels := some (.ofList es) } u := by
  obtain ⟨hlt, hcolon⟩ := colon_cons (Text.encode (render (textsOf es)) ++ u)
  obtain ⟨hlt', hlabels⟩ := readLabels_textsOf es u
  have hne : "meta" ≠ "address" := by decide
  have hne' : "meta" ≠ "status" := by decide
  refine ⟨Nat.lt_trans hlt' hlt, ?_⟩
  simp only [readField, if_neg hne, if_neg hne', if_true, h, Option.isSome_none, Bool.false_eq_true,
    if_false, hcolon, hlabels, bind, Except.bind, pure, Except.pure]

end Fields

/-- The fields of a record are found one after the other. -/
theorem readEntries_fields (address text : String) (order : List (String × String)) :
    Reads (readEntries readField true {} (tailBytes true
        [("address", .str address), ("status", .str text), ("meta", textsOf order)]))
      ⟨some address, some text, some (.ofList order)⟩ [] := by
  rw [← List.append_nil (tailBytes true _)]
  refine readEntries_cons true ⟨some address, none, none⟩ ?_ ?_
  · exact readField_address rfl address _
  refine readEntries_cons false ⟨some address, some text, none⟩ ?_ ?_
  · exact readField_status rfl text _
  refine readEntries_cons false ⟨some address, some text, some (.ofList order)⟩ ?_ ?_
  · exact readField_meta rfl order _
  · exact readEntries_brace false _ []

/-- What a record writes with its labels in the order given. -/
def writeInOrder (r : MemberRecord) (order : List (String × String)) : String :=
  render (.obj [("address", .str r.address), ("status", .str r.status.toText),
    ("meta", textsOf order)])

/-- **A record is read back**, whatever the order in which its labels are written. -/
theorem read_writeInOrder {r : MemberRecord} {order : List (String × String)}
    (hstatus : ∃ text, r.status = .ofText text) (horder : order.Perm r.labels.entries) :
    read (Text.encode (r.writeInOrder order)) = .ok r := by
  obtain ⟨address, status, labels⟩ := r
  obtain ⟨text, rfl⟩ : ∃ text, status = .ofText text := hstatus
  have hlabels : SortedMap.ofList order = labels := SortedMap.ofList_perm horder
  rw [writeInOrder, Json.encode_render_obj, MemberStatus.toText_ofText]
  obtain ⟨_, hopen⟩ := reads_ofScan (Json.next_cons (b := byte '\x7b') (by decide)
    (tailBytes true [("address", .str address), ("status", .str text), ("meta", textsOf order)]))
  obtain ⟨_, hfields⟩ := readEntries_fields address text order
  have hcomplete : Found.complete ⟨some address, some text, some (.ofList order)⟩ =
      .ok ⟨address, .ofText text, labels⟩ := by
    rw [← hlabels]
    rfl
  have hend : (Json.skipBlanks []).isEmpty = true := rfl
  simp only [read, hopen, if_true, hfields, hcomplete, hend, bind, Except.bind, pure, Except.pure]

/-- A record is read back from what was written of it. -/
theorem read_write {r : MemberRecord} (hstatus : ∃ text, r.status = .ofText text) :
    read (Text.encode r.write) = .ok r :=
  read_writeInOrder hstatus (.refl r.labels.entries)

end MemberRecord

/-- The text behind its front. -/
theorem dropFront_append (front rest : String) : dropFront front (front ++ rest) = rest := by
  have hfront : front.toList.isPrefixOf (front ++ rest).toList = true := by
    rw [List.isPrefixOf_iff_prefix, String.toList_append]
    exact List.prefix_append _ _
  rw [dropFront, if_pos hfront, String.toList_append, List.drop_left, String.ofList_toList]

/-- What stands under a member's key is read as the member with the key's last part as id. -/
theorem decodeMember_append (members id : String) {value : Bytes} {r : MemberRecord}
    (h : MemberRecord.read value = .ok r) :
    decodeMember members (Text.encode (members ++ id)) value = .ok (r.toMember id) := by
  rw [decodeMember, h, Text.decodeLossy_encode, dropFront_append]
  rfl

/-- **What one node registers every peer reads back.**  A record with a status that came from a
text, written under the key of its id with its labels in whatever order, is decoded as the member of
that id, with the address, the status and the labels of the record, and the id is its slot.  The
record of a live node is that of a healthy member of the pool. -/
theorem registered_is_read_back (clusterId : String) (r : MemberRecord) {id : Nat}
    (hstatus : ∃ text, r.status = .ofText text) (hid : id < Text.wordBound) :
    (∀ order, order.Perm r.labels.entries →
      decodeMember (membersPrefix clusterId) (Text.encode (memberKey clusterId id))
        (Text.encode (r.writeInOrder order)) = .ok (r.toMember (toString id))) ∧
    decodeMember (membersPrefix clusterId) (Text.encode (memberKey clusterId id))
      (Text.encode r.write) = .ok (r.toMember (toString id)) ∧
    (r.toMember (toString id)).slot = some id ∧
    ∀ address, r = .passing address → (r.toMember (toString id)).isHealthyShard = true := by
  refine ⟨?_, ?_, Text.word?_toString hid, ?_⟩
  · intro order horder
    exact decodeMember_append _ _ (MemberRecord.read_writeInOrder hstatus horder)
  · exact decodeMember_append _ _ (MemberRecord.read_write hstatus)
  · rintro address rfl
    exact Member.isHealthyShard_sharded id address

/-- A node on its way out, with two labels, written the other way round. -/
theorem registered_is_read_back_of_draining :
    decodeMember (membersPrefix "lab") (Text.encode (memberKey "lab" 7))
      (Text.encode (MemberRecord.writeInOrder
        ⟨"g\u00e9\n\"1\"\x01:80", .other "draining", .ofList [("rack", "\\"), ("zone", "b")]⟩
        [("zone", "b"), ("rack", "\\")])) =
      .ok ⟨"7", "g\u00e9\n\"1\"\x01:80", .other "draining",
        .ofList [("rack", "\\"), ("zone", "b")]⟩ ∧
      Text.word? "7" = some 7 := by
  have hstatus : ∃ text, MemberStatus.other "draining" = .ofText text := ⟨"draining", rfl⟩
  obtain ⟨hread, -, hslot, -⟩ := registered_is_read_back "lab"
    ⟨"g\u00e9\n\"1\"\x01:80", .other "draining", .ofList [("rack", "\\"), ("zone", "b")]⟩
    hstatus (by decide : 7 < Text.wordBound)
  exact ⟨hread _ (.swap _ _ []), hslot⟩

end FleetSharding.Etcd
