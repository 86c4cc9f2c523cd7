import FleetSharding.Proofs.Json.Numerals

/-!
# What is written is read back

A value is read by the recursion that its depth bounds, so a written value is read back by an
induction on its shape.  Each part of a list or an object is followed by a comma or by the closing
byte, which belongs to no number; that is all that a part needs to know of what stands behind it.

* `Canonical`: a value as the reader gives it back, of at most so many levels.
* `sequence_joined`, `items_joined`: parts between commas are read one after the other.
* `value_render`: a canonical value is read back, whatever follows that is apart from it.
* `parse_render`: so is a whole text; `parse_render_obj`: and an object with its entries in any
  order.
-/

namespace FleetSharding.Json

open Text (Bytes encodeChars)

/-- A value with at most so many lists and objects around each of its parts, with integers of 64
bits, legible floats, and the keys of each object in order. -/
inductive Canonical : Nat → Json → Prop where
  | null {depth : Nat} : Canonical depth .null
  | bool {depth : Nat} (b : Bool) : Canonical depth (.bool b)
  | int {depth : Nat} {n : Int} (low : -Int.pow 2 63 ≤ n) (high : n < Int.pow 2 64) :
      Canonical depth (.int n)
  | float {depth : Nat} {x : Binary64} (legible : x.Legible) : Canonical depth (.float x)
  | str {depth : Nat} (s : String) : Canonical depth (.str s)
  | arr {depth : Nat} {vs : List Json} (items : ∀ v ∈ vs, Canonical depth v) :
      Canonical (depth + 1) (.arr vs)
  | obj {depth : Nat} {fields : List (String × Json)}
      (sorted : fields.Pairwise fun a b => a.1 < b.1)
      (values : ∀ e ∈ fields, Canonical depth e.2) : Canonical (depth + 1) (.obj fields)

/-- The bytes that close a list or an object. -/
def Closes (b : UInt8) : Prop := b = byte ']' ∨ b = byte '\x7d'

instance : DecidablePred Closes :=
  fun b => inferInstanceAs (Decidable (b = byte ']' ∨ b = byte '\x7d'))

/-- A comma ends a number. -/
theorem apart_comma (r : Bytes) : Apart (byte ',' :: r) := by
  rintro _ ⟨⟩
  decide

/-- So does a closing bracket. -/
theorem Closes.apart {close : UInt8} (h : Closes close) (r : Bytes) : Apart (close :: r) := by
  rintro _ ⟨⟩
  rcases h with rfl | rfl <;> decide

/-- A closing bracket is no blank, so that it is found where blanks are skipped. -/
theorem Closes.isBlankByte {close : UInt8} (h : Closes close) : isBlankByte close = false := by
  rcases h with rfl | rfl <;> decide

/-- Nor is it a comma, so that it ends the parts. -/
theorem Closes.ne_comma {close : UInt8} (h : Closes close) : byte ',' ≠ close := by
  rcases h with rfl | rfl <;> decide

/-- The bytes of a part start with one that is neither blank nor closing. -/
def Opens (bytes : Bytes) : Prop :=
  ∃ b r, bytes = b :: r ∧ isBlankByte b = false ∧ ¬ Closes b

section Sequences

variable {α β : Type} {close : UInt8} {item : (s : Bytes) → Scan α s} {bytesOf : β → Bytes}
  {found : β → α}

/-- The first part comes without a comma. -/
theorem joined_true_cons (p : Bytes) (ps : List Bytes) (rest : Bytes) :
    joined close true (p :: ps) ++ rest = p ++ (joined close false ps ++ rest) := by
  rw [joined, List.append_assoc, List.append_assoc]
  rfl

/-- Every later one has a comma before it. -/
theorem joined_false_cons (p : Bytes) (ps : List Bytes) (rest : Bytes) :
    joined close false (p :: ps) ++ rest = byte ',' :: (p ++ (joined close false ps ++ rest)) := by
  rw [joined, List.append_assoc, List.append_assoc]
  rfl

/-- Parts with commas between them are read one after the other. -/
theorem sequence_joined (hclose : Closes close) (x : β) (xs : List β) (rest : Bytes)
    (hitem : ∀ y ∈ x :: xs, ∀ r, Apart r → Reads (item (bytesOf y ++ r)) (found y) r) :
    Reads (sequence close item (bytesOf x ++ (joined close false (xs.map bytesOf) ++ rest)))
      (found x :: xs.map found) rest := by
  induction xs generalizing x with
  | nil =>
      obtain ⟨hlt, hx⟩ := hitem x List.mem_cons_self _ (hclose.apart rest)
      obtain ⟨hlt', hnext⟩ := next_cons hclose.isBlankByte rest
      refine ⟨Nat.lt_trans hlt' hlt, ?_⟩
      show sequence close item (bytesOf x ++ close :: rest) = _
      rw [sequence, hx]
      simp only [bind, Except.bind, hnext, if_true, pure, Except.pure]
      rfl
  | cons y ys ih =>
      obtain ⟨hlt, hys⟩ := ih y fun z hz => hitem z (List.mem_cons_of_mem _ hz)
      obtain ⟨hlt', hnext⟩ := next_cons (b := byte ',') (by decide)
        (bytesOf y ++ (joined close false (ys.map bytesOf) ++ rest))
      obtain ⟨hlt'', hx⟩ := hitem x List.mem_cons_self _ (apart_comma _)
      rw [List.map_cons, joined_false_cons]
      refine ⟨Nat.lt_trans (Nat.lt_trans hlt hlt') hlt'', ?_⟩
      rw [sequence, hx]
      simp only [bind, Except.bind, hnext, if_neg hclose.ne_comma, if_true, hys, pure,
        Except.pure]
      rfl

/-- So are all parts between the opening and the closing byte. -/
theorem items_joined (hclose : Closes close) (xs : List β) (rest : Bytes)
    (hopens : ∀ y ∈ xs, Opens (bytesOf y))
    (hitem : ∀ y ∈ xs, ∀ r, Apart r → Reads (item (bytesOf y ++ r)) (found y) r) :
    Reads (items close item (joined close true (xs.map bytesOf) ++ rest)) (xs.map found) rest := by
  cases xs with
  | nil =>
      obtain ⟨hlt, hnext⟩ := next_cons hclose.isBlankByte rest
      refine ⟨hlt, ?_⟩
      show items close item (close :: rest) = _
      rw [items, hnext]
      simp only [bind, Except.bind, if_true, pure, Except.pure]
      rfl
  | cons x xs =>
      obtain ⟨b, r, hb, hblank, hother⟩ := hopens x List.mem_cons_self
      have hne : b ≠ close := fun heq => hother (heq ▸ hclose)
      obtain ⟨hlt, hseq⟩ := sequence_joined hclose x xs rest hitem
      obtain ⟨q, hnext⟩ : ∃ q, next (bytesOf x ++ (joined close false (xs.map bytesOf) ++ rest)) =
          .ok (b, q) := by
        rw [hb]
        exact ⟨_, (next_cons hblank _).2⟩
      rw [List.map_cons, joined_true_cons]
      refine ⟨hlt, ?_⟩
      rw [items, hnext]
      simp only [bind, Except.bind, if_neg hne, hseq]
      rfl

end Sequences

section Values

variable {rest : Bytes}

/-- A fixed word is read behind its first byte. -/
theorem word_append (tail r : Bytes) : ∃ h, word tail (tail ++ r) = .ok ⟨r, h⟩ := by
  induction tail with
  | nil => exact ⟨Nat.le_refl _, rfl⟩
  | cons t ts ih =>
      obtain ⟨h, hword⟩ := ih
      refine ⟨by simp only [List.cons_append, List.length_cons]; omega, ?_⟩
      simp only [List.cons_append, word, if_true, hword]

/-- A value is written as neither list nor object, and read as such. -/
def IsPlain (v : Json) : Prop :=
  ∃ b r, Text.encode (render v) = b :: r ∧ isBlankByte b = false ∧ b ≠ byte '[' ∧
    b ≠ byte '\x7b' ∧ ¬ Closes b ∧
    ∀ rest, Apart rest → ∃ h, plain b (r ++ rest) = .ok (v, ⟨rest, h⟩)

/-- A fixed word is read as its value. -/
theorem isPlain_word {v : Json} (b : UInt8) (tail : Bytes)
    (hbytes : Text.encode (render v) = b :: tail)
    (hfirst : isBlankByte b = false ∧ b ≠ byte '[' ∧ b ≠ byte '\x7b' ∧ ¬ Closes b)
    (hplain : ∀ r, plain b r = word tail r >>= fun q => pure (v, q)) : IsPlain v := by
  obtain ⟨hblank, hbracket, hbrace, hcloses⟩ := hfirst
  refine ⟨b, tail, hbytes, hblank, hbracket, hbrace, hcloses, fun rest _ => ?_⟩
  obtain ⟨h, hword⟩ := word_append tail rest
  refine ⟨h, ?_⟩
  rw [hplain, hword]
  rfl

/-- What says that there is no value is read back. -/
theorem isPlain_null : IsPlain .null :=
  isPlain_word (byte 'n') [byte 'u', byte 'l', byte 'l'] rfl (by decide) fun _ => rfl

/-- So are the two truth values. -/
theorem isPlain_bool (b : Bool) : IsPlain (.bool b) := by
  cases b with
  | true =>
      exact isPlain_word (byte 't') [byte 'r', byte 'u', byte 'e'] rfl (by decide) fun _ => rfl
  | false =>
      exact isPlain_word (byte 'f') [byte 'a', byte 'l', byte 's', byte 'e'] rfl (by decide)
        fun _ => rfl

/-- A text is read back from its quotes. -/
theorem isPlain_str (s : String) : IsPlain (.str s) := by
  refine ⟨byte '"', _, encode_quote s, by decide, by decide, by decide, by decide, ?_⟩
  intro rest _
  obtain ⟨hlt, hstring⟩ := string_escaped s rest
  rw [List.append_assoc, List.singleton_append]
  refine ⟨Nat.le_of_lt hlt, ?_⟩
  rw [plain, if_neg (by decide), if_neg (by decide), if_neg (by decide), if_pos rfl, hstring]
  rfl

/-- A number is read as its numeral. -/
theorem isPlain_number {v : Json} {found : Numeral} {negative : Bool} {n : Nat} {tail : Bytes}
    (hbytes : Text.encode (render v) = signedBytes negative n ++ tail)
    (hnumeral : ∀ rest, Apart rest →
      Reads (numeral (Text.encode (render v) ++ rest)) found rest)
    (hvalue : ofNumeral found = .ok v) : IsPlain v := by
  obtain ⟨b, r, hcons, hstart⟩ : ∃ b r, Text.encode (render v) = b :: r ∧
      (b = byte '-' ∨ isDigitByte b = true) := by
    obtain ⟨b, bs, hb, hdigit, -⟩ := numberBytes_eq_cons n
    rw [hbytes]
    cases negative with
    | true => exact ⟨byte '-', _, rfl, Or.inl rfl⟩
    | false => exact ⟨b, bs ++ tail, by rw [← List.cons_append, ← hb]; rfl, Or.inr hdigit⟩
  have hne : ∀ c, c ≠ byte '-' → isDigitByte c = false → b ≠ c := by
    rintro c hminus hother rfl
    rcases hstart with h | h
    · exact hminus h
    · rw [hother] at h
      cases h
  refine ⟨b, r, hcons, ?_, hne _ (by decide) (by decide), hne _ (by decide) (by decide), ?_, ?_⟩
  · unfold isBlankByte
    simp only [Bool.or_eq_false_iff, beq_eq_false_iff_ne]
    exact ⟨⟨⟨hne _ (by decide) (by decide), hne _ (by decide) (by decide)⟩,
      hne _ (by decide) (by decide)⟩, hne _ (by decide) (by decide)⟩
  · rintro (h | h)
    · exact hne _ (by decide) (by decide) h
    · exact hne _ (by decide) (by decide) h
  · intro rest hrest
    have hfound := hnumeral rest hrest
    rw [hcons, List.cons_append] at hfound
    obtain ⟨hlt, hfound⟩ := hfound
    have hnumber : (b = byte '-' || isDigitByte b) = true := by simpa using hstart
    refine ⟨Nat.le_of_lt_succ hlt, ?_⟩
    rw [plain, if_neg (hne _ (by decide) (by decide)), if_neg (hne _ (by decide) (by decide)),
      if_neg (hne _ (by decide) (by decide)), if_neg (hne _ (by decide) (by decide)),
      if_pos hnumber, hfound]
    simp only [bind, Except.bind, hvalue, pure, Except.pure]

/-- An integer is read back if it fits in 64 bits, with or without a sign. -/
theorem isPlain_int {n : Int} (hlow : -Int.pow 2 63 ≤ n) (hhigh : n < Int.pow 2 64) :
    IsPlain (.int n) := by
  have hbytes : Text.encode (render (.int n)) = signedBytes (n < 0) n.natAbs ++ [] := by
    rw [List.append_nil]
    exact encode_toString_int n
  exact isPlain_number hbytes (fun _ hrest => numeral_toString n hrest) (ofNumeral_int hlow hhigh)

/-- A number is read back if its digits say which one it is. -/
theorem isPlain_float {x : Binary64} (hx : x.Legible) : IsPlain (.float x) :=
  isPlain_number (encode_renderFloat x) (fun _ hrest => numeral_renderFloat x hrest)
    (ofNumeral_float hx)

/-- What is neither list nor object is read at any depth. -/
theorem IsPlain.reads {v : Json} (h : IsPlain v) (depth : Nat) (hrest : Apart rest) :
    Reads (value depth (Text.encode (render v) ++ rest)) v rest := by
  obtain ⟨b, r, hbytes, hblank, hbracket, hbrace, -, hplain⟩ := h
  obtain ⟨hle, hplain⟩ := hplain rest hrest
  obtain ⟨hlt, hnext⟩ := next_cons hblank (r ++ rest)
  rw [hbytes, List.cons_append]
  refine ⟨Nat.lt_of_le_of_lt hle hlt, ?_⟩
  cases depth with
  | zero =>
      rw [value, hnext]
      simp only [bind, Except.bind, hplain, pure, Except.pure]
  | succ depth =>
      rw [value, hnext]
      simp only [bind, Except.bind, if_neg hbracket, if_neg hbrace, hplain, pure, Except.pure]

/-- A quoted text begins with a quote, which no other value does. -/
theorem opens_quote (s : String) (r : Bytes) : Opens (Text.encode (quote s) ++ r) :=
  ⟨byte '"', _, by rw [encode_quote, List.cons_append], by decide, by decide⟩

/-- A canonical value starts with a byte of its own. -/
theorem Canonical.opens {depth : Nat} {v : Json} (h : Canonical depth v) :
    Opens (Text.encode (render v)) := by
  have hplain : ∀ {v : Json}, IsPlain v → Opens (Text.encode (render v)) := by
    rintro v ⟨b, r, hbytes, hblank, -, -, hcloses, -⟩
    exact ⟨b, r, hbytes, hblank, hcloses⟩
  cases h with
  | null => exact hplain isPlain_null
  | bool b => exact hplain (isPlain_bool b)
  | int low high => exact hplain (isPlain_int low high)
  | float legible => exact hplain (isPlain_float legible)
  | str s => exact hplain (isPlain_str s)
  | arr items => exact ⟨_, _, encode_render_arr _, by decide, by decide⟩
  | obj sorted values => exact ⟨_, _, encode_render_obj _, by decide, by decide⟩

/-- An entry is read as its key and its value. -/
theorem entry_entryBytes {item : (s : Bytes) → Scan Json s} {e : String × Json}
    (hitem : Reads (item (Text.encode (render e.2) ++ rest)) e.2 rest) :
    Reads (entry item (entryBytes e ++ rest)) e rest := by
  have hbytes : entryBytes e ++ rest = byte '"' ::
      (encodeChars (e.1.toList.flatMap escapeChar) ++
        byte '"' :: (byte ':' :: (Text.encode (render e.2) ++ rest))) := by
    simp only [entryBytes, encode_quote, List.append_assoc, List.cons_append, List.nil_append]
  obtain ⟨hlt, hopen⟩ := next_cons (b := byte '"') (by decide)
    (encodeChars (e.1.toList.flatMap escapeChar) ++
      byte '"' :: (byte ':' :: (Text.encode (render e.2) ++ rest)))
  obtain ⟨hlt₁, hkey⟩ := string_escaped e.1 (byte ':' :: (Text.encode (render e.2) ++ rest))
  obtain ⟨hlt₂, hcolon⟩ := next_cons (b := byte ':') (by decide)
    (Text.encode (render e.2) ++ rest)
  obtain ⟨hlt₃, hitem⟩ := hitem
  rw [hbytes]
  refine ⟨by omega, ?_⟩
  rw [entry, hopen]
  simp only [bind, Except.bind, ne_eq, not_true, if_false, hkey, hcolon, hitem, pure, Except.pure]

/-- The entries of an object are read in the order in which they are written. -/
theorem value_render_obj {depth : Nat} {es : List (String × Json)}
    (hvalues : ∀ e ∈ es, ∀ r, Apart r → Reads (value depth (Text.encode (render e.2) ++ r)) e.2 r) :
    Reads (value (depth + 1) (Text.encode (render (.obj es)) ++ rest)) (.object es) rest := by
  have hitems : Reads (items (byte '\x7d') (entry (value depth))
      (joined (byte '\x7d') true (es.map entryBytes) ++ rest)) (es.map id) rest := by
    refine items_joined (Or.inr rfl) es rest (fun e _ => opens_quote _ _) fun e he r hr => ?_
    exact entry_entryBytes (hvalues e he r hr)
  obtain ⟨hlt, hitems⟩ := hitems
  obtain ⟨hlt', hnext⟩ := next_cons (b := byte '\x7b') (by decide)
    (joined (byte '\x7d') true (es.map entryBytes) ++ rest)
  rw [encode_render_obj, tailBytes_eq_joined, List.cons_append]
  refine ⟨Nat.lt_trans hlt hlt', ?_⟩
  rw [value, hnext]
  simp only [bind, Except.bind, if_neg (show byte '\x7b' ≠ byte '[' by decide), if_true, hitems,
    pure, Except.pure, List.map_id]

/-- The parts of a list are read in order. -/
theorem value_render_arr {depth : Nat} {vs : List Json}
    (hopens : ∀ v ∈ vs, Opens (Text.encode (render v)))
    (hvalues : ∀ v ∈ vs, ∀ r, Apart r → Reads (value depth (Text.encode (render v) ++ r)) v r) :
    Reads (value (depth + 1) (Text.encode (render (.arr vs)) ++ rest)) (.arr vs) rest := by
  have hitems : Reads (items (byte ']') (value depth)
      (joined (byte ']') true (vs.map fun v => Text.encode (render v)) ++ rest)) (vs.map id) rest :=
    items_joined (Or.inl rfl) vs rest hopens hvalues
  obtain ⟨hlt, hitems⟩ := hitems
  obtain ⟨hlt', hnext⟩ := next_cons (b := byte '[') (by decide)
    (joined (byte ']') true (vs.map fun v => Text.encode (render v)) ++ rest)
  rw [encode_render_arr, List.cons_append]
  refine ⟨Nat.lt_trans hlt hlt', ?_⟩
  rw [value, hnext]
  simp only [bind, Except.bind, if_true, hitems, pure, Except.pure, List.map_id]

/-- **A canonical value is read back**, whatever follows that is apart from it. -/
theorem value_render {depth : Nat} {v : Json} (h : Canonical depth v) :
    ∀ {rest}, Apart rest → Reads (value depth (Text.encode (render v) ++ rest)) v rest := by
  induction h with
  | null => exact isPlain_null.reads _
  | bool b => exact (isPlain_bool b).reads _
  | int low high => exact (isPlain_int low high).reads _
  | float legible => exact (isPlain_float legible).reads _
  | str s => exact (isPlain_str s).reads _
  | arr items ih =>
      intro rest _
      exact value_render_arr (fun v hv => (items v hv).opens) fun v hv r hr => ih v hv hr
  | @obj depth fields sorted values ih =>
      intro rest _
      have hsame : Json.object fields = .obj fields := by
        rw [Json.object, SortedMap.ofList_entries ⟨fields, sorted⟩]
      have hobject : Reads (value (depth + 1) (Text.encode (render (.obj fields)) ++ rest))
          (.object fields) rest := value_render_obj fun e he r hr => ih e he hr
      rwa [hsame] at hobject

end Values

/-- A text is parsed as the value that it writes to its end. -/
theorem parseText_of_reads {s : String} {v : Json}
    (h : Reads (value maxDepth (Text.encode s ++ [])) v []) : parseText s = .ok v := by
  rw [List.append_nil] at h
  obtain ⟨hlt, hvalue⟩ := h
  rw [parseText, parse, hvalue]
  rfl

/-- A number ends with the text at the latest. -/
theorem apart_nil : Apart [] := nofun

/-- **A canonical text is parsed as its value.** -/
theorem parse_render {v : Json} (h : Canonical maxDepth v) : parseText (render v) = .ok v :=
  parseText_of_reads (value_render h apart_nil)

/-- **Entries in any order are parsed as an object.** -/
theorem parse_render_obj {es : List (String × Json)}
    (h : ∀ e ∈ es, Canonical (maxDepth - 1) e.2) :
    parseText (render (.obj es)) = .ok (.object es) := by
  have hvalue : Reads (value (maxDepth - 1 + 1) (Text.encode (render (.obj es)) ++ []))
      (.object es) [] := value_render_obj fun e he _ hr => value_render (h e he) hr
  exact parseText_of_reads hvalue

end FleetSharding.Json
