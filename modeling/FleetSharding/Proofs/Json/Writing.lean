import FleetSharding.Json.Lexeme
import FleetSharding.Json.Writer
import FleetSharding.Proofs.Text.Utf8

/-!
# The bytes of what is written

A text is quoted character by character and read byte by byte.  Each escaped character is read back
as the bytes of the character, so the bytes collected behind the opening quote are those of the
text, whatever characters it has, and the string ends where its closing quote stands.

* `Reads`: a reader finds something and leaves the rest of the text.
* `stringBytes_escapeChar`: one character is read back.
* `string_escaped`: a whole text is read back.
* `encode_punctuate`: what is put between two brackets is its parts, one after the other.
* `encode_render_arr`, `encode_render_obj`: so are a list and an object.
-/

namespace FleetSharding.Json

open Text (Bytes encodeChars)

/-- A reader found something, and so much of the text is left. -/
def Reads {ε α : Type} {s : Bytes} (x : Except ε (α × { r : Bytes // r.length < s.length })) (a : α)
    (rest : Bytes) : Prop :=
  ∃ h, x = .ok (a, ⟨rest, h⟩)

/-- The first byte that is no blank is found. -/
theorem next_cons {b : UInt8} (hb : isBlankByte b = false) (r : Bytes) :
    Reads (next (b :: r)) b r := by
  have hskip : skipBlanks (b :: r) = b :: r := by simp [skipBlanks, hb]
  refine ⟨by simp, ?_⟩
  unfold next
  split
  · next h => simp [hskip] at h
  · next h =>
    rw [hskip] at h
    cases h
    rfl

/-- A hexadecimal digit is read back. -/
theorem hexDigit?_hexDigit (n : Nat) : hexDigit? (byte (hexDigit n)) = some (n % 16) := by
  have hall : ∀ k < 16, hexDigit? (byte (Nat.digitChar k)) = some k := by decide
  exact hall (n % 16) (Nat.mod_lt _ (by decide))

/-- A control character is read back from its two hexadecimal digits. -/
theorem escape_control {c : Char} (hc : c.toNat < 0x20) (q : Bytes) :
    Reads
      (escape (byte 'u' :: byte '0' :: byte '0' :: byte (hexDigit (c.toNat / 16)) ::
        byte (hexDigit c.toNat) :: q)) c q := by
  have hzero : hexDigit? (byte '0') = some 0 := by decide
  have hletter : letterEscape? (byte 'u') = none := by decide
  have hunit : ((0 * 16 + 0) * 16 + c.toNat / 16 % 16) * 16 + c.toNat % 16 = c.toNat := by omega
  have hlow : (c.toNat < 0xD800 || 0xDFFF < c.toNat) = true := by
    simp only [Bool.or_eq_true, decide_eq_true_eq]
    omega
  refine ⟨by simp only [List.length_cons]; omega, ?_⟩
  simp only [escape, hletter, if_true, unicodeEscape, hexUnit, hzero, hexDigit?_hexDigit, hunit,
    bind, Except.bind, pure, Except.pure, hlow, Char.ofNat_toNat]

section StringBytes

variable {acc bs q t : Bytes}

/-- The closing quote ends a string. -/
theorem stringBytes_quote (acc r : Bytes) :
    Reads (stringBytes (byte '"' :: r) acc) acc.reverse r := by
  refine ⟨by simp, ?_⟩
  rw [stringBytes, if_pos rfl]

/-- A byte that is neither quote nor backslash nor a control character stands for itself. -/
theorem stringBytes_byte {b : UInt8} (hquote : b ≠ byte '"') (hbackslash : b ≠ byte '\\')
    (hcontrol : ¬ b < 0x20) (h : Reads (stringBytes q (b :: acc)) bs t) :
    Reads (stringBytes (b :: q) acc) bs t := by
  obtain ⟨hlt, hq⟩ := h
  refine ⟨by simp only [List.length_cons]; omega, ?_⟩
  rw [stringBytes, if_neg hquote, if_neg hbackslash, if_neg hcontrol, hq]

/-- Bytes past the control characters that are neither quote nor backslash stand for themselves. -/
theorem stringBytes_append {plain : Bytes}
    (hplain : ∀ b ∈ plain, b ≠ byte '"' ∧ b ≠ byte '\\' ∧ ¬ b < 0x20)
    (h : Reads (stringBytes q (plain.reverse ++ acc)) bs t) :
    Reads (stringBytes (plain ++ q) acc) bs t := by
  induction plain generalizing acc with
  | nil => exact h
  | cons b plain ih =>
      obtain ⟨hquote, hbackslash, hcontrol⟩ := hplain b List.mem_cons_self
      refine stringBytes_byte hquote hbackslash hcontrol
        (ih (fun b hb => hplain b (List.mem_cons_of_mem _ hb)) ?_)
      simpa using h

/-- An escape stands for the bytes of its character. -/
theorem stringBytes_escape {c : Char} {r : Bytes} (hescape : Reads (escape r) c q)
    (h : Reads (stringBytes q ((String.utf8EncodeChar c).reverse ++ acc)) bs t) :
    Reads (stringBytes (byte '\\' :: r) acc) bs t := by
  obtain ⟨hlt, hr⟩ := hescape
  obtain ⟨hlt', hq⟩ := h
  have hchar : Text.encode c.toString = String.utf8EncodeChar c := by
    rw [Text.encode_eq_encodeChars]
    simp
  refine ⟨by simp only [List.length_cons]; omega, ?_⟩
  rw [stringBytes, if_neg (by decide), if_pos rfl]
  simp only [hr, hchar, hq]

/-- A letter behind a backslash stands for its character. -/
theorem stringBytes_letter {c l : Char} (hletter : letterEscape? (byte l) = some c)
    (hl : l.toNat < 0x80)
    (h : Reads (stringBytes q ((String.utf8EncodeChar c).reverse ++ acc)) bs t) :
    Reads (stringBytes (encodeChars ['\\', l] ++ q) acc) bs t := by
  have hescape : Reads (escape (byte l :: q)) c q := by
    refine ⟨by simp, ?_⟩
    rw [escape]
    split
    · next c' hc' =>
      rw [hletter] at hc'
      cases hc'
      rfl
    · next hnone =>
      rw [hletter] at hnone
      cases hnone
  have hbytes : encodeChars ['\\', l] ++ q = byte '\\' :: byte l :: q := by
    rw [Text.encodeChars_cons, Text.encodeChars_cons, Text.encodeChar_of_lt hl,
      Text.encodeChar_of_lt (by decide)]
    rfl
  rw [hbytes]
  exact stringBytes_escape hescape h

/-- A control character is written by its number. -/
theorem encodeChars_control (c : Char) :
    encodeChars ['\\', 'u', '0', '0', hexDigit (c.toNat / 16), hexDigit c.toNat] =
      [byte '\\', byte 'u', byte '0', byte '0', byte (hexDigit (c.toNat / 16)),
        byte (hexDigit c.toNat)] := by
  have hdigit : ∀ n, String.utf8EncodeChar (hexDigit n) = [byte (hexDigit n)] := by
    have hall : ∀ k < 16, String.utf8EncodeChar (Nat.digitChar k) = [byte (Nat.digitChar k)] := by
      decide
    exact fun n => hall (n % 16) (Nat.mod_lt _ (by decide))
  simp only [Text.encodeChars_cons, hdigit]
  rfl

/-- The bytes of a character that is not escaped stand for themselves. -/
theorem plain_of_mem_encodeChar {c : Char} (hquote : c ≠ '"') (hbackslash : c ≠ '\\')
    (hcontrol : ¬ c.toNat < 0x20) :
    ∀ b ∈ String.utf8EncodeChar c, b ≠ byte '"' ∧ b ≠ byte '\\' ∧ ¬ b < 0x20 := by
  intro b hb
  by_cases hshort : c.toNat < 0x80
  · have hsmall : c.toNat < 2 ^ 8 := by omega
    have hcode : ∀ d : Char, d.toNat < 2 ^ 8 → b = byte d → c = d := by
      intro d hd heq
      rw [Text.encodeChar_of_lt hshort, List.mem_singleton] at hb
      have hnat : c.toNat = d.toNat := by
        have := congrArg UInt8.toNat (hb.symm.trans heq)
        rwa [UInt8.toNat_ofNat_of_lt' hsmall, byte, Nat.toUInt8,
          UInt8.toNat_ofNat_of_lt' hd] at this
      exact Char.toNat_inj.1 hnat
    refine ⟨fun h => hquote (hcode _ (by decide) h),
      fun h => hbackslash (hcode _ (by decide) h), ?_⟩
    rw [Text.encodeChar_of_lt hshort, List.mem_singleton] at hb
    rw [hb, UInt8.lt_iff_toNat_lt, UInt8.toNat_ofNat_of_lt' hsmall]
    exact hcontrol
  · have hlong : 0x80 ≤ b.toNat := Text.le_of_mem_encodeChar (Nat.not_lt.1 hshort) hb
    have hne : ∀ d : UInt8, d.toNat < 0x80 → b ≠ d := by
      rintro d hd rfl
      exact absurd hd (Nat.not_lt.2 hlong)
    refine ⟨hne _ (by decide), hne _ (by decide), ?_⟩
    rw [UInt8.lt_iff_toNat_lt]
    show ¬ b.toNat < 32
    omega

/-- How a character is written: behind a backslash by a letter or by its number, or as it is. -/
theorem escapeChar_cases (c : Char) :
    (∃ l : Char, letterEscape? (byte l) = some c ∧ l.toNat < 0x80 ∧ escapeChar c = ['\\', l]) ∨
      (c.toNat < 0x20 ∧ escapeChar c =
        ['\\', 'u', '0', '0', hexDigit (c.toNat / 16), hexDigit c.toNat]) ∨
      (c ≠ '"' ∧ c ≠ '\\' ∧ ¬ c.toNat < 0x20 ∧ escapeChar c = [c]) := by
  unfold escapeChar
  split
  · next hc => exact Or.inl ⟨'"', by rw [hc]; decide, by decide, rfl⟩
  split
  · next hc => exact Or.inl ⟨'\\', by rw [hc]; decide, by decide, rfl⟩
  split
  · next hc => exact Or.inl ⟨'b', by rw [hc]; decide, by decide, rfl⟩
  split
  · next hc => exact Or.inl ⟨'f', by rw [hc]; decide, by decide, rfl⟩
  split
  · next hc => exact Or.inl ⟨'n', by rw [hc]; decide, by decide, rfl⟩
  split
  · next hc => exact Or.inl ⟨'r', by rw [hc]; decide, by decide, rfl⟩
  split
  · next hc => exact Or.inl ⟨'t', by rw [hc]; decide, by decide, rfl⟩
  split
  · next hcontrol => exact Or.inr (Or.inl ⟨hcontrol, rfl⟩)
  · next hquote hbackslash _ _ _ _ _ hcontrol =>
    exact Or.inr (Or.inr ⟨hquote, hbackslash, hcontrol, rfl⟩)

/-- **A character is read back**, however it is written. -/
theorem stringBytes_escapeChar (c : Char)
    (h : Reads (stringBytes q ((String.utf8EncodeChar c).reverse ++ acc)) bs t) :
    Reads (stringBytes (encodeChars (escapeChar c) ++ q) acc) bs t := by
  rcases escapeChar_cases c with
    ⟨l, hletter, hl, hc⟩ | ⟨hcontrol, hc⟩ | ⟨hquote, hbackslash, hcontrol, hc⟩
  · rw [hc]
    exact stringBytes_letter hletter hl h
  · rw [hc, encodeChars_control]
    exact stringBytes_escape (escape_control hcontrol q) h
  · rw [hc, Text.encodeChars_cons, Text.encodeChars_nil, List.append_nil]
    exact stringBytes_append (plain_of_mem_encodeChar hquote hbackslash hcontrol) h

/-- All characters of a text are read back, up to the closing quote. -/
theorem stringBytes_escaped (cs : List Char) (acc rest : Bytes) :
    Reads (stringBytes (encodeChars (cs.flatMap escapeChar) ++ byte '"' :: rest) acc)
      (acc.reverse ++ encodeChars cs) rest := by
  induction cs generalizing acc with
  | nil =>
      rw [Text.encodeChars_nil, List.append_nil]
      exact stringBytes_quote acc rest
  | cons c cs ih =>
      rw [List.flatMap_cons, Text.encodeChars_append, List.append_assoc]
      refine stringBytes_escapeChar c ?_
      simpa using ih ((String.utf8EncodeChar c).reverse ++ acc)

end StringBytes

/-- The bytes of a quoted text. -/
theorem encode_quote (s : String) :
    Text.encode (quote s) =
      byte '"' :: (encodeChars (s.toList.flatMap escapeChar) ++ [byte '"']) := by
  rw [quote, Text.encode_ofList, List.cons_append, Text.encodeChars_cons, Text.encodeChars_append]
  rfl

/-- **A quoted text is read back**, whatever it holds. -/
theorem string_escaped (s : String) (rest : Bytes) :
    Reads (string (encodeChars (s.toList.flatMap escapeChar) ++ byte '"' :: rest)) s rest := by
  obtain ⟨hlt, hbytes⟩ := stringBytes_escaped s.toList [] rest
  refine ⟨hlt, ?_⟩
  have hdecode : Text.decode? (encodeChars s.toList) = some s := by
    rw [← Text.encode_eq_encodeChars, Text.decode?_encode]
  simp only [string, hbytes, List.reverse_nil, List.nil_append, hdecode, bind, Except.bind, pure,
    Except.pure]

/-! A list or an object is written with a comma before each of its parts but the first. -/

/-- The comma before a part. -/
def comma (isFirst : Bool) : Bytes := if isFirst then [] else [byte ',']

/-- The bytes of some last parts of a list or an object, or of all, up to what closes it. -/
def joined (close : UInt8) (isFirst : Bool) : List Bytes → Bytes
  | [] => [close]
  | p :: ps => comma isFirst ++ (p ++ joined close false ps)

/-- What stands between an opening and a closing byte is its parts, one after the other. -/
theorem encode_punctuate (opening closing : String) {close : UInt8}
    (hclose : Text.encode closing = [close]) (parts : List String) :
    Text.encode (punctuate opening closing parts) =
      Text.encode opening ++ joined close true (parts.map Text.encode) := by
  have hcons : ∀ p ps, Text.encode (",".intercalate (p :: ps)) ++ [close] =
      Text.encode p ++ joined close false (ps.map Text.encode) := by
    intro p ps
    induction ps generalizing p with
    | nil => rw [String.intercalate_singleton, List.map_nil, joined]
    | cons q qs ih =>
        rw [String.intercalate_cons_cons, Text.encode_append, Text.encode_append,
          List.append_assoc, List.append_assoc, ih q]
        rfl
  rw [punctuate, Text.encode_append, Text.encode_append, List.append_assoc, hclose]
  cases parts with
  | nil => rfl
  | cons p ps =>
      rw [hcons]
      rfl

/-- Items are written one by one. -/
theorem renderItems_eq_map (vs : List Json) : renderItems vs = vs.map render := by
  induction vs with
  | nil => rfl
  | cons v vs ih => rw [renderItems, ih, List.map_cons]

/-- So are fields, each behind its key. -/
theorem renderFields_eq_map (es : List (String × Json)) :
    renderFields es = es.map fun e => quote e.1 ++ ":" ++ render e.2 := by
  induction es with
  | nil => rfl
  | cons e es ih => rw [renderFields, ih, List.map_cons]

/-- The bytes of a list. -/
theorem encode_render_arr (vs : List Json) :
    Text.encode (render (.arr vs)) =
      byte '[' :: joined (byte ']') true (vs.map fun v => Text.encode (render v)) := by
  rw [render, encode_punctuate "[" "]" rfl, renderItems_eq_map, List.map_map]
  rfl

/-- The bytes of an entry. -/
def entryBytes (e : String × Json) : Bytes :=
  Text.encode (quote e.1) ++ byte ':' :: Text.encode (render e.2)

/-- The bytes of an object behind some of its entries, or behind its brace. -/
def tailBytes (isFirst : Bool) : List (String × Json) → Bytes
  | [] => [byte '\x7d']
  | e :: es => comma isFirst ++ (entryBytes e ++ tailBytes false es)

/-- The bytes of an object's fields are theirs, joined with commas. -/
theorem tailBytes_eq_joined (isFirst : Bool) (es : List (String × Json)) :
    tailBytes isFirst es = joined (byte '\x7d') isFirst (es.map entryBytes) := by
  induction es generalizing isFirst with
  | nil => rfl
  | cons e es ih => rw [tailBytes, ih, List.map_cons, joined]

/-- The bytes of an object. -/
theorem encode_render_obj (fields : List (String × Json)) :
    Text.encode (render (.obj fields)) = byte '\x7b' :: tailBytes true fields := by
  have hentry : ∀ e : String × Json,
      Text.encode (quote e.1 ++ ":" ++ render e.2) = entryBytes e := by
    intro e
    rw [Text.encode_append, Text.encode_append, List.append_assoc]
    rfl
  rw [render, encode_punctuate "\x7b" "\x7d" rfl, renderFields_eq_map, List.map_map,
    tailBytes_eq_joined]
  simp only [Function.comp_def, hentry]
  rfl

end FleetSharding.Json
