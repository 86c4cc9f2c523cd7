import FleetSharding.Text.Utf8

/-!
# The bytes of a text

The bytes of a text are those of its characters, one after the other.  A character of seven bits is
one byte; all bytes of any other character have their eighth bit set, so that they are never
mistaken for one of seven bits.

* `encode_append`, `encode_ofList`: the bytes of a text made of parts.
* `encodeChar_of_lt`, `le_of_mem_encodeChar`: the bytes of one character.
-/

namespace FleetSharding.Text

/-- The bytes of characters. -/
def encodeChars (cs : List Char) : Bytes := cs.flatMap String.utf8EncodeChar

/-- No characters have no bytes. -/
@[simp] theorem encodeChars_nil : encodeChars [] = [] := rfl

/-- The bytes of the first character come first. -/
@[simp] theorem encodeChars_cons (c : Char) (cs : List Char) :
    encodeChars (c :: cs) = String.utf8EncodeChar c ++ encodeChars cs :=
  List.flatMap_cons

/-- Texts are encoded one behind the other. -/
@[simp] theorem encodeChars_append (cs ds : List Char) :
    encodeChars (cs ++ ds) = encodeChars cs ++ encodeChars ds :=
  List.flatMap_append

/-- A text is encoded character by character. -/
theorem encode_ofList (cs : List Char) : encode (String.ofList cs) = encodeChars cs := by
  rw [encode, String.toUTF8, String.toByteArray_ofList, List.utf8Encode,
    List.toList_data_toByteArray, encodeChars]

/-- So its bytes are those of its characters. -/
theorem encode_eq_encodeChars (s : String) : encode s = encodeChars s.toList := by
  rw [← encode_ofList, String.ofList_toList]

/-- The bytes of two texts come one behind the other. -/
theorem encode_append (s t : String) : encode (s ++ t) = encode s ++ encode t := by
  simp only [encode_eq_encodeChars, String.toList_append, encodeChars_append]

/-- A character of seven bits is one byte. -/
theorem encodeChar_of_lt {c : Char} (h : c.toNat < 0x80) :
    String.utf8EncodeChar c = [UInt8.ofNat c.toNat] := by
  unfold String.utf8EncodeChar
  exact if_pos (Nat.le_of_lt_succ h)

/-- All bytes of a character of more than seven bits have the eighth bit. -/
theorem le_of_mem_encodeChar {c : Char} (h : 0x80 ≤ c.toNat) {b : UInt8}
    (hb : b ∈ String.utf8EncodeChar c) : 0x80 ≤ b.toNat := by
  have hlong : ¬ c.val.toNat ≤ 0x7f := by
    intro hle
    exact absurd (Nat.lt_of_le_of_lt hle (by decide)) (Nat.not_lt.2 h)
  unfold String.utf8EncodeChar at hb
  simp only [hlong, if_false] at hb
  split at hb
  · simp only [List.mem_cons, List.not_mem_nil, or_false] at hb
    rcases hb with rfl | rfl <;> rw [UInt8.toNat_ofNat'] <;> omega
  · split at hb
    · simp only [List.mem_cons, List.not_mem_nil, or_false] at hb
      rcases hb with rfl | rfl | rfl <;> rw [UInt8.toNat_ofNat'] <;> omega
    · simp only [List.mem_cons, List.not_mem_nil, or_false] at hb
      rcases hb with rfl | rfl | rfl | rfl <;> rw [UInt8.toNat_ofNat'] <;> omega

end FleetSharding.Text
