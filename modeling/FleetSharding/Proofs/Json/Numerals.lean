import FleetSharding.Json.Reader
import FleetSharding.Proofs.Json.Writing

/-!
# The bytes of a number

A number ends where no digit follows, so what stands behind it must not go on with it.  With that
its digits are read back as the same number.  A float is written in digits with a power of ten; that
this decimal is the float again is a fact about the two conversions, here a property of the float.

* `ofDigits_numberBytes`: the digits of a natural number say which it is.
* `Apart`: what follows belongs to no number.
* `Legible`: a float that its written decimal determines.
* `numeral_toString`, `numeral_renderFloat`: a written number is read back.
-/

namespace FleetSharding

/-- The shortest decimal of a finite number with its sign is the number again. -/
structure Binary64.Legible (x : Binary64) : Prop where
  finite : x.isFinite = true
  determined : ofDecimal x.isNegative x.shortest.digits x.shortest.exponent = x

instance (x : Binary64) : Decidable x.Legible :=
  decidable_of_iff _ ⟨fun h => ⟨h.1, h.2⟩, fun h => And.intro h.finite h.determined⟩

namespace Json

open Text (Bytes encodeChars)

/-- The bytes of a number's digits. -/
def numberBytes (n : Nat) : Bytes := (Nat.toDigits 10 n).map byte

/-- A number below ten is its one digit. -/
theorem numberBytes_of_lt {n : Nat} (h : n < 10) : numberBytes n = [byte (Nat.digitChar n)] := by
  rw [numberBytes, Nat.toDigits_of_lt_base h]
  rfl

/-- A greater one is written as its tenth, and then its last digit. -/
theorem numberBytes_of_le {n : Nat} (h : 10 ≤ n) :
    numberBytes n = numberBytes (n / 10) ++ [byte (Nat.digitChar (n % 10))] := by
  rw [numberBytes, Nat.toDigits_of_base_le (by decide) h, List.map_append]
  rfl

/-- The byte of a digit is one, and has its value; only that of zero is the zero. -/
theorem digitByte {d : Nat} (h : d < 10) :
    isDigitByte (byte (Nat.digitChar d)) = true ∧ (byte (Nat.digitChar d)).toNat - 0x30 = d ∧
      (byte (Nat.digitChar d) = byte '0' → d = 0) := by
  have hall : ∀ d < 10, isDigitByte (byte (Nat.digitChar d)) = true ∧
      (byte (Nat.digitChar d)).toNat - 0x30 = d ∧
      (byte (Nat.digitChar d) = byte '0' → d = 0) := by decide
  exact hall d h

/-- A number is written in its digits. -/
theorem encode_toString (n : Nat) : Text.encode (toString n) = numberBytes n := by
  have hascii : ∀ cs : List Char, (∀ c ∈ cs, c.isDigit = true) → encodeChars cs = cs.map byte := by
    intro cs hcs
    induction cs with
    | nil => rfl
    | cons c cs ih =>
        obtain ⟨hc, hcs⟩ := List.forall_mem_cons.1 hcs
        have hlt : c.toNat < 0x80 := by
          simp only [Char.isDigit, Bool.and_eq_true, decide_eq_true_eq] at hc
          exact Nat.lt_of_le_of_lt (show c.val.toNat ≤ 57 from hc.2) (by decide)
        rw [Text.encodeChars_cons, Text.encodeChar_of_lt hlt, ih hcs]
        rfl
  show Text.encode (Nat.repr n) = _
  rw [Nat.repr_eq_ofList_toDigits, Text.encode_ofList]
  exact hascii _ fun c hc => Nat.isDigit_of_mem_toDigits (by decide) (by decide) hc

/-- The bytes of a number with its sign. -/
def signedBytes (negative : Bool) (n : Nat) : Bytes :=
  if negative then byte '-' :: numberBytes n else numberBytes n

/-- An integer is written in its digits, with a minus before them if it is negative. -/
theorem encode_toString_int (n : Int) :
    Text.encode (toString n) = signedBytes (n < 0) n.natAbs := by
  cases n with
  | ofNat n =>
      have hsign : decide (Int.ofNat n < 0) = false :=
        decide_eq_false (Int.not_lt.2 (Int.natCast_nonneg n))
      rw [hsign]
      exact encode_toString n
  | negSucc n =>
      have hsign : decide (Int.negSucc n < 0) = true := decide_eq_true (Int.negSucc_lt_zero n)
      rw [hsign]
      show Text.encode ("-" ++ toString (n + 1)) = byte '-' :: numberBytes (n + 1)
      rw [Text.encode_append, encode_toString]
      rfl

/-- A number is written in digits alone. -/
theorem isDigitByte_of_mem (n : Nat) : ∀ b ∈ numberBytes n, isDigitByte b = true := by
  induction n using Nat.strongRecOn with
  | ind n ih =>
      by_cases h : n < 10
      · rw [numberBytes_of_lt h]
        simpa using (digitByte h).1
      · rw [numberBytes_of_le (Nat.not_lt.1 h), List.forall_mem_append]
        exact ⟨ih _ (by omega), by simpa using (digitByte (Nat.mod_lt n (by decide))).1⟩

/-- The digits of a number say which it is. -/
theorem ofDigits_numberBytes (n : Nat) : ofDigits (numberBytes n) = n := by
  induction n using Nat.strongRecOn with
  | ind n ih =>
      by_cases h : n < 10
      · rw [numberBytes_of_lt h]
        simpa [ofDigits] using (digitByte h).2.1
      · have hrest := ih (n / 10) (by omega)
        rw [ofDigits] at hrest
        rw [numberBytes_of_le (Nat.not_lt.1 h), ofDigits, List.foldl_append, hrest,
          List.foldl_cons, List.foldl_nil, (digitByte (Nat.mod_lt n (by decide))).2.1]
        omega

/-- The first digit is a zero only if the number is. -/
theorem numberBytes_eq_cons (n : Nat) :
    ∃ b bs, numberBytes n = b :: bs ∧ isDigitByte b = true ∧ (b = byte '0' → n = 0) := by
  induction n using Nat.strongRecOn with
  | ind n ih =>
      by_cases h : n < 10
      · exact ⟨_, _, numberBytes_of_lt h, (digitByte h).1, (digitByte h).2.2⟩
      · obtain ⟨b, bs, hb, hdigit, hzero⟩ := ih (n / 10) (by omega)
        refine ⟨b, bs ++ _, by rw [numberBytes_of_le (Nat.not_lt.1 h), hb]; rfl, hdigit, ?_⟩
        intro hb0
        have := hzero hb0
        omega

/-- A digit is different from what is none. -/
theorem ne_of_isDigitByte {b c : UInt8} (hb : isDigitByte b = true) (hc : isDigitByte c = false) :
    b ≠ c := by
  rintro rfl
  rw [hb] at hc
  cases hc

/-- No digit follows. -/
def EndsDigits (rest : Bytes) : Prop := ∀ b ∈ rest.head?, isDigitByte b = false

/-- What follows does not go on with a number. -/
def Apart (rest : Bytes) : Prop :=
  ∀ b ∈ rest.head?, isDigitByte b = false ∧ b ≠ byte '.' ∧ b ≠ byte 'e' ∧ b ≠ byte 'E'

/-- Digits end before a byte that is none. -/
theorem endsDigits_cons {b : UInt8} (h : isDigitByte b = false) (rest : Bytes) :
    EndsDigits (b :: rest) := by
  rintro _ ⟨⟩
  exact h

/-- What ends a number ends its digits. -/
theorem Apart.endsDigits {rest : Bytes} (h : Apart rest) : EndsDigits rest :=
  fun b hb => (h b hb).1

section Digits

variable {rest : Bytes}

/-- The run of digits at the front is the number's. -/
theorem span_numberBytes (h : EndsDigits rest) (n : Nat) :
    (numberBytes n ++ rest).takeWhile isDigitByte = numberBytes n ∧
      (numberBytes n ++ rest).dropWhile isDigitByte = rest := by
  have hrest : rest.takeWhile isDigitByte = [] ∧ rest.dropWhile isDigitByte = rest := by
    cases rest with
    | nil => exact ⟨rfl, rfl⟩
    | cons b r =>
        have hb : isDigitByte b = false := h b rfl
        exact ⟨List.takeWhile_cons_of_neg (by rw [hb]; nofun),
          List.dropWhile_cons_of_neg (by rw [hb]; nofun)⟩
  rw [List.takeWhile_append_of_pos (isDigitByte_of_mem n),
    List.dropWhile_append_of_pos (isDigitByte_of_mem n), hrest.1, hrest.2, List.append_nil]
  exact ⟨rfl, rfl⟩

/-- The digits of a number are read back, with how many they are. -/
theorem digitRun_numberBytes (h : EndsDigits rest) (n : Nat) :
    Reads (digitRun (numberBytes n ++ rest)) (n, (numberBytes n).length) rest := by
  obtain ⟨htake, hdrop⟩ := span_numberBytes h n
  obtain ⟨b, bs, hb, -, -⟩ := numberBytes_eq_cons n
  have hlt : rest.length < (numberBytes n ++ rest).length := by
    rw [hb, List.length_append, List.length_cons]
    omega
  refine ⟨hlt, ?_⟩
  unfold digitRun
  split
  · next hnone =>
    rw [htake, hb] at hnone
    cases hnone
  · next d ds hsome =>
    rw [htake] at hsome
    simp only [← hsome, ofDigits_numberBytes, hdrop]
    simp [hsome]

/-- No zero stands before the digits of another number. -/
theorem wholePart_numberBytes (h : EndsDigits rest) (n : Nat) :
    Reads (wholePart (numberBytes n ++ rest)) n rest := by
  obtain ⟨hlt, hrun⟩ := digitRun_numberBytes h n
  refine ⟨hlt, ?_⟩
  have hlead :
      ¬ ((numberBytes n ++ rest).head? = some (byte '0') ∧ 1 < (numberBytes n).length) := by
    rintro ⟨hhead, hlong⟩
    obtain ⟨b, bs, hb, -, hzero⟩ := numberBytes_eq_cons n
    rw [hb, List.cons_append, List.head?_cons, Option.some.injEq] at hhead
    rw [hzero hhead, numberBytes_of_lt (by decide)] at hlong
    exact absurd hlong (by decide)
  rw [wholePart, hrun]
  simp only [bind, Except.bind, Bool.and_eq_true, decide_eq_true_eq, hlead, if_false, pure,
    Except.pure]

end Digits

section Numerals

variable {rest : Bytes}

/-- Without a point the digits are the whole number. -/
theorem fractionPart_of_ne (negative : Bool) (n : Nat) {s : Bytes}
    (h : ∀ b ∈ rest.head?, b ≠ byte '.') (hlt : rest.length < s.length) :
    fractionPart negative n s ⟨rest, hlt⟩ = .ok (⟨negative, n, 0, 0, true⟩, ⟨rest, hlt⟩) := by
  cases rest with
  | nil => rfl
  | cons b r => rw [fractionPart, if_neg (h b rfl)]

/-- A whole number is read up to what does not belong to it. -/
theorem unsignedNumeral_numberBytes (negative : Bool) (h : Apart rest) (n : Nat) :
    Reads (unsignedNumeral negative (numberBytes n ++ rest)) ⟨negative, n, 0, 0, true⟩ rest := by
  obtain ⟨hlt, hwhole⟩ := wholePart_numberBytes h.endsDigits n
  refine ⟨hlt, ?_⟩
  rw [unsignedNumeral, hwhole]
  simp only [bind, Except.bind, fractionPart_of_ne negative n (fun b hb => (h b hb).2.1) hlt]
  cases rest with
  | nil => rfl
  | cons b r =>
      obtain ⟨-, -, he, hE⟩ := h b rfl
      simp [he, hE, pure, Except.pure]

/-- An exponent is read with its sign. -/
theorem exponentPart_toString (e : Int) (h : EndsDigits rest) :
    Reads (exponentPart (Text.encode (toString e) ++ rest)) e rest := by
  rw [encode_toString_int]
  have hdigits := digitRun_numberBytes h e.natAbs
  by_cases hneg : e < 0
  · obtain ⟨hlt, hrun⟩ := hdigits
    have hvalue : -(e.natAbs : Int) = e := by omega
    rw [decide_eq_true hneg]
    refine ⟨by simp only [signedBytes, if_true, List.cons_append, List.length_cons]; omega, ?_⟩
    show exponentPart (byte '-' :: (numberBytes e.natAbs ++ rest)) = _
    rw [exponentPart, if_pos (by decide), hrun]
    simp only [bind, Except.bind, if_true, hvalue, pure, Except.pure]
    rfl
  · obtain ⟨b, bs, hb, hdigit, -⟩ := numberBytes_eq_cons e.natAbs
    have hvalue : (e.natAbs : Int) = e := by omega
    have hplus : b ≠ byte '+' := ne_of_isDigitByte hdigit (by decide)
    have hminus : b ≠ byte '-' := ne_of_isDigitByte hdigit (by decide)
    have hbytes : signedBytes false e.natAbs = b :: bs := hb
    rw [hb, List.cons_append] at hdigits
    rw [decide_eq_false hneg, hbytes, List.cons_append]
    obtain ⟨hlt, hrun⟩ := hdigits
    refine ⟨hlt, ?_⟩
    rw [exponentPart, if_neg (by simp [hplus, hminus]), hrun]
    simp only [bind, Except.bind, hvalue, pure, Except.pure]

/-- Digits and an exponent are read together. -/
theorem unsignedNumeral_exponent (negative : Bool) (n : Nat) (e : Int) (h : EndsDigits rest) :
    Reads (unsignedNumeral negative
      (numberBytes n ++ byte 'e' :: (Text.encode (toString e) ++ rest)))
      ⟨negative, n, 0, e, false⟩ rest := by
  have hletter : isDigitByte (byte 'e') = false := by decide
  have hpoint : ∀ b ∈ (byte 'e' :: (Text.encode (toString e) ++ rest)).head?, b ≠ byte '.' := by
    rintro _ ⟨⟩
    decide
  obtain ⟨hlt, hwhole⟩ := wholePart_numberBytes
    (endsDigits_cons hletter (Text.encode (toString e) ++ rest)) n
  obtain ⟨hlt', hexponent⟩ := exponentPart_toString e h
  refine ⟨by simp only [List.length_cons] at hlt; omega, ?_⟩
  rw [unsignedNumeral, hwhole]
  simp only [bind, Except.bind, fractionPart_of_ne negative n hpoint hlt, hexponent, pure,
    Except.pure]
  rfl

/-- The sign is read before the digits. -/
theorem numeral_signed (negative : Bool) {n : Nat} {tail : Bytes} {found : Numeral}
    (h : Reads (unsignedNumeral negative (numberBytes n ++ tail)) found rest) :
    Reads (numeral (signedBytes negative n ++ tail)) found rest := by
  cases negative with
  | true =>
      obtain ⟨hlt, hfound⟩ := h
      refine ⟨by simp only [signedBytes, if_true, List.cons_append, List.length_cons]; omega, ?_⟩
      show numeral (byte '-' :: (numberBytes n ++ tail)) = _
      rw [numeral, if_pos rfl, hfound]
      rfl
  | false =>
      obtain ⟨b, bs, hb, hdigit, -⟩ := numberBytes_eq_cons n
      have hbytes : signedBytes false n = b :: bs := hb
      rw [hb, List.cons_append] at h
      rw [hbytes, List.cons_append]
      obtain ⟨hlt, hfound⟩ := h
      refine ⟨hlt, ?_⟩
      rw [numeral, if_neg (ne_of_isDigitByte hdigit (by decide))]
      exact hfound

/-- **An integer is read back.** -/
theorem numeral_toString (n : Int) (h : Apart rest) :
    Reads (numeral (Text.encode (toString n) ++ rest)) ⟨n < 0, n.natAbs, 0, 0, true⟩ rest := by
  rw [encode_toString_int]
  exact numeral_signed _ (unsignedNumeral_numberBytes _ h n.natAbs)

/-- A float is written in signed digits with an exponent. -/
theorem encode_renderFloat (x : Binary64) :
    Text.encode (renderFloat x) = signedBytes x.isNegative x.shortest.digits ++
      byte 'e' :: Text.encode (toString x.shortest.exponent) := by
  simp only [renderFloat, Text.encode_append, encode_toString, List.append_assoc]
  cases x.isNegative <;> rfl

/-- **A float is read back as the decimal that is written.** -/
theorem numeral_renderFloat (x : Binary64) (h : Apart rest) :
    Reads (numeral (Text.encode (renderFloat x) ++ rest))
      ⟨x.isNegative, x.shortest.digits, 0, x.shortest.exponent, false⟩ rest := by
  rw [encode_renderFloat, List.append_assoc, List.cons_append]
  exact numeral_signed _ (unsignedNumeral_exponent _ _ _ h.endsDigits)

end Numerals

/-- The value of a whole numeral that fits in 64 bits is an integer. -/
theorem ofNumeral_int {n : Int} (hlow : -Int.pow 2 63 ≤ n) (hhigh : n < Int.pow 2 64) :
    ofNumeral ⟨n < 0, n.natAbs, 0, 0, true⟩ = .ok (.int n) := by
  have h63 : Int.pow 2 63 = 9223372036854775808 := rfl
  have h64 : Int.pow 2 64 = 18446744073709551616 := rfl
  have hn63 : Nat.pow 2 63 = 9223372036854775808 := rfl
  have hn64 : Nat.pow 2 64 = 18446744073709551616 := rfl
  rw [h63] at hlow
  rw [h64] at hhigh
  by_cases hneg : n < 0
  · have hvalue : -(n.natAbs : Int) = n := by omega
    have hfits : 0 < n.natAbs ∧ n.natAbs ≤ Nat.pow 2 63 := by omega
    simp only [ofNumeral, hneg, hfits, hvalue, decide_true, Bool.and_self, if_true]
  · have hvalue : (n.natAbs : Int) = n := by omega
    have hfits : n.natAbs < Nat.pow 2 64 := by omega
    simp only [ofNumeral, hneg, hfits, hvalue, decide_true, decide_false, Bool.false_eq_true,
      Bool.and_self, if_true, if_false]

/-- A decimal that determines a float is that float. -/
theorem ofNumeral_float {x : Binary64} (h : x.Legible) :
    ofNumeral ⟨x.isNegative, x.shortest.digits, 0, x.shortest.exponent, false⟩ =
      .ok (.float x) := by
  have hvalue : Binary64.ofDecimal x.isNegative x.shortest.digits
      (x.shortest.exponent - (0 : Nat)) = x := by
    rw [Int.natCast_zero, Int.sub_zero, h.determined]
  simp only [ofNumeral, hvalue, Bool.false_and, Bool.false_eq_true, if_false, h.finite, if_true]

end Json

end FleetSharding
