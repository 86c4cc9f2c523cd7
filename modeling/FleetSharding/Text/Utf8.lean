/-!
# Bytes as text

Bytes are read as UTF-8.  `decode?` accepts valid sequences only; `decodeLossy` reads any bytes and
puts U+FFFD in place of each longest start of a sequence that cannot be continued, so a single
stray byte costs one replacement character.  `decodeLossy_encode` says that text comes back as
it was.
-/

namespace FleetSharding.Text

abbrev Bytes := List UInt8

def encode (s : String) : Bytes :=
  s.toUTF8.data.toList

def decode? (bs : Bytes) : Option String :=
  String.fromUTF8? ⟨bs.toArray⟩

/-- How many bytes follow a first byte, and the range its second byte must lie in. -/
def sequenceShape (b : UInt8) : Option (Nat × UInt8 × UInt8) :=
  if b < 0x80 then some (0, 0, 0)
  else if b < 0xC2 then none
  else if b < 0xE0 then some (1, 0x80, 0xBF)
  else if b = 0xE0 then some (2, 0xA0, 0xBF)
  else if b = 0xED then some (2, 0x80, 0x9F)
  else if b < 0xF0 then some (2, 0x80, 0xBF)
  else if b = 0xF0 then some (3, 0x90, 0xBF)
  else if b < 0xF4 then some (3, 0x80, 0xBF)
  else if b = 0xF4 then some (3, 0x80, 0x8F)
  else none

/-- The continuation bytes at the front, at most `n` of them, the first within `low` and `high`. -/
def continuation (n : Nat) (low high : UInt8) : Bytes → List UInt8
  | [] => []
  | b :: bs =>
    match n with
    | 0 => []
    | n + 1 =>
      if low ≤ b && b ≤ high then b :: continuation n 0x80 0xBF bs else []

/-- The code point of a complete sequence. -/
def codePoint (first : UInt8) (tail : List UInt8) : Nat :=
  let lead := first.toNat % Nat.pow 2 (if tail.isEmpty then 7 else 6 - tail.length)
  tail.foldl (fun n b => n * 64 + b.toNat % 64) lead

/-- Characters of any bytes, with a replacement for each ill-formed piece. -/
def lossyChars : Nat → Bytes → List Char → List Char
  | 0, _, acc => acc.reverse
  | _, [], acc => acc.reverse
  | fuel + 1, b :: bs, acc =>
    match sequenceShape b with
    | none => lossyChars fuel bs ('\uFFFD' :: acc)
    | some (n, low, high) =>
      let tail := continuation n low high bs
      let rest := bs.drop tail.length
      if tail.length = n then lossyChars fuel rest (Char.ofNat (codePoint b tail) :: acc)
      else lossyChars fuel rest ('\uFFFD' :: acc)

def decodeLossy (bs : Bytes) : String :=
  match decode? bs with
  | some s => s
  | none => String.ofList (lossyChars bs.length bs [])

/-- Text written as bytes is read back. -/
theorem decode?_encode (s : String) : decode? (encode s) = some s := by
  simpa [decode?, encode, String.fromUTF8?, String.fromUTF8] using s.isValidUTF8

/-- What was encoded is decoded again, and nothing of it is replaced. -/
theorem decodeLossy_encode (s : String) : decodeLossy (encode s) = s := by
  simp [decodeLossy, decode?_encode]

end FleetSharding.Text
