/-!
# Blank characters

The characters with the Unicode property `White_Space`, and trimming by that property.  Every place
that asks whether a text is blank, or cuts blanks from its ends, uses this one set.
-/

namespace FleetSharding.Text

/-- The code points with the property `White_Space`. -/
def isBlankCode (n : Nat) : Bool :=
  (0x09 ≤ n && n ≤ 0x0D) || n == 0x20 || n == 0x85 || n == 0xA0 || n == 0x1680 ||
    (0x2000 ≤ n && n ≤ 0x200A) || n == 0x2028 || n == 0x2029 || n == 0x202F || n == 0x205F ||
    n == 0x3000

/-- Whether a character is white space in the sense of Unicode. -/
def isBlank (c : Char) : Bool :=
  isBlankCode c.toNat

/-- The characters left when the blanks at both ends are cut. -/
def trimChars (cs : List Char) : List Char :=
  ((cs.dropWhile isBlank).reverse.dropWhile isBlank).reverse

/-- A text without the blanks at its ends. -/
def trim (s : String) : String :=
  String.ofList (trimChars s.toList)

/-- A text is blank when trimming leaves nothing of it. -/
def isAllBlank (s : String) : Bool :=
  s.toList.all isBlank

example : trim " \ta b\u00a0\u3000" = "a b" := by cbv

end FleetSharding.Text
