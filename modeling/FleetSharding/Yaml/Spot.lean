/-!
# A YAML text, placed

The characters of a text together with where they stand.  A line may end in several ways, and all
but the two Unicode separators count as a line feed.  Behind the last character stands a NUL, which
no text may hold, so that looking ahead never runs out.
-/

namespace FleetSharding.Yaml

/-- A character and its place: how many characters come before it in the text and in its line, and
how many lines come before that. -/
structure Spot where
  char : Char
  index : Nat
  line : Nat
  column : Nat
  deriving DecidableEq, Repr

/-- A text from some character on, up to the NUL that ends it. -/
abbrev Spots := List Spot

/-- Whether a text may hold a character. -/
def isAllowed (c : Char) : Bool :=
  c == '\t' || c == '\n' || c == '\r' || (0x20 ≤ c.toNat && c.toNat ≤ 0x7E) || c.toNat == 0x85 ||
    (0xA0 ≤ c.toNat && c.toNat ≤ 0xFFFD) || 0x10000 ≤ c.toNat

def isBreak (c : Char) : Bool :=
  c == '\n' || c == '\u2028' || c == '\u2029'

def isBlank (c : Char) : Bool :=
  c == ' ' || c == '\t'

/-- Whether a line ends here. -/
def isLineEnd (c : Char) : Bool :=
  isBreak c || c == '\x00'

/-- Whether a word ends here. -/
def isWordEnd (c : Char) : Bool :=
  isBlank c || isLineEnd c

/-- A character of an anchor's, a handle's or a directive's name. -/
def isNameChar (c : Char) : Bool :=
  c.isAlphanum || c == '_' || c == '-'

def byteOrderMark : Char := '\uFEFF'

/-- Gives each character its place, `none` if there is one that no text may hold. -/
def place : List Char → Nat → Nat → Nat → Option Spots
  | [], index, line, column => some [⟨'\x00', index, line, column⟩]
  | '\r' :: '\n' :: cs, index, line, column =>
    (place cs (index + 2) (line + 1) 0).map (⟨'\n', index, line, column⟩ :: ·)
  | c :: cs, index, line, column =>
    let c := if c = '\r' ∨ c = '\u0085' then '\n' else c
    if !isAllowed c then none
    else if isBreak c then
      (place cs (index + 1) (line + 1) 0).map (⟨c, index, line, column⟩ :: ·)
    else (place cs (index + 1) line (column + 1)).map (⟨c, index, line, column⟩ :: ·)

/-- The spots of a text; a byte order mark in front is no part of it. -/
def Spots.ofString? (s : String) : Option Spots :=
  match s.toList with
  | '\uFEFF' :: cs => place cs 0 0 0
  | cs => place cs 0 0 0

namespace Spots

/-- The character `k` places ahead. -/
def ahead (k : Nat) (s : Spots) : Char :=
  (s[k]?.map Spot.char).getD '\x00'

/-- The characters while they satisfy a test, and the rest. -/
def span (p : Char → Bool) (s : Spots) : List Char × Spots :=
  ((s.takeWhile fun x => p x.char).map Spot.char, s.dropWhile fun x => p x.char)

def skip (p : Char → Bool) (s : Spots) : Spots :=
  s.dropWhile fun x => p x.char

/-- Three equal marks at the start of a line, and nothing joined to them. -/
def isRule (mark : Char) (s : Spots) : Bool :=
  s.head?.any (·.column == 0) && s.ahead 0 == mark && s.ahead 1 == mark && s.ahead 2 == mark &&
    isWordEnd (s.ahead 3)

/-- Whether a document starts or ends here. -/
def isDocumentRule (s : Spots) : Bool :=
  s.isRule '-' || s.isRule '.'

/-- The next line, if nothing but blanks and a comment is left of this one. -/
def restOfLine? (s : Spots) : Option Spots :=
  let s := s.skip isBlank
  let s := if s.ahead 0 == '#' then s.skip fun c => !isLineEnd c else s
  if isBreak (s.ahead 0) then some (s.drop 1)
  else if isLineEnd (s.ahead 0) then some s
  else none

end Spots

/-- The value of a hexadecimal digit. -/
def hexDigit? (c : Char) : Option Nat :=
  if c.isDigit then some (c.toNat - '0'.toNat)
  else if 'a' ≤ c ∧ c ≤ 'f' then some (c.toNat - 'a'.toNat + 10)
  else if 'A' ≤ c ∧ c ≤ 'F' then some (c.toNat - 'A'.toNat + 10)
  else none

end FleetSharding.Yaml
