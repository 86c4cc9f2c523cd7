import FleetSharding.Text.Utf8
import FleetSharding.Yaml.Scalar

/-!
# Tokens of YAML

The pieces a document is made of.  Structure that is written by indentation has tokens of its own,
so that the tokens of a text are a bracketed language.  Readers for directives, anchors and tags are
here; `Yaml.Lexer` puts the tokens in order.
-/

namespace FleetSharding.Yaml

open Text (Bytes)

inductive Token where
  /-- The version a document claims. -/
  | version (major minor : Nat)
  /-- A short name for the start of tags. -/
  | handle (name : String) (start : Bytes)
  | documentStart
  | documentEnd
  | blockSequence
  | blockMapping
  | blockEnd
  | flowSequence
  | flowSequenceEnd
  | flowMapping
  | flowMappingEnd
  /-- A dash before an entry of a block. -/
  | entry
  /-- A comma. -/
  | comma
  | key
  | value
  | anchor (name : String)
  | alias (name : String)
  | tag (handle : String) (suffix : Bytes)
  | scalar (style : ScalarStyle) (text : String)
  /-- What no token could be made of; the last one where a text is ill-formed. -/
  | fault
  deriving DecidableEq, Repr

/-- How many bytes a sequence has that starts with this one. -/
def sequenceWidth? (b : Nat) : Option Nat :=
  if b < 0x80 then some 1
  else if b < 0xC0 then none
  else if b < 0xE0 then some 2
  else if b < 0xF0 then some 3
  else if b < 0xF8 then some 4
  else none

/-- The bytes that a tag's characters write.  A byte may be given as two digits behind a percent
sign; `more` such bytes have to come before the sequence is complete. -/
def tagBytes? : Nat → List Char → Option Bytes
  | more, '%' :: h :: l :: cs => do
    let b := (← hexDigit? h) * 16 + (← hexDigit? l)
    let more ←
      if more = 0 then (sequenceWidth? b).map (· - 1)
      else if 0x80 ≤ b ∧ b < 0xC0 then some (more - 1) else none
    return b.toUInt8 :: (← tagBytes? more cs)
  | 0, c :: cs => if c = '%' then none else (tagBytes? 0 cs).map (c.toNat.toUInt8 :: ·)
  | 0, [] => some []
  | _ + 1, _ => none

/-- A character of a tag; flow marks only where the tag is delimited otherwise. -/
def isTagChar (delimited : Bool) (c : Char) : Bool :=
  isNameChar c || ";/?:@&=+$.%!~*\x27()".toList.contains c ||
    (delimited && (c == ',' || c == '[' || c == ']'))

/-- The bytes of a tag up to the first character of another kind. -/
def tagText? (delimited : Bool) (s : Spots) : Option (Bytes × Spots) :=
  let (cs, rest) := s.span (isTagChar delimited)
  (tagBytes? 0 cs).map fun bs => (bs, rest)

/-- A number of a version, at most nine digits. -/
def versionNumber? (s : Spots) : Option (Nat × Spots) :=
  let (cs, rest) := s.span Char.isDigit
  if cs.isEmpty ∨ 9 < cs.length then none else some (Nat.ofDigitChars 10 cs 0, rest)

/-- A directive, from its percent sign to the end of its line. -/
def directive? (s : Spots) : Option (Token × Spots) := do
  let (name, s) := Spots.span isNameChar (s.drop 1)
  if !isWordEnd (s.ahead 0) then none
  let s := s.skip isBlank
  if name = "YAML".toList then
    let (major, s) ← versionNumber? s
    if s.ahead 0 != '.' then none
    let (minor, s) ← versionNumber? (s.drop 1)
    return (.version major minor, ← s.restOfLine?)
  else if name = "TAG".toList then
    if s.ahead 0 != '!' then none
    let (name, s) := Spots.span isNameChar (s.drop 1)
    let closed := s.ahead 0 == '!'
    if !closed && !name.isEmpty then none
    let s : Spots := if closed then s.drop 1 else s
    if !isBlank (s.ahead 0) then none
    let (start, s) ← tagText? true (s.skip isBlank)
    if start.isEmpty || !isWordEnd (s.ahead 0) then none
    return (.handle (String.ofList ('!' :: name ++ if closed then ['!'] else [])) start,
      ← s.restOfLine?)
  else none

/-- The name behind the mark of an anchor or an alias. -/
def anchorName? (s : Spots) : Option (String × Spots) :=
  let (name, rest) := Spots.span isNameChar (s.drop 1)
  let last := rest.ahead 0
  if !name.isEmpty && (isWordEnd last || "?:,]\x7d%@\x60".toList.contains last) then
    some (String.ofList name, rest)
  else none

/-- A tag, from its exclamation mark on. -/
def tag? (flow : Bool) (s : Spots) : Option (Token × Spots) := do
  let (token, (s : Spots)) ←
    if s.ahead 1 == '<' then do
      let (bytes, s) ← tagText? true (s.drop 2)
      if bytes.isEmpty || s.ahead 0 != '>' then none
      pure (Token.tag "" bytes, (s.drop 1 : Spots))
    else do
      let (name, rest) := Spots.span isNameChar (s.drop 1)
      if rest.ahead 0 == '!' then
        let (bytes, s) ← tagText? false (rest.drop 1)
        if bytes.isEmpty then none
        pure (Token.tag (String.ofList ('!' :: name ++ ['!'])) bytes, s)
      else
        let (bytes, s) ← tagText? false (s.drop 1)
        if bytes.isEmpty then pure (Token.tag "" (Text.encode "!"), s)
        else pure (Token.tag "!" bytes, s)
  if isWordEnd (s.ahead 0) || (flow && s.ahead 0 == ',') then return (token, s) else none

end FleetSharding.Yaml
