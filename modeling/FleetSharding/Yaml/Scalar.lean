import FleetSharding.Yaml.Spot

/-!
# The text of YAML scalars

A scalar is written plain, between quotes, or as a block of lines.  Line breaks inside the first
two fold: one break is a space, and of several all but the first stay.  A block keeps its breaks or
folds those between lines that do not start with a blank; its header says what becomes of the
breaks at its end.
-/

namespace FleetSharding.Yaml

/-- How a scalar was written. -/
inductive ScalarStyle where
  | plain
  | quoted
  /-- A block that keeps its line breaks. -/
  | literal
  /-- A block that folds them. -/
  | folded
  deriving DecidableEq, Repr

/-- Blanks and breaks between two pieces of a scalar, in reverse. -/
structure Gap where
  /-- The blanks, until a line ends. -/
  blanks : List Char := []
  /-- Whether a line has ended. -/
  broken : Bool := false
  /-- The break that ended it, unless it was escaped. -/
  first : Option Char := none
  /-- The breaks after it. -/
  further : List Char := []

namespace Gap

def isEmpty (g : Gap) : Bool :=
  g.blanks.isEmpty && !g.broken

def blank (c : Char) (g : Gap) : Gap :=
  if g.broken then g else { g with blanks := c :: g.blanks }

def lineBreak (c : Char) (g : Gap) : Gap :=
  if g.broken then { g with further := c :: g.further }
  else { broken := true, first := some c }

/-- What stands for the gap in the text, in reverse. -/
def folded (g : Gap) : List Char :=
  if !g.broken then g.blanks
  else if g.first = some '\n' then
    if g.further.isEmpty then [' '] else g.further
  else g.further ++ g.first.toList

end Gap

def ofReversed (cs : List Char) : String :=
  String.ofList cs.reverse

def isFlowMark (c : Char) : Bool :=
  c == ',' || c == '[' || c == ']' || c == '{' || c == '}'

/-- Reads on in a plain scalar whose lines may not start before `margin`.  Answers its text and
whether a line ended in or right behind it. -/
def plainScalar? (flow : Bool) (margin : Int) :
    Spots → Gap → List Char → Option (String × Bool × Spots)
  | [], gap, text => some (ofReversed text, gap.broken, [])
  | x :: rest, gap, text =>
    let c := x.char
    let next := Spots.ahead 0 rest
    let done := some (ofReversed text, gap.broken, x :: rest)
    if isBlank c then
      if gap.broken && x.column < margin && c == '\t' then none
      else plainScalar? flow margin rest (gap.blank c) text
    else if isBreak c then plainScalar? flow margin rest (gap.lineBreak c) text
    else if c == '\x00' then done
    else if !gap.isEmpty && (c == '#' || Spots.isDocumentRule (x :: rest) ||
        (gap.broken && !flow && x.column < margin)) then done
    else if flow && c == ':' && (isFlowMark next || next == '?') then none
    else if (c == ':' && isWordEnd next) || (flow && isFlowMark c) then done
    else plainScalar? flow margin rest {} (c :: (gap.folded ++ text))

/-- Where a reader stands between double quotes. -/
inductive QuotePoint where
  | text
  /-- Behind a backslash. -/
  | escape
  /-- In a code point of which so many digits are missing. -/
  | code (missing value : Nat)

/-- The character that a letter behind a backslash stands for. -/
def escaped? : Char → Option Char
  | '0' => some '\x00'
  | 'a' => some '\x07'
  | 'b' => some '\x08'
  | 't' | '\t' => some '\t'
  | 'n' => some '\n'
  | 'v' => some '\x0B'
  | 'f' => some '\x0C'
  | 'r' => some '\r'
  | 'e' => some '\x1B'
  | ' ' => some ' '
  | '"' => some '"'
  | '/' => some '/'
  | '\\' => some '\\'
  | 'N' => some '\u0085'
  | '_' => some '\u00A0'
  | 'L' => some '\u2028'
  | 'P' => some '\u2029'
  | _ => none

/-- How many digits the code point behind such a letter has. -/
def codeWidth? : Char → Option Nat
  | 'x' => some 2
  | 'u' => some 4
  | 'U' => some 8
  | _ => none

/-- The character of a code point; surrogates have none. -/
def charOfCode? (n : Nat) : Option Char :=
  if h : n.isValidChar then some (Char.ofNatAux n h) else none

/-- Reads on between double quotes. -/
def doubleQuoted? : Spots → QuotePoint → Gap → List Char → Option (String × Spots)
  | [], _, _, _ => none
  | x :: rest, .escape, _, text =>
    if isBreak x.char then doubleQuoted? rest .text { broken := true } text
    else
      match codeWidth? x.char with
      | some n => doubleQuoted? rest (.code n 0) {} text
      | none => (escaped? x.char).bind fun c => doubleQuoted? rest .text {} (c :: text)
  | x :: rest, .code missing value, _, text =>
    (hexDigit? x.char).bind fun d =>
      let value := value * 16 + d
      if missing ≤ 1 then (charOfCode? value).bind fun c => doubleQuoted? rest .text {} (c :: text)
      else doubleQuoted? rest (.code (missing - 1) value) {} text
  | x :: rest, .text, gap, text =>
    let c := x.char
    if c == '\x00' || Spots.isDocumentRule (x :: rest) then none
    else if isBlank c then doubleQuoted? rest .text (gap.blank c) text
    else if isBreak c then doubleQuoted? rest .text (gap.lineBreak c) text
    else
      let text := gap.folded ++ text
      if c == '"' then some (ofReversed text, rest)
      else if c == '\\' then doubleQuoted? rest .escape {} text
      else doubleQuoted? rest .text {} (c :: text)

/-- Reads on between single quotes; `quote` says that the character before was one inside the
text, so that this one must be its other half. -/
def singleQuoted? : Spots → Bool → Gap → List Char → Option (String × Spots)
  | [], _, _, _ => none
  | _ :: rest, true, _, text => singleQuoted? rest false {} ('\'' :: text)
  | x :: rest, false, gap, text =>
    let c := x.char
    if c == '\x00' || Spots.isDocumentRule (x :: rest) then none
    else if isBlank c then singleQuoted? rest false (gap.blank c) text
    else if isBreak c then singleQuoted? rest false (gap.lineBreak c) text
    else
      let text := gap.folded ++ text
      if c == '\'' then
        if Spots.ahead 0 rest == '\'' then singleQuoted? rest true {} text
        else some (ofReversed text, rest)
      else singleQuoted? rest false {} (c :: text)

/-- What becomes of the breaks at the end of a block. -/
inductive Chomp where
  | strip
  /-- One stays. -/
  | clip
  | keep
  deriving DecidableEq, Repr

def Chomp.ofChar? : Char → Option Chomp
  | '-' => some .strip
  | '+' => some .keep
  | _ => none

/-- The header of a block: what becomes of its end, and its indentation if that is given. -/
def blockHeader? (s : Spots) : Option (Chomp × Option Nat × Spots) :=
  let digit (c : Char) : Option Nat := if c.isDigit then some (c.toNat - '0'.toNat) else none
  let (chomp, indent, rest) :=
    match Chomp.ofChar? (s.ahead 0), digit (s.ahead 0) with
    | some k, _ =>
      match digit (s.ahead 1) with
      | some d => (k, some d, s.drop 2)
      | none => (k, none, s.drop 1)
    | none, some d =>
      match Chomp.ofChar? (s.ahead 1) with
      | some k => (k, some d, s.drop 2)
      | none => (.clip, some d, s.drop 1)
    | none, none => (.clip, none, s)
  if indent = some 0 then none
  else (Spots.restOfLine? rest).map fun rest => (chomp, indent, rest)

/-- What was read of a block so far, texts in reverse. -/
structure Block where
  /-- The column at which its lines start, once known. -/
  indent : Option Nat
  /-- The widest of the blank lines in front. -/
  widest : Nat := 0
  /-- Whether a line is being read. -/
  inLine : Bool := false
  /-- Whether the last line started with a blank. -/
  indented : Bool := false
  /-- The break that ended the last line, and the empty lines after it. -/
  gap : Option Char := none
  emptyLines : List Char := []
  text : List Char := []

namespace Block

/-- A line starts with `c`: what the breaks before it come to, and `c`. -/
def startLine (fold : Bool) (c : Char) (b : Block) : Block :=
  let text :=
    if fold && b.gap == some '\n' && !b.indented && !isBlank c then
      if b.emptyLines.isEmpty then ' ' :: b.text else b.emptyLines ++ b.text
    else b.emptyLines ++ (b.gap.toList ++ b.text)
  { b with
    text := c :: text, gap := none, emptyLines := [], inLine := true, indented := isBlank c }

/-- The text of a block that has ended. -/
def finish (chomp : Chomp) (b : Block) : String :=
  ofReversed <|
    match chomp with
    | .strip => b.text
    | .clip => b.gap.toList ++ b.text
    | .keep => b.emptyLines ++ (b.gap.toList ++ b.text)

/-- Reads on in a block whose lines start at column `least` or later. -/
def read? (fold : Bool) (least : Nat) : Spots → Block → Option (Block × Spots)
  | [], b => some (b, [])
  | x :: rest, b =>
    let c := x.char
    if b.inLine then
      if isBreak c then read? fold least rest { b with inLine := false, gap := some c }
      else if c == '\x00' then some (b, x :: rest)
      else read? fold least rest { b with text := c :: b.text }
    else
      let inMargin := b.indent.all (x.column < ·)
      if inMargin && c == ' ' then read? fold least rest b
      else if inMargin && c == '\t' then none
      else
        let b := { b with widest := max b.widest x.column }
        if isBreak c then read? fold least rest { b with emptyLines := c :: b.emptyLines }
        else
          let indent := b.indent.getD (max b.widest least)
          let b := { b with indent := some indent }
          if x.column == indent && c != '\x00' then read? fold least rest (b.startLine fold c)
          else some (b, x :: rest)

end Block

/-- A block scalar behind its indicator, inside a structure whose entries stand at column
`outer`. -/
def blockScalar? (fold : Bool) (outer : Int) (s : Spots) : Option (String × Spots) := do
  let (chomp, given, s) ← blockHeader? s
  let indent := given.map fun d => d + outer.toNat
  let (b, s) ← Block.read? fold (max 1 (outer + 1).toNat) s { indent }
  return (b.finish chomp, s)

end FleetSharding.Yaml
