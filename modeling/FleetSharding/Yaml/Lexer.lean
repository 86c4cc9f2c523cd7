import FleetSharding.Yaml.Token

/-!
# From a YAML text to its tokens

A key need not be marked: what stands before a colon on one line is one, and that is known only at
the colon.  So each place where a key could start is remembered, with the number of tokens before
it, and the tokens that mark the key are put in there when the colon comes.  Outside of brackets the
indentation opens and closes blocks.

A token that may still have to come behind the mark of a key is held back.  So where a text goes
wrong, the tokens before that are known except those held back.  `tokens` gives the tokens of a
text, up to the place where it goes wrong.  -/

namespace FleetSharding.Yaml

/-- A place where a key may have started. -/
structure PossibleKey where
  start : Spot
  /-- How many tokens come before it. -/
  before : Nat
  /-- Whether nothing but a key can stand there. -/
  required : Bool

structure Lexer where
  rest : Spots
  /-- The tokens so far, the last one first, and their number. -/
  recent : List Token := []
  count : Nat := 0
  /-- The column of the innermost block, -1 if there is none. -/
  indent : Int := -1
  /-- The columns of the blocks around it. -/
  outer : List Int := []
  /-- The place where a key may have started at this level of brackets. -/
  key : Option PossibleKey := none
  /-- Such places at the levels around it. -/
  enclosing : List (Option PossibleKey) := []
  /-- Whether a key may start here. -/
  keyAllowed : Bool := true

namespace Lexer

def inFlow (l : Lexer) : Bool := !l.enclosing.isEmpty

/-- Where the lexer stands. -/
def here (l : Lexer) : Spot := l.rest.head?.getD ⟨'\x00', 0, 0, 0⟩

def column (l : Lexer) : Int := l.here.column

def emit (t : Token) (l : Lexer) : Lexer :=
  { l with recent := t :: l.recent, count := l.count + 1 }

/-- Puts a token behind the first `n`. -/
def emitAfter (n : Nat) (t : Token) (l : Lexer) : Lexer :=
  { l with
    recent := l.recent.take (l.count - n) ++ t :: l.recent.drop (l.count - n)
    count := l.count + 1 }

/-- Closes the blocks that stand right of a column. -/
def closeTo (column : Int) : List Int → Lexer → Lexer
  | [], l => l
  | o :: os, l =>
    if column < l.indent then closeTo column os ({ l with indent := o, outer := os }.emit .blockEnd)
    else l

def unroll (column : Int) (l : Lexer) : Lexer :=
  if l.inFlow then l else closeTo column l.outer l

/-- Opens a block behind the first `n` tokens, if it stands right of the innermost. -/
def roll (column : Int) (n : Nat) (t : Token) (l : Lexer) : Lexer :=
  if !l.inFlow && l.indent < column then
    { l with indent := column, outer := l.indent :: l.outer }.emitAfter n t
  else l

/-- Gives up the place where a key may have started, unless there had to be one. -/
def dropKey? (l : Lexer) : Option Lexer :=
  if l.key.any (·.required) then none else some { l with key := none }

/-- Remembers this place, if a key may start here. -/
def markKey? (l : Lexer) : Option Lexer :=
  if l.keyAllowed then
    l.dropKey?.map fun l =>
      { l with key := some ⟨l.here, l.count, !l.inFlow && l.indent == l.column⟩ }
  else some l

/-- A place that is too far back for a key: another line, or more than 1024 characters. -/
def isStale (here : Spot) (k : PossibleKey) : Bool :=
  k.start.line < here.line || k.start.index + 1024 < here.index

/-- Gives up the places that are too far back. -/
def dropStale? (l : Lexer) : Option Lexer :=
  let stale := isStale l.here
  if (l.key :: l.enclosing).any fun k => k.any fun k => stale k && k.required then none
  else
    let fresh (k : Option PossibleKey) := k.filter (!stale ·)
    some { l with key := fresh l.key, enclosing := l.enclosing.map fresh }

/-- Skips blanks, comments and breaks.  Outside of brackets a key may start on a new line, and no
tab may stand where one could. -/
def skipGaps (flow : Bool) : Spots → Bool → Bool → Spots × Bool
  | [], keyAllowed, _ => ([], keyAllowed)
  | x :: rest, keyAllowed, comment =>
    let c := x.char
    if comment && !isLineEnd c then skipGaps flow rest keyAllowed true
    else if isBreak c then skipGaps flow rest (keyAllowed || !flow) false
    else if c == ' ' || (c == '\t' && (flow || !keyAllowed)) ||
        (c == byteOrderMark && x.column == 0) then
      skipGaps flow rest keyAllowed false
    else if c == '#' then skipGaps flow rest keyAllowed true
    else (x :: rest, keyAllowed)

/-- Moves to the next token. -/
def settle? (l : Lexer) : Option Lexer :=
  let (rest, keyAllowed) := skipGaps l.inFlow l.rest l.keyAllowed false
  ({ l with rest, keyAllowed : Lexer }.dropStale?).map fun l => l.unroll l.column

def advance (n : Nat) (l : Lexer) : Lexer :=
  { l with rest := l.rest.drop n }

/-- The tokens, all blocks closed. -/
def finish? (l : Lexer) : Option (List Token) :=
  (l.unroll (-1)).dropKey?.map (·.recent.reverse)

/-- A directive, or the mark where a document starts or ends. -/
def documentMark? (l : Lexer) : Option Lexer := do
  let l ← (l.unroll (-1)).dropKey?
  let l := { l with keyAllowed := false }
  if l.here.char == '%' then
    let (t, rest) ← directive? l.rest
    return { l with rest }.emit t
  else
    return (l.advance 3).emit (if l.here.char == '-' then .documentStart else .documentEnd)

/-- An opening bracket. -/
def open? (t : Token) (l : Lexer) : Option Lexer :=
  l.markKey?.map fun l =>
    ({ l with key := none, enclosing := l.key :: l.enclosing, keyAllowed := true }.advance 1).emit t

/-- A closing bracket. -/
def close? (t : Token) (l : Lexer) : Option Lexer :=
  l.dropKey?.map fun l =>
    let l :=
      match l.enclosing with
      | [] => l
      | k :: ks => { l with key := k, enclosing := ks }
    ({ l with keyAllowed := false }.advance 1).emit t

def comma? (l : Lexer) : Option Lexer :=
  l.dropKey?.map fun l => ({ l with keyAllowed := true }.advance 1).emit .comma

/-- A mark that opens a block where it stands. -/
def blockMark? (block : Token) (l : Lexer) : Option Lexer :=
  if l.inFlow then some l
  else if l.keyAllowed then some (l.roll l.column l.count block)
  else none

/-- A dash. -/
def entry? (l : Lexer) : Option Lexer := do
  let l ← (← l.blockMark? .blockSequence).dropKey?
  return ({ l with keyAllowed := true }.advance 1).emit .entry

/-- A question mark. -/
def key? (l : Lexer) : Option Lexer := do
  let l ← (← l.blockMark? .blockMapping).dropKey?
  return ({ l with keyAllowed := !l.inFlow }.advance 1).emit .key

/-- A colon: what stands before it becomes a key, if it can. -/
def value? (l : Lexer) : Option Lexer :=
  match l.key with
  | some k =>
    let l := (l.emitAfter k.before .key).roll k.start.column k.before .blockMapping
    some (({ l with key := none, keyAllowed := false }.advance 1).emit .value)
  | none =>
    (l.blockMark? .blockMapping).map fun l =>
      ({ l with keyAllowed := !l.inFlow }.advance 1).emit .value

/-- A token that may be, or may come before, a key. -/
def content? (read : Lexer → Option (Token × Spots)) (l : Lexer) : Option Lexer := do
  let l ← l.markKey?
  let (t, rest) ← read l
  return { l with rest, keyAllowed := false }.emit t

def plain? (l : Lexer) : Option Lexer := do
  let l ← l.markKey?
  let (text, broken, rest) ← plainScalar? l.inFlow (l.indent + 1) l.rest {} []
  return { l with rest, keyAllowed := broken }.emit (.scalar .plain text)

def block? (style : ScalarStyle) (l : Lexer) : Option Lexer := do
  let l ← l.dropKey?
  let (text, rest) ← blockScalar? (style == .folded) l.indent (l.rest.drop 1)
  return { l with rest, keyAllowed := true }.emit (.scalar style text)

/-- A token that the next character starts.  Brackets make more characters into marks. -/
def token? (l : Lexer) : Option Lexer :=
  let flow := l.inFlow
  let next := l.rest.ahead 1
  let quoted (read : Spots → Option (String × Spots)) (l : Lexer) :=
    (read (l.rest.drop 1)).map fun r => (Token.scalar .quoted r.1, r.2)
  if (l.here.char == '%' && l.here.column == 0) || l.rest.isDocumentRule then l.documentMark?
  else
    match l.here.char with
    | '[' => l.open? .flowSequence
    | '{' => l.open? .flowMapping
    | ']' => l.close? .flowSequenceEnd
    | '}' => l.close? .flowMappingEnd
    | ',' => l.comma?
    | '*' => l.content? fun l => (anchorName? l.rest).map fun r => (.alias r.1, r.2)
    | '&' => l.content? fun l => (anchorName? l.rest).map fun r => (.anchor r.1, r.2)
    | '!' => l.content? fun l => tag? flow l.rest
    | '\'' => l.content? (quoted fun s => singleQuoted? s false {} [])
    | '"' => l.content? (quoted fun s => doubleQuoted? s .text {} [])
    | '-' => if isWordEnd next then l.entry? else l.plain?
    | '?' => if flow || isWordEnd next then l.key? else l.plain?
    | ':' => if flow || isWordEnd next then l.value? else l.plain?
    | '|' => if flow then none else l.block? .literal
    | '>' => if flow then none else l.block? .folded
    | '%' | '@' | '\x60' | '#' | '\t' => none
    | _ => l.plain?

/-- How many of the tokens are final: none from the first place on where a key may have started. -/
def settled (l : Lexer) : Nat :=
  (l.key :: l.enclosing).foldl (fun n k => k.elim n (min n ·.before)) l.count

/-- The tokens of a text that goes wrong behind them. -/
def cut (l : Lexer) : List Token :=
  l.recent.reverse.take l.settled ++ [.fault]

/-- Reads on to the end, or to where the text goes wrong.  Places for a key are looked over behind
each token, too, before it is passed on.  Every token takes a character, so their number is fuel
enough. -/
def run : Nat → Lexer → List Token
  | 0, l => l.cut
  | fuel + 1, l =>
    match l.settle? with
    | none => l.cut
    | some m =>
      if m.here.char == '\x00' then m.finish?.getD l.cut
      else
        match m.token?.bind dropStale? with
        | none => l.cut
        | some m => run fuel m

end Lexer

/-- The tokens of a text.  A character that no text may hold spoils all of it. -/
def tokens (text : String) : List Token :=
  match Spots.ofString? text with
  | none => [.fault]
  | some s => Lexer.run (s.length + 1) { rest := s }

end FleetSharding.Yaml
