import FleetSharding.Yaml.Lexer

/-!
# YAML documents

A document is a tree of scalars, sequences and mappings.  A node may carry an anchor, and an alias
stands for the node that carries it; the tree keeps the alias, and the anchors are looked up when
the document is read, so that a node may even hold an alias of itself.

A text may go wrong anywhere, and what comes before that is a document all the same: a node stands
where nothing more can be read, and every list that was not closed ends there.  `load` gives the
first document of a text, and says whether it is all of it; `Document.ofString?` gives the document
of a text that has one, and nothing else.  A text without any content is a document with an empty
scalar.
-/

namespace FleetSharding.Yaml

open Text (Bytes)

inductive Node where
  | scalar (style : ScalarStyle) (tag : Option Bytes) (text : String)
  | sequence (tag : Option Bytes) (items : List Node)
  | mapping (tag : Option Bytes) (entries : List (Node × Node))
  /-- The node whose anchor has this number. -/
  | alias (anchor : Nat)
  /-- Where the text goes wrong: nothing can be read from here on. -/
  | broken

/-- What stands where nothing was written. -/
def Node.empty : Node := .scalar .plain none ""

instance : Inhabited Node := ⟨.empty⟩

/-- A node with an anchor: the anchor's number, and how many anchors came before. -/
structure Anchored where
  anchor : Nat
  before : Nat
  node : Node

structure Document where
  root : Node
  anchored : List Anchored

/-- The last node with an anchor of this number. -/
def Document.anchored? (anchored : List Anchored) (anchor : Nat) : Option Node :=
  let found := anchored.filter (·.anchor == anchor)
  (found.find? fun a => found.all (·.before ≤ a.before)).map (·.node)

/-- What is known while the tokens of a document are taken in order. -/
structure Reading where
  tokens : List Token
  /-- The short names for the start of tags. -/
  handles : List (String × Bytes) := []
  /-- The number of each anchor's name. -/
  names : List (String × Nat) := []
  begun : Nat := 0
  anchored : List Anchored := []
  /-- Whether the text has gone wrong. -/
  failed : Bool := false

abbrev Reader := StateM Reading

namespace Reader

/-- The next token; there is none at the end. -/
def peek : Reader (Option Token) := do
  return (← get).tokens.head?

def skip : Reader Unit :=
  modify fun r => { r with tokens := r.tokens.tail }

/-- Goes past the next token if it is this one. -/
def accept (t : Token) : Reader Bool := do
  if (← peek) = some t then
    skip
    return true
  else return false

/-- The text goes wrong here: nothing comes any more, and this stands for what should. -/
def fail {α : Type} (a : α) : Reader α := do
  modify fun r => { r with tokens := [.fault], failed := true }
  return a

/-- Where nothing was written, unless the text goes wrong there. -/
def absent : Reader Node := do
  if (← peek) = some .fault then fail .broken else return .empty

/-- A tag in full. -/
def wholeTag? (handle : String) (suffix : Bytes) : Reader (Option Bytes) := do
  if handle.isEmpty then return some suffix
  return ((← get).handles.lookup handle).map (· ++ suffix)

/-- The anchor and the tag in front of a node, in either order; nothing, if the tag is not known. -/
def properties? : Reader (Option (Option String × Option Bytes)) := do
  match ← peek with
  | some (.anchor name) =>
    skip
    match ← peek with
    | some (.tag handle suffix) =>
      skip
      return (← wholeTag? handle suffix).map fun tag => (some name, some tag)
    | _ => return some (some name, none)
  | some (.tag handle suffix) =>
    skip
    match ← peek with
    | some (.anchor name) =>
      skip
      return (← wholeTag? handle suffix).map fun tag => (some name, some tag)
    | _ => return (← wholeTag? handle suffix).map fun tag => (none, some tag)
  | _ => return some (none, none)

/-- Gives an anchor its number: as many names as are known.  A name that comes again takes a new
number. -/
def begin (name : String) : Reader (Nat × Nat) :=
  modifyGet fun r =>
    let id := r.names.length
    ((id, r.begun),
      { r with
        names := (name, id) :: r.names.filter (·.1 != name)
        begun := r.begun + 1 })

/-- Reads the content of a node that may have an anchor. -/
def anchored (name : Option String) (content : Reader Node) : Reader Node := do
  match name with
  | none => content
  | some name =>
    let (anchor, before) ← begin name
    let node ← content
    modify fun r => { r with anchored := ⟨anchor, before, node⟩ :: r.anchored }
    return node

/-- Nothing, if one of these tokens is next. -/
def orEmpty (stops : List Token) (read : Reader Node) : Reader Node := do
  if (← peek).any (· ∈ stops) then return .empty else read

/-- A mapping of one entry, which ends behind it. -/
def pair (key value : Node) : Reader Node := do
  let rest := if (← get).failed then [(.broken, .broken)] else []
  return .mapping none ((key, value) :: rest)

mutual

/-- A node.  Entries of a sequence that are not indented, and blocks at all, may start one only
where that is said. -/
def node : Nat → Bool → Bool → Reader Node
  | 0, _, _ => fail .broken
  | fuel + 1, block, flush => do
    match ← peek with
    | some (.alias name) =>
      skip
      match (← get).names.lookup name with
      | some anchor => return .alias anchor
      | none => fail .broken
    | _ =>
      match ← properties? with
      | none => fail .broken
      | some (name, tag) =>
        match ← peek with
        | some (.scalar style text) =>
          anchored name do
            skip
            return .scalar style (tag.filter (· != Text.encode "!")) text
        | some .flowSequence =>
          anchored name do
            skip
            return .sequence tag (← flowItems fuel true)
        | some .flowMapping =>
          anchored name do
            skip
            return .mapping tag (← flowEntries fuel true)
        | some .fault => fail .broken
        | next =>
          if next = some .entry ∧ flush then
            anchored name do return .sequence tag (← flushItems fuel)
          else if next = some .blockSequence ∧ block then
            anchored name do
              skip
              return .sequence tag (← blockItems fuel)
          else if next = some .blockMapping ∧ block then
            anchored name do
              skip
              return .mapping tag (← blockEntries fuel)
          else if name.isSome ∨ tag.isSome then anchored name (pure (.scalar .plain tag ""))
          else fail .broken

/-- The items of an indented sequence. -/
def blockItems : Nat → Reader (List Node)
  | 0 => fail [.broken]
  | fuel + 1 => do
    if ← accept .entry then
      let item ← orEmpty [.entry, .blockEnd] (node fuel true false)
      return item :: (← blockItems fuel)
    if ← accept .blockEnd then return [] else fail [.broken]

/-- The items of a sequence that is not indented. -/
def flushItems : Nat → Reader (List Node)
  | 0 => fail [.broken]
  | fuel + 1 => do
    if ← accept .entry then
      let item ← orEmpty [.entry, .key, .value, .blockEnd] (node fuel true false)
      return item :: (← flushItems fuel)
    if (← peek) = some .fault then fail [.broken] else return []

/-- The entries of a block mapping. -/
def blockEntries : Nat → Reader (List (Node × Node))
  | 0 => fail [(.broken, .broken)]
  | fuel + 1 => do
    if ← accept .key then
      let content := orEmpty [.key, .value, .blockEnd] (node fuel true true)
      let key ← content
      let value ← if ← accept .value then content else absent
      return (key, value) :: (← blockEntries fuel)
    if ← accept .blockEnd then return [] else fail [(.broken, .broken)]

/-- The items between square brackets; a pair among them is a mapping of its own.  A pair without a
key takes the token behind its mark. -/
def flowItems : Nat → Bool → Reader (List Node)
  | 0, _ => fail [.broken]
  | fuel + 1, first => do
    if ← accept .flowSequenceEnd then return []
    if !first then
      if !(← accept .comma) then return ← fail [.broken]
      if ← accept .flowSequenceEnd then return []
    if ← accept .key then
      let key ←
        if (← peek).any (· ∈ [.value, .comma, .flowSequenceEnd]) then do
          skip
          pure .empty
        else node fuel false false
      let value ←
        if ← accept .value then orEmpty [.comma, .flowSequenceEnd] (node fuel false false)
        else absent
      return (← pair key value) :: (← flowItems fuel false)
    let item ← node fuel false false
    return item :: (← flowItems fuel false)

/-- The entries between braces; one without a colon has an empty value. -/
def flowEntries : Nat → Bool → Reader (List (Node × Node))
  | 0, _ => fail [(.broken, .broken)]
  | fuel + 1, first => do
    if ← accept .flowMappingEnd then return []
    if !first then
      if !(← accept .comma) then return ← fail [(.broken, .broken)]
      if ← accept .flowMappingEnd then return []
    if ← accept .key then
      let key ← orEmpty [.value, .comma, .flowMappingEnd] (node fuel false false)
      let value ←
        if ← accept .value then orEmpty [.comma, .flowMappingEnd] (node fuel false false)
        else absent
      return (key, value) :: (← flowEntries fuel false)
    let key ← node fuel false false
    return (key, ← absent) :: (← flowEntries fuel false)

end

/-- The short names that are known anyway. -/
def commonHandles : List (String × Bytes) :=
  [("!", Text.encode "!"), ("!!", Text.encode "tag:yaml.org,2002:")]

/-- The directives of a document: at most one version, one of those known, and no short name
twice.  Whether they are as they should be. -/
def directives : Nat → Bool → List (String × Bytes) → Reader Bool
  | 0, _, _ => return false
  | fuel + 1, versioned, handles => do
    match ← peek with
    | some (.version major minor) =>
      if versioned || major != 1 || (minor != 1 && minor != 2) then return false
      skip
      directives fuel true handles
    | some (.handle name start) =>
      if handles.any (·.1 == name) then return false
      skip
      directives fuel versioned (handles ++ [(name, start)])
    | _ =>
      modify fun r => { r with handles := handles ++ commonHandles }
      return true

/-- What ends a document, apart from the end of the text. -/
def endsDocument : Token → Bool
  | .version .. | .handle .. | .documentStart | .documentEnd => true
  | _ => false

/-- The first document of a text. -/
def document (fuel : Nat) : Reader Node := do
  let explicit := match ← peek with
    | some (.version ..) | some (.handle ..) | some .documentStart => true
    | _ => false
  if !(← directives fuel false []) then return ← fail .broken
  if explicit then
    if !(← accept .documentStart) then return ← fail .broken
    if (← peek).all endsDocument then return .empty
  else if (← peek).isNone then return .empty
  node fuel true false

end Reader

/-- The first document of a text, as far as it can be read. -/
structure Loaded where
  document : Document
  /-- Whether nothing goes wrong in the text, and no other document follows. -/
  isWhole : Bool

/-- Reads the first document of a text.  Between two tokens a reader goes through four calls at
most. -/
def load (text : String) : Loaded :=
  let tokens := tokens text
  let (root, r) := (Reader.document (4 * tokens.length + 4)).run { tokens }
  let rest := r.tokens.dropWhile (· == .documentEnd)
  { document := { root, anchored := r.anchored }, isWhole := rest.isEmpty }

/-- The one document of a text that has one. -/
def Document.ofString? (text : String) : Option Document :=
  if (load text).isWhole then some (load text).document else none

end FleetSharding.Yaml
