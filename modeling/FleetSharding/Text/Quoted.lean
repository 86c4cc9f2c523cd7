import FleetSharding.Text.Graphic

/-!
# Quoted text

A text between quotes, as it is shown to people: the quote, the backslash and a few control
characters get a backslash and a letter, and whatever else is not graphic is given by its code
point.
-/

namespace FleetSharding.Text

/-- The code point of a character between braces. -/
def codeEscape (c : Char) : List Char :=
  ['\\', 'u', '\x7b'] ++ Nat.toDigits 16 c.toNat ++ ['\x7d']

def quoteChar (c : Char) : List Char :=
  if c = '"' then ['\\', '"']
  else if c = '\\' then ['\\', '\\']
  else if c = '\n' then ['\\', 'n']
  else if c = '\r' then ['\\', 'r']
  else if c = '\t' then ['\\', 't']
  else if c = '\x00' then ['\\', '0']
  else if isGraphic c then [c]
  else codeEscape c

def quoted (s : String) : String :=
  String.ofList ('"' :: s.toList.flatMap quoteChar ++ ['"'])

/-- Quoted texts in brackets. -/
def quotedList (ss : List String) : String :=
  "[" ++ ", ".intercalate (ss.map quoted) ++ "]"

example : quoted "a\"b\u0007" = "\"a\\\"b\\u\x7b7\x7d\"" := by decide +kernel

end FleetSharding.Text
