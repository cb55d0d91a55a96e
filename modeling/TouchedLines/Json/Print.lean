import TouchedLines.Json.Basic
import TouchedLines.Text.Decimal

/-! # Writing a JSON document

Parts stand on lines of their own, two spaces deeper than what holds them; an array or object
without parts is closed at once. Only quotes, backslashes and control characters are escaped.
-/

namespace TouchedLines.Json

open Text

/-- The digit of a hexadecimal place, in lower case. -/
def hexDigit (n : Nat) : Char :=
  if n % 16 < 10 then Decimal.digit (n % 16) else Char.ofNat ('a'.toNat + (n % 16 - 10))

def escape (c : Char) : List Char :=
  if c = '"' then ['\\', '"']
  else if c = '\\' then ['\\', '\\']
  else if c = '\x08' then ['\\', 'b']
  else if c = '\x0c' then ['\\', 'f']
  else if c = '\n' then ['\\', 'n']
  else if c = '\r' then ['\\', 'r']
  else if c = '\t' then ['\\', 't']
  else if c < ' ' then ['\\', 'u', '0', '0', hexDigit (c.toNat / 16), hexDigit c.toNat]
  else [c]

/-- A string in quotes. Half of a surrogate pair alone stands for a string that is no text. -/
def quote : Option String → List Char
  | some text => '"' :: text.toList.flatMap escape ++ ['"']
  | none => '"' :: "\\ud800".toList ++ ['"']

def Atom.render : Atom → List Char
  | .null => "null".toList
  | .bool true => "true".toList
  | .bool false => "false".toList
  | .natural n => Decimal.digits n
  | .number literal => literal.toList
  | .string text => quote text

/-- The start of a line inside `depth` arrays and objects. -/
def lineStart (depth : Nat) : List Char := '\n' :: List.replicate (2 * depth) ' '

mutual

/-- A value inside `depth` arrays and objects. -/
def prettyAt (depth : Nat) : Json → List Char
  | .atom a => a.render
  | .array [] => ['[', ']']
  | .array (item :: items) =>
    '[' :: lineStart (depth + 1) ++ prettyAt (depth + 1) item ++ prettyItems (depth + 1) items ++
      lineStart depth ++ [']']
  | .object [] => ['\x7b', '\x7d']
  | .object ((key, v) :: members) =>
    '\x7b' :: lineStart (depth + 1) ++ quote key ++ ':' :: ' ' :: prettyAt (depth + 1) v ++
      prettyMembers (depth + 1) members ++ lineStart depth ++ ['\x7d']

def prettyItems (depth : Nat) : List Json → List Char
  | [] => []
  | item :: items => ',' :: lineStart depth ++ prettyAt depth item ++ prettyItems depth items

def prettyMembers (depth : Nat) : List (Option String × Json) → List Char
  | [] => []
  | (key, v) :: members =>
    ',' :: lineStart depth ++ quote key ++ ':' :: ' ' :: prettyAt depth v ++
      prettyMembers depth members

end

/-- The document that spells a value, without a newline at its end. -/
def pretty (v : Json) : List Char := prettyAt 0 v

end TouchedLines.Json
