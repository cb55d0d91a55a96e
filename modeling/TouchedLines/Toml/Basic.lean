import TouchedLines.Text.Lines

/-! # TOML values and how to read one

A reader takes something from the start of a text and gives what is left. What a reader is for is
often not asked of a value: of numbers and dates only that they are there is kept.
-/

namespace TouchedLines

inductive Toml where
  | string (s : String)
  | boolean (b : Bool)
  | number
  | date
  | array (items : List Toml)
  | table (entries : List (String × Toml))
  deriving Repr

/-- Takes something from the start of a text. -/
abbrev Reader (α : Type) := List Char → Option (α × List Char)

namespace Reader

/-- Reads things until one says that it is the last. A thing before the last takes at least one
character. -/
def repeatWhile {α : Type} (read : Reader (α × Bool)) (text : List Char) :
    Option (List α × List Char) :=
  match read text with
  | none => none
  | some ((a, goesOn), rest) =>
    if !goesOn then some ([a], rest)
    else if rest.length < text.length then
      (repeatWhile read rest).map fun (later, rest) => (a :: later, rest)
    else none
termination_by text.length

end Reader

namespace Toml

open Text

def isSpace (c : Char) : Bool := c == ' ' || c == '\t'

/-- A character that may stand in a line: a tab, and every character but the control characters of
ASCII. -/
def isLineCharacter (c : Char) : Bool := c == '\t' || (decide (' ' ≤ c) && c != '\x7f')

def skipSpaces (text : List Char) : List Char := text.dropWhile isSpace

def newline? : List Char → Option (List Char)
  | '\n' :: rest => some rest
  | '\r' :: '\n' :: rest => some rest
  | _ => none

/-- What follows a comment, if there is one. -/
def skipComment : List Char → List Char
  | '#' :: rest => rest.dropWhile isLineCharacter
  | text => text

/-- What follows the end of a line on which nothing but blanks and a comment is left. -/
def endOfLine? (text : List Char) : Option (List Char) :=
  match skipComment (skipSpaces text) with
  | [] => some []
  | rest => newline? rest

/-- What follows blanks, line breaks and comments. -/
def skipLayout (inComment : Bool) : List Char → List Char
  | [] => []
  | '\r' :: '\n' :: rest => skipLayout false rest
  | c :: rest =>
    if c = '\n' then skipLayout false rest
    else if inComment then if isLineCharacter c then skipLayout true rest else c :: rest
    else if c = '#' then skipLayout true rest
    else if isSpace c then skipLayout false rest
    else c :: rest

end Toml

end TouchedLines
