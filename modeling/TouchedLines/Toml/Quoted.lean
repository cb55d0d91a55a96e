import TouchedLines.Json.Token
import TouchedLines.Toml.Basic

/-! # Quoted texts

Double quotes allow escapes, single quotes do not. Three quotes start a text of several lines; up to
two quotes may stand directly in front of the three that end it. A line break in it is a newline
however it is written.
-/

namespace TouchedLines.Toml

open Text

def hexNumber? (digits : List Char) : Option Nat :=
  digits.foldl (fun n c => n.bind fun n => (Json.hexValue? c).map (16 * n + ·)) (some 0)

/-- The character with a number, if there is one. -/
def scalar? (n : Nat) : Option Char := if n.isValidChar then some (Char.ofNat n) else none

def escapedScalar? (digits : List Char) : Option Char := (hexNumber? digits).bind scalar?

def escaped? : Char → Option Char
  | 'b' => some '\x08'
  | 't' => some '\t'
  | 'n' => some '\n'
  | 'f' => some '\x0c'
  | 'r' => some '\r'
  | '"' => some '"'
  | '\\' => some '\\'
  | _ => none

def consChar (c : Char) (read : Option (List Char × List Char)) : Option (List Char × List Char) :=
  read.map fun (text, rest) => (c :: text, rest)

/-- A text up to the double quote that ends it. -/
def readEscaped : Reader (List Char)
  | [] => none
  | '"' :: rest => some ([], rest)
  | '\\' :: 'u' :: a :: b :: c :: d :: rest =>
    (escapedScalar? [a, b, c, d]).bind fun x => consChar x (readEscaped rest)
  | '\\' :: 'U' :: a :: b :: c :: d :: e :: f :: g :: h :: rest =>
    (escapedScalar? [a, b, c, d, e, f, g, h]).bind fun x => consChar x (readEscaped rest)
  | '\\' :: c :: rest => (escaped? c).bind fun x => consChar x (readEscaped rest)
  | c :: rest => if isLineCharacter c then consChar c (readEscaped rest) else none

/-- A text up to the single quote that ends it. -/
def readLiteral : Reader (List Char)
  | [] => none
  | '\'' :: rest => some ([], rest)
  | c :: rest => if isLineCharacter c then consChar c (readLiteral rest) else none

/-- Where in a text of several lines a backslash joins two of them. -/
inductive Joint where
  | none
  /-- After the backslash, on the way to the end of the line. -/
  | opened
  /-- On the way to the next character that is no blank. -/
  | crossed
  deriving DecidableEq

/-- A text of several lines up to the three double quotes that end it. -/
def readEscapedLines : Joint → Reader (List Char)
  | _, [] => Option.none
  | .opened, '\n' :: rest => readEscapedLines .crossed rest
  | .opened, '\r' :: '\n' :: rest => readEscapedLines .crossed rest
  | .opened, c :: rest => if isSpace c then readEscapedLines .opened rest else Option.none
  | .crossed, ' ' :: rest => readEscapedLines .crossed rest
  | .crossed, '\t' :: rest => readEscapedLines .crossed rest
  | .crossed, '\n' :: rest => readEscapedLines .crossed rest
  | .crossed, '\r' :: '\n' :: rest => readEscapedLines .crossed rest
  | _, '"' :: '"' :: '"' :: '"' :: '"' :: rest => some (['"', '"'], rest)
  | _, '"' :: '"' :: '"' :: '"' :: rest => some (['"'], rest)
  | _, '"' :: '"' :: '"' :: rest => some ([], rest)
  | _, '\r' :: '\n' :: rest => consChar '\n' (readEscapedLines .none rest)
  | _, '\\' :: 'u' :: a :: b :: c :: d :: rest =>
    (escapedScalar? [a, b, c, d]).bind fun x => consChar x (readEscapedLines .none rest)
  | _, '\\' :: 'U' :: a :: b :: c :: d :: e :: f :: g :: h :: rest =>
    (escapedScalar? [a, b, c, d, e, f, g, h]).bind fun x =>
      consChar x (readEscapedLines .none rest)
  | _, '\\' :: c :: rest =>
    match escaped? c with
    | some x => consChar x (readEscapedLines .none rest)
    | Option.none =>
      if isSpace c then readEscapedLines .opened rest
      else if c = '\n' then readEscapedLines .crossed rest
      else if c = '\r' then
        match rest with
        | '\n' :: rest => readEscapedLines .crossed rest
        | _ => Option.none
      else Option.none
  | _, c :: rest =>
    if c = '\n' || isLineCharacter c then consChar c (readEscapedLines .none rest)
    else Option.none

/-- A text of several lines up to the three single quotes that end it. -/
def readLiteralLines : Reader (List Char)
  | [] => none
  | '\'' :: '\'' :: '\'' :: '\'' :: '\'' :: rest => some (['\'', '\''], rest)
  | '\'' :: '\'' :: '\'' :: '\'' :: rest => some (['\''], rest)
  | '\'' :: '\'' :: '\'' :: rest => some ([], rest)
  | '\r' :: '\n' :: rest => consChar '\n' (readLiteralLines rest)
  | c :: rest =>
    if c = '\n' || isLineCharacter c then consChar c (readLiteralLines rest) else none

/-- A text of one line in quotes of either kind. -/
def readQuoted : Reader (List Char)
  | '"' :: rest => readEscaped rest
  | '\'' :: rest => readLiteral rest
  | _ => none

/-- A text in quotes. A line break directly after three quotes is not part of it. -/
def readText : Reader (List Char)
  | '"' :: '"' :: '"' :: rest => readEscapedLines .none ((newline? rest).getD rest)
  | '\'' :: '\'' :: '\'' :: rest => readLiteralLines ((newline? rest).getD rest)
  | text => readQuoted text

end TouchedLines.Toml
