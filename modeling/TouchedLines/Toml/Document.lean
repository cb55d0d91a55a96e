import TouchedLines.Toml.Quoted
import TouchedLines.Toml.Scalar
import TouchedLines.Toml.Table

/-! # Reading a TOML document

A document is read as a list of statements; the tables are made from them afterwards. Arrays and
inline tables may be nested up to a limit, and a key has a limited number of parts.
-/

namespace TouchedLines.Toml

open Text

/-- Neither so many arrays and inline tables inside each other, nor so many parts of a key. -/
def nestingLimit : Nat := 80

/-- A character of a key without quotes. -/
def isKeyCharacter (c : Char) : Bool := isAsciiWord c || c == '-'

def readKeyPart (text : List Char) : Option (String × List Char) :=
  match text.head? with
  | none => none
  | some c =>
    if c = '"' ∨ c = '\'' then (readQuoted text).map fun (key, rest) => (String.ofList key, rest)
    else if isKeyCharacter c then
      some (String.ofList (text.takeWhile isKeyCharacter), text.dropWhile isKeyCharacter)
    else none

/-- A part of a key between blanks, and whether a dot comes after it. -/
def readKeyStep (text : List Char) : Option ((String × Bool) × List Char) :=
  match readKeyPart (skipSpaces text) with
  | none => none
  | some (part, rest) =>
    match skipSpaces rest with
    | '.' :: rest => some ((part, true), rest)
    | rest => some ((part, false), rest)

/-- The parts of a key, with the blanks around them. -/
def readKey (text : List Char) : Option (List String × List Char) :=
  match Reader.repeatWhile readKeyStep text with
  | some (parts, rest) => if parts.length < nestingLimit then some (parts, rest) else none
  | none => none

/-- A key with its value: the parts in front of the last dot, the last part and the value. -/
structure Assignment where
  path : List String
  key : String
  value : Toml

def readAssignment (value : Reader Toml) (text : List Char) : Option (Assignment × List Char) :=
  match readKey text with
  | some (parts, '=' :: rest) =>
    match parts.getLast?, value (skipSpaces rest) with
    | some key, some (v, rest) => some (⟨parts.dropLast, key, v⟩, rest)
    | _, _ => none
  | _ => none

/-- An item of an array and whether there may be more, or the end of the array. -/
def readItem (value : Reader Toml) (text : List Char) : Option ((Option Toml × Bool) × List Char) :=
  match skipLayout false text with
  | ']' :: rest => some ((none, false), rest)
  | text =>
    match value text with
    | none => none
    | some (v, rest) =>
      match skipLayout false rest with
      | ',' :: rest => some ((some v, true), rest)
      | ']' :: rest => some ((some v, false), rest)
      | _ => none

/-- A member of an inline table and whether more are to come. -/
def readMember (value : Reader Toml) (text : List Char) :
    Option ((Assignment × Bool) × List Char) :=
  match readAssignment value text with
  | none => none
  | some (a, rest) =>
    match skipSpaces rest with
    | ',' :: rest => some ((a, true), rest)
    | '\x7d' :: rest => some ((a, false), rest)
    | _ => none

def tableOf? (assignments : List Assignment) : Option Toml :=
  (assignments.foldlM (fun (entries : Entries) a => entries.addDotted? a.path a.key a.value) []).map
    fun entries => .table (Entries.toToml entries)

/-- A value in which so many arrays and inline tables may be inside each other. -/
def readValue (nesting : Nat) (text : List Char) : Option (Toml × List Char) :=
  match nesting, text with
  | 0, '[' :: _ => none
  | 0, '\x7b' :: _ => none
  | n + 1, '[' :: rest =>
    (Reader.repeatWhile (readItem (readValue n)) rest).map fun (items, rest) =>
      (.array (items.filterMap id), rest)
  | n + 1, '\x7b' :: rest =>
    match skipSpaces rest with
    | '\x7d' :: rest => some (.table [], rest)
    | rest =>
      match Reader.repeatWhile (readMember (readValue n)) rest with
      | none => none
      | some (assignments, rest) => (tableOf? assignments).map fun v => (v, rest)
  | _, c :: rest =>
    if c = '"' ∨ c = '\'' then
      (readText (c :: rest)).map fun (s, rest) => (.string (String.ofList s), rest)
    else readBare (c :: rest)
  | _, [] => none

inductive Statement where
  | assignment (a : Assignment)
  | table (path : List String)
  | arrayTable (path : List String)

def readStatement : Reader Statement
  | '[' :: '[' :: rest =>
    match readKey rest with
    | some (path, ']' :: ']' :: rest) => some (.arrayTable path, rest)
    | _ => none
  | '[' :: rest =>
    match readKey rest with
    | some (path, ']' :: rest) => some (.table path, rest)
    | _ => none
  | text =>
    (readAssignment (readValue (nestingLimit - 1)) text).map fun (a, rest) => (.assignment a, rest)

/-- What stands on a line, if anything, and whether there may be more lines. -/
def readLine (text : List Char) : Option ((Option Statement × Bool) × List Char) :=
  match endOfLine? text with
  | some [] => some ((none, false), [])
  | some rest => some ((none, true), rest)
  | none =>
    match readStatement (skipSpaces text) with
    | none => none
    | some (s, rest) =>
      match endOfLine? rest with
      | none => none
      | some rest => some ((some s, !rest.isEmpty), rest)

/-- The statements of a document. A mark of the byte order at its start is passed over. -/
def statements? (text : List Char) : Option (List Statement) :=
  let text := match text with
    | '\ufeff' :: rest => rest
    | text => text
  (Reader.repeatWhile readLine text).map fun (lines, _) => lines.filterMap id

def Draft.take? (d : Draft) : Statement → Option Draft
  | .assignment a => d.add? a.path a.key a.value
  | .table path => d.openTable? path
  | .arrayTable path => d.openItem? path

/-- The table that a document describes, if the text is a document. -/
def ofText? (text : List Char) : Option Toml := do
  let draft ← (← statements? text).foldlM Draft.take? .empty
  return .table (Entries.toToml (← draft.close?))

end TouchedLines.Toml
