import TouchedLines.Text.Decimal
import TouchedLines.Text.Lines
import TouchedLines.Text.Utf8

/-! # Expanding references to the environment

A reference `${NAME}` stands for the value of a variable, `${NAME:-default}` for a default where the
variable is unset or empty. A text is cut at its references first; a value that is put in is never
looked at again.
-/

namespace TouchedLines

open Text

inductive Segment where
  | plain (text : List Char)
  /-- What stands between the braces of a reference. -/
  | reference (body : List Char)
  /-- A reference without a closing brace, up to the end of the text. -/
  | unclosed (body : List Char)
  deriving Repr, DecidableEq

namespace Segment

def opening : List Char := ['$', '\x7b']

def closing : List Char := ['\x7d']

/-- The text that a segment was cut from. -/
def source : Segment → List Char
  | plain text => text
  | reference body => opening ++ body ++ closing
  | unclosed body => opening ++ body

/-- The segments of a text, plain ones and references in turn. -/
def ofText (text : List Char) : List Segment :=
  match h : splitAtFirst opening text with
  | none => [plain text]
  | some (before, body) =>
    match h' : splitAtFirst closing body with
    | none => [plain before, unclosed body]
    | some (inside, rest) =>
      have : rest.length < text.length := by
        simp [eq_append_of_splitAtFirst h, eq_append_of_splitAtFirst h', opening, closing]
        omega
      plain before :: reference inside :: ofText rest
termination_by text.length

/-- Nothing of a text is lost in cutting it. -/
theorem flatMap_source_ofText (text : List Char) : (ofText text).flatMap source = text := by
  fun_induction ofText text with
  | case1 text h => simp [source]
  | case2 text before body h h' => simp [source, eq_append_of_splitAtFirst h]
  | case3 text before body h inside rest h' _ ih =>
    simp only [List.flatMap_cons, ih, source]
    rw [eq_append_of_splitAtFirst h, eq_append_of_splitAtFirst h']
    simp

end Segment

inductive ExpansionError where
  /-- The place counts the bytes before the reference; what follows its brace is shown in part. -/
  | unclosed (place : Nat) (body : List Char)
  | emptyName
  | badStart (name : List Char)
  | badCharacter (name : List Char) (c : Char)
  | unset (name : List Char)
  deriving Repr, DecidableEq

namespace ExpansionError

def shownLength : Nat := 20

def message : ExpansionError → String
  | unclosed place body =>
    "unclosed environment variable reference at byte " ++ String.ofList (Decimal.digits place) ++
      ": $\x7b" ++ String.ofList (body.take shownLength)
  | emptyName => "empty environment variable name in $\x7b\x7d"
  | badStart name =>
    "invalid environment variable name '" ++ String.ofList name ++
      "': must start with a letter or underscore"
  | badCharacter name c =>
    "invalid environment variable name '" ++ String.ofList name ++ "': contains '" ++
      String.ofList [c] ++ "'"
  | unset name =>
    "environment variable '" ++ String.ofList name ++ "' is not set; use $\x7b" ++
      String.ofList name ++ ":-default\x7d to provide a default"

end ExpansionError

abbrev Environment := String → Option String

namespace Expansion

/-- A name is a letter or underscore, then letters, digits and underscores, all of ASCII. -/
def checkName : List Char → Except ExpansionError Unit
  | [] => .error .emptyName
  | c :: cs =>
    if !(isAsciiLetter c || c == '_') then .error (.badStart (c :: cs))
    else
      match cs.find? fun d => !isAsciiWord d with
      | some d => .error (.badCharacter (c :: cs) d)
      | none => .ok ()

/-- The value of a variable; an empty one does not count where there is a default. -/
def valueOf (env : Environment) (name : List Char) :
    Option (List Char) → Except ExpansionError (List Char)
  | some default =>
    .ok (((env (String.ofList name)).filter fun value => !value.isEmpty).elim default String.toList)
  | none =>
    match env (String.ofList name) with
    | some value => .ok value.toList
    | none => .error (.unset name)

/-- The name in a reference and the default after it. -/
def splitReference (body : List Char) : List Char × Option (List Char) :=
  match splitAtFirst [':', '-'] body with
  | some (name, default) => (name, some default)
  | none => (body, none)

def resolve (env : Environment) (body : List Char) : Except ExpansionError (List Char) :=
  let (name, default) := splitReference body
  match checkName name with
  | .error e => .error e
  | .ok () => valueOf env name default

def segmentName? : Segment → Option String
  | .reference body => some (String.ofList (splitReference body).1)
  | _ => none

def names (text : List Char) : List String := (Segment.ofText text).filterMap segmentName?

/-- What segments stand for, of which the first begins after `place` bytes. -/
def expandFrom (env : Environment) (place : Nat) : List Segment → Except ExpansionError (List Char)
  | [] => .ok []
  | segment :: rest =>
    let next := place + Utf8.size segment.source
    match segment with
    | .plain text => (expandFrom env next rest).map (text ++ ·)
    | .unclosed body => .error (.unclosed place body)
    | .reference body =>
      match resolve env body with
      | .error e => .error e
      | .ok value => (expandFrom env next rest).map (value ++ ·)

end Expansion

/-- A text with all references expanded; the leftmost bad one is the error. -/
def expand (env : Environment) (text : List Char) : Except ExpansionError (List Char) :=
  Expansion.expandFrom env 0 (Segment.ofText text)

end TouchedLines
