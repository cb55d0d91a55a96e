import TouchedLines.Pattern.Match
import TouchedLines.Text.Word

/-! # Default parameters

An equals sign in the parameter list of a function, an arrow function or a method. A method looks
like a statement such as `if (a = b) {`, so its name must not be a keyword of one.
-/

namespace TouchedLines.Script

open Text Pattern

def nameStart : CharClass :=
  .oneOf [.range 'a' 'z', .range 'A' 'Z', .char '_', .char '$']

/-- The ASCII characters with which a name goes on. -/
def nameRest : CharClass :=
  .oneOf [.range 'a' 'z', .range 'A' 'Z', .range '0' '9', .char '_', .char '$']

def blanks : Pattern := many .blank

/-- Any characters but the one given. -/
def without (c : Char) : Pattern := many (.noneOf [.char c])

def defaultList : Pattern := text "(" ++ (without ')' ++ (text "=" ++ (without ')' ++ text ")")))

def asyncWord : Pattern := optional (group (text "async" ++ atLeastOne .blank))

/-- `\b(?:async\s+)?function\b[^(]*\([^)]*=[^)]*\)` -/
def functionDefaults : Pattern :=
  boundary ++ (asyncWord ++ (text "function" ++ (boundary ++ (without '(' ++ defaultList))))

/-- `\b(?:async\s*)?\([^)]*=[^)]*\)\s*=>` -/
def arrowDefaults : Pattern :=
  boundary ++ (optional (group (text "async" ++ blanks)) ++
    (defaultList ++ (blanks ++ text "=>")))

/-- What stands between a method and the text before it. -/
def methodEdge : Pattern := group (either lineStart (either (one (.char '\x7b')) (one (.char ';'))))

def accessorName : Nat := 1

def methodName : Nat := 2

/-- The word `get`, or the word `set` with blanks after it. -/
def accessor : Pattern :=
  optional (capture accessorName (either (text "get") (text "set" ++ atLeastOne .blank)))

def method : Pattern :=
  capture methodName (one (.oneOf [.range 'A' 'Z', .range 'a' 'z', .char '_', .char '$']) ++
    many (.oneOf [.word, .char '$']))

/-- `(?:^|\{|;)\s*(?:async\s+)?(get|set\s+)?([A-Za-z_$][\w$]*)\s*\([^)]*=[^)]*\)\s*\{` -/
def methodDefaults : Pattern :=
  methodEdge ++ (blanks ++ (asyncWord ++ (accessor ++ (method ++ (blanks ++
    (defaultList ++ (blanks ++ one (.char '\x7b'))))))))

def listKeywords : List String := ["if", "for", "while", "switch", "catch"]

def isListKeyword (name : List Char) : Bool :=
  listKeywords.any fun keyword => startsWithWord name keyword.toList

/-- A match stands for a method if its name is no keyword or belongs to a `get`. -/
def isMethod (c : Cursor) : Bool :=
  c.captured? accessorName == some "get".toList ||
    !isListKeyword ((c.captured? methodName).getD [])

/-- Whether a search among the places finds a method. It takes the leftmost match; where that is a
statement, it goes on behind the start of the match. -/
def findsMethod (among : List Cursor) : Bool :=
  match h : methodDefaults.findAmong? among with
  | none => false
  | some (found, behind) =>
    have : behind.length < among.length := length_lt_of_findAmong? h
    isMethod found || findsMethod behind
termination_by among.length

def hasMethodDefaults (line : Line) : Bool := findsMethod (places line)

def hasDefaultParameters (line : Line) : Bool :=
  functionDefaults.isMatch line || arrowDefaults.isMatch line || hasMethodDefaults line

end TouchedLines.Script
