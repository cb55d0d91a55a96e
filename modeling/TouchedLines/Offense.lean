import TouchedLines.LineSet
import TouchedLines.Text.Lines

/-! # Offenses

An offense says which rule a place of a file breaks and how bad that is.
-/

namespace TouchedLines

/-- The linters of this library report warnings and errors; the other levels come from analyzers. -/
inductive Severity where
  | info
  | refactor
  | convention
  | warning
  | error
  | fatal
  deriving Repr, DecidableEq

namespace Severity

def name : Severity → String
  | info => "info"
  | refactor => "refactor"
  | convention => "convention"
  | warning => "warning"
  | error => "error"
  | fatal => "fatal"

/-- The capital letter that stands for the level in a text report. -/
def initial : Severity → Char
  | info => 'I'
  | refactor => 'R'
  | convention => 'C'
  | warning => 'W'
  | error => 'E'
  | fatal => 'F'

def all : List Severity := [info, refactor, convention, warning, error, fatal]

/-- The level that an analyzer names, in any case and between blanks; an unknown one is a
warning. -/
def ofReported (reported : String) : Severity :=
  let key := (Text.trim reported.toList).map Text.asciiLower
  (all.find? fun s => s.name.toList == key).getD warning

end Severity

/-- Line and column count from 1; the length is in characters. -/
structure Location where
  line : LineNumber
  column : UInt32
  length : UInt32
  deriving Repr, DecidableEq

/-- The place of an offense that concerns a whole line. -/
def Location.lineStart (line : LineNumber) : Location := ⟨line, 1, 0⟩

structure Offense where
  rule : String
  message : String
  severity : Severity
  /-- The name under which the rule is shown. -/
  cop : String
  /-- The text of the line, empty where the source of the offense does not give it. -/
  lineContent : String
  location : Location
  deriving Repr, DecidableEq

namespace Offense

def line (o : Offense) : LineNumber := o.location.line

/-- The offenses on a line of the set, in their order. -/
def restrict (offenses : List Offense) (lines : LineSet) : List Offense :=
  offenses.filter fun o => decide (o.line ∈ lines)

end Offense

end TouchedLines
