import TouchedLines.Check
import TouchedLines.Text.Decimal

/-! # The text report

Each offense has a header with its place, the line of the file and a line that marks the place on
it.
-/

namespace TouchedLines

open Text

namespace Offense

/-- Where the offense is, how bad it is and what it is. -/
def header (path : String) (o : Offense) : Line :=
  path.toList ++ ':' :: Decimal.digits o.location.line.toNat ++
    ':' :: Decimal.digits o.location.column.toNat ++
    ": ".toList ++ o.severity.initial :: ": ".toList ++ o.cop.toList ++ ": ".toList ++
    o.message.toList

/-- Carets under the place of the offense. They reach one place beyond the end of the source line
at most; an offense of the first column has none. -/
def marker (source : Line) (l : Location) : Line :=
  if l.column.toNat ≤ 1 then []
  else
    let width := source.length + 1
    let pad := min (l.column.toNat - 1) width
    List.replicate pad ' ' ++ List.replicate (min l.length.toNat (width - pad)) '^'

/-- The lines that report an offense, those of its place only if the line of the file is known. -/
def render (path : String) (o : Offense) : Option Line → List Char
  | none => terminateLines [o.header path]
  | some source => terminateLines [o.header path, trimEnd source, marker source o.location]

def sourceLine? (lines : List Line) (n : LineNumber) : Option Line :=
  match n.toNat with
  | 0 => none
  | index + 1 => lines[index]?

end Offense

namespace Summary

def renderOutcome (o : Outcome) : List Char :=
  let lines := splitLines o.source.toList
  o.offenses.flatMap fun offense =>
    offense.render o.path (Offense.sourceLine? lines offense.line)

def renderText (s : Summary) : String := String.ofList (s.outcomes.flatMap renderOutcome)

end Summary

end TouchedLines
