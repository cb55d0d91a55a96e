import TouchedLines.Category
import TouchedLines.Linter.Layout
import TouchedLines.Rule.Basic

/-! # Linters

A linter is a list of rule tables and a condition under which they do not see a line at all. A full
scan looks at every line and at the end of the file; a filtered scan follows a set of line numbers
and looks at those lines only.
-/

namespace TouchedLines

open Text

structure Linter where
  category : Category
  /-- The tables in order of precedence. -/
  tables : List RuleTable
  /-- Lines that no table is asked about. -/
  skips : LineView → Bool

namespace Linter

/-- The offense that the tables see in a line. -/
def tableOffense (l : Linter) (n : LineNumber) (v : LineView) : Option Offense :=
  if l.skips v then none else (firstMatch l.tables v).map (·.offense n v.line)

/-- The offenses of one line: at most one of the tables, then a trailing space. -/
def inspect (l : Linter) (n : LineNumber) (v : LineView) : List Offense :=
  (l.tableOffense n v).toList ++ (Layout.trailingWhitespace n v.line).toList

/-- The offenses of all lines, of which the first has the number `index + 1`. -/
def scanAll (l : Linter) (index : Nat) : List LineView → List Offense
  | [] => []
  | v :: views => l.inspect (UInt32.ofNat (index + 1)) v ++ scanAll l (index + 1) views

/-- Lints every line, then the end of the file. -/
def lintFull (l : Linter) (content : String) : List Offense :=
  l.scanAll 0 (LineView.views (splitLines content.toList)) ++
    (Layout.missingFinalNewline content.toList).toList

/-- The offenses of the line with number `n`, if there is one. -/
def inspectNumbered (l : Linter) (views : List LineView) (n : LineNumber) : List Offense :=
  match n.toNat with
  | 0 => []
  | index + 1 =>
    match views[index]? with
    | none => []
    | some v => l.inspect n v

/-- Lints the lines of a set, from its smallest member until it leaves the file. -/
def lintFiltered (l : Linter) (content : String) (lines : LineSet) : List Offense :=
  let views := LineView.views (splitLines content.toList)
  (lines.toList.takeWhile fun n => decide (n.toNat ≤ views.length)).flatMap
    (l.inspectNumbered views)

/-- Lints the lines of a set, or the whole file if none is given. -/
def lint (l : Linter) (content : String) : Option LineSet → List Offense
  | none => l.lintFull content
  | some lines => l.lintFiltered content lines

end Linter

end TouchedLines
