import TouchedLines.Script.Tables
import TouchedLines.Template

/-! # The linters of this library -/

namespace TouchedLines.Linter

/-- The linters in the order in which their rules are listed. -/
def builtin : List Linter := [Script.linter, Template.linter]

def ofCategory? : Category → Option Linter
  | .ruby => none
  | .javascript => some Script.linter
  | .erb => some Template.linter

end TouchedLines.Linter
