import TouchedLines.Json.Print
import TouchedLines.Linter.Basic

/-! # Listing the rules of linters -/

namespace TouchedLines

open Text Json

/-- A table under the category of its linter. -/
structure RuleListing where
  category : Category
  table : RuleTable

namespace RuleListing

def ofLinters (linters : List Linter) : List RuleListing :=
  linters.flatMap fun l => l.tables.map fun table => ⟨l.category, table⟩

/-- A text with blanks after it up to a width. -/
def padEnd (width : Nat) (text : List Char) : List Char :=
  text ++ List.replicate (width - text.length) ' '

def ruleLine (r : Rule) : Line :=
  "  ".toList ++ padEnd 22 r.id.toList ++ ' ' :: padEnd 8 r.severity.name.toList ++
    ' ' :: r.cop.toList ++ ": ".toList ++ r.message.toList

def lines (l : RuleListing) : List Line :=
  (l.category.name.toList ++ '/' :: l.table.name.toList) :: l.table.rules.map ruleLine

def renderText (listings : List RuleListing) : String :=
  String.ofList (terminateLines (listings.flatMap lines))

def ruleJson (r : Rule) : Json :=
  record [("id", Json.text r.id), ("cop_name", Json.text r.cop),
    ("severity", Json.text r.severity.name), ("pattern", Json.text r.criterion.describe),
    ("message", Json.text r.message)]

def toJson (l : RuleListing) : Json :=
  record [("category", Json.text l.category.name), ("table", Json.text l.table.name),
    ("rules", array (l.table.rules.map ruleJson))]

def renderJson (listings : List RuleListing) : String :=
  String.ofList (array (listings.map toJson)).pretty

end RuleListing

end TouchedLines
