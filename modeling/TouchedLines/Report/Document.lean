import TouchedLines.Check
import TouchedLines.Json.Print

/-! # The JSON report -/

namespace TouchedLines

open Json

def Location.toJson (l : Location) : Json :=
  record [("line", natural l.line.toNat), ("column", natural l.column.toNat),
    ("length", natural l.length.toNat)]

/-- The line of the offense is a member only where the offense has one. -/
def Offense.toJson (o : Offense) : Json :=
  record <|
    [("rule", text o.rule), ("message", text o.message), ("severity", text o.severity.name),
      ("cop_name", text o.cop)] ++
    (if o.lineContent.isEmpty then [] else [("line_content", text o.lineContent)]) ++
    [("location", o.location.toJson)]

def Outcome.toJson (o : Outcome) : Json :=
  record <|
    [("path", text o.path), ("offenses", array (o.offenses.map Offense.toJson))] ++
    (o.analyzerError.toList.map fun e => ("error", text e))

namespace Summary

def toJson (s : Summary) : Json :=
  record [("files", array (s.outcomes.map Outcome.toJson)),
    ("summary", record [("files_checked", natural s.checked), ("files_failed", natural s.failed),
      ("offenses", natural s.offenseCount)])]

def renderJson (s : Summary) : String := String.ofList s.toJson.pretty

end Summary

end TouchedLines
