import TouchedLines.Offense

/-! # External analyzers

An analyzer takes the path and the content of a file and answers with offenses, or fails.
-/

namespace TouchedLines

inductive AnalyzerError where
  | notStarted (command cause : String)
  | broken (command cause : String)
  | badReport (command cause : String)
  deriving Repr, DecidableEq

namespace AnalyzerError

def context : AnalyzerError → String
  | notStarted command _ => s!"failed to start `{command}`"
  | broken command _ => s!"failed to talk to `{command}`"
  | badReport command _ => s!"`{command}` did not produce a JSON report"

def cause : AnalyzerError → String
  | notStarted _ cause => cause
  | broken _ cause => cause
  | badReport _ cause => cause

def message (e : AnalyzerError) : String := e.context ++ ": " ++ e.cause

end AnalyzerError

structure AnalyzerCall where
  path : String
  content : String
  deriving Repr, DecidableEq

abbrev Analyzer := AnalyzerCall → Except AnalyzerError (List Offense)

end TouchedLines
