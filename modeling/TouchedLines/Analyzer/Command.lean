import TouchedLines.Analyzer.Basic
import TouchedLines.Analyzer.Report
import TouchedLines.Program
import TouchedLines.Text.Utf8

/-! # Analyzers that are commands

The command gets the path as its last argument and the content as its input. Its report decides,
whether it reports success or not.
-/

namespace TouchedLines

open Text

structure AnalyzerCommand where
  program : String
  /-- The arguments in front of the path. -/
  arguments : List String
  deriving Repr, DecidableEq

namespace AnalyzerCommand

def describe (c : AnalyzerCommand) : String := " ".intercalate (c.program :: c.arguments)

def invocation (c : AnalyzerCommand) (call : AnalyzerCall) : Invocation :=
  ⟨c.program, c.arguments ++ [call.path], call.content⟩

/-- The answer of the command; `tell` has the words for a text that is no report. -/
def analyzer (c : AnalyzerCommand) (programs : Programs) (call : AnalyzerCall)
    (tell : List Char → String := fun _ => "") : Except AnalyzerError (List Offense) :=
  match programs.run (c.invocation call) with
  | .error e => .error (.notStarted c.describe e.message)
  | .ok output =>
    match Report.read (Utf8.decodeLossy output.bytes) with
    | .error fault => .error (.badReport c.describe (fault.message tell))
    | .ok offenses => .ok offenses

def runs (c : AnalyzerCommand) (programs : Programs) (calls : List AnalyzerCall) :
    List Invocation :=
  (calls.map c.invocation).filter programs.starts

theorem program_of_mem_runs {c : AnalyzerCommand} {programs : Programs} {calls : List AnalyzerCall}
    {i : Invocation} (h : i ∈ c.runs programs calls) : i.program = c.program := by
  obtain ⟨call, _, rfl⟩ := List.mem_map.mp (List.mem_filter.mp h).1
  rfl

end AnalyzerCommand

end TouchedLines
