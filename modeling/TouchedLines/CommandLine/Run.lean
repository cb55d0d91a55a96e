import TouchedLines.CommandLine.Arguments
import TouchedLines.Config.Load
import TouchedLines.Report.Document
import TouchedLines.Report.Rules
import TouchedLines.Report.Text
import TouchedLines.Vcs.Changes
import TouchedLines.Vcs.Git

/-! # Running a command

A run sees files, the environment, programs and the clock. It writes a report and ends with an exit
code: 0 if all is well, 1 if a file failed, 2 if the run could not take place. Nothing is written
and no program is started before the configuration is known to be good. The words of the readers of
arguments and of documents are not decided here: a run takes them as they are given.
-/

namespace TouchedLines

open Text

/-- What is said in the words of a reader. -/
structure Wording where
  /-- Of a text that is no report. -/
  report : List Char → String := fun _ => ""
  /-- Of the file at a path, which is no configuration. -/
  config : String → String := fun _ => ""
  /-- Of arguments that are misused. -/
  misuse : List String → String := fun _ => ""
  help : HelpTopic → String := fun _ => ""

structure World where
  files : Files
  env : Environment
  programs : Programs
  clock : String
  wording : Wording := {}

inductive Failure where
  | usage
  | config (e : ConfigError)
  | exclusion (e : ExclusionError)
  deriving Repr, DecidableEq

namespace Failure

/-- Puts blanks in front of every line of a text but the first. -/
def indentRest (width : Nat) (text : List Char) : List Char :=
  text.flatMap fun c => if c = '\n' then '\n' :: List.replicate width ' ' else [c]

/-- A cause among several, with its number. -/
def numbered (index : Nat) (cause : String) : List Char :=
  "    ".toList ++ Decimal.digits index ++ ": ".toList ++ indentRest 7 cause.toList

def causeLines : List String → List (List Char)
  | [] => []
  | [cause] => ["    ".toList ++ indentRest 4 cause.toList]
  | causes => causes.zipIdx.map fun (cause, index) => numbered index cause

/-- What could not be done, then what stood in the way, outermost first. -/
def explain (context : String) (causes : List String) : String :=
  String.ofList (joinLines
    (("touchlint: " ++ context).toList :: [] :: "Caused by:".toList :: causeLines causes))

/-- What is said of the failure of a run with some arguments. -/
def message (f : Failure) (wording : Wording := {}) (arguments : List String := []) : String :=
  match f with
  | usage => wording.misuse arguments
  | config e => explain e.context [e.cause wording.config]
  | exclusion e => explain "compile exclude globs" [e.message, e.cause]

end Failure

structure RunResult where
  exitCode : Nat
  output : String
  failure : Option Failure
  /-- The programs that were run, in order. -/
  runs : List Invocation

namespace RunResult

def failed (f : Failure) : RunResult := ⟨2, "", some f, []⟩

end RunResult

def baseVariable : String := "TOUCHLINT_BASE"

/-- What a check has done: the questions about changes, the files given to the analyzer, and the
outcomes. -/
structure CheckTrace where
  queries : List Query
  calls : List AnalyzerCall
  summary : Summary

namespace CheckRequest

/-- The base that the command line, the environment or the configuration gives. -/
def effectiveBase? (r : CheckRequest) (env : Environment) (config : Config) : Option String :=
  Base.effective? [r.base, env baseVariable, config.defaults.base]

def effectiveFormat (r : CheckRequest) (config : Config) : ReportFormat :=
  (r.format.orElse fun _ => config.defaults.format).getD .text

/-- Checks what is listed, or else what has changed. -/
def perform (r : CheckRequest) (w : World) (config : Config) (exclusion : Exclusion) :
    CheckTrace :=
  let settings := config.analyzer
  let checker : Checker := {
    files := w.files
    exclusion := exclusion
    analyzer :=
      if settings.enabled then
        some fun call => settings.command.analyzer w.programs call w.wording.report
      else none }
  if r.files.isEmpty then
    let changes := ChangeSet.resolve (Git.vcs w.programs) (r.effectiveBase? w.env config)
      (r.staged || config.defaults.staged)
    let checked := checker.run changes.value
    ⟨changes.events, checked.events, checked.value⟩
  else
    let checked := checker.runPaths r.files
    ⟨[], checked.events, checked.value⟩

end CheckRequest

namespace CheckTrace

def runs (t : CheckTrace) (w : World) (config : Config) : List Invocation :=
  Git.runs w.programs t.queries ++ config.analyzer.command.runs w.programs t.calls

def startLine (w : World) : String := "[START] " ++ w.clock ++ "\n"

/-- The last line of a text report without a failed file. -/
def allWell : String := "touchlint: All OK - No violations found\n"

def report (t : CheckTrace) (w : World) : ReportFormat → String
  | .text =>
    startLine w ++ t.summary.renderText ++ (if t.summary.exitCode = 0 then allWell else "")
  | .json => t.summary.renderJson ++ "\n"

end CheckTrace

namespace CheckRequest

def runWith (r : CheckRequest) (w : World) (config : Config) : RunResult :=
  match Exclusion.ofGlobs config.exclude with
  | .error e => .failed (.exclusion e)
  | .ok exclusion =>
    let trace := r.perform w config exclusion
    { exitCode := trace.summary.exitCode
      output := trace.report w (r.effectiveFormat config)
      failure := none
      runs := trace.runs w config }

def run (r : CheckRequest) (w : World) : RunResult :=
  match Config.load w.files w.env r.config with
  | .error e => .failed (.config e)
  | .ok config => r.runWith w config

end CheckRequest

namespace Command

def run (w : World) : Command → RunResult
  | .check request => request.run w
  | .rules format =>
    let listings := RuleListing.ofLinters Linter.builtin
    let output := match format with
      | .text => RuleListing.renderText listings
      | .json => RuleListing.renderJson listings ++ "\n"
    ⟨0, output, none, []⟩
  | .help topic => ⟨0, w.wording.help topic, none, []⟩

end Command

def runArguments (w : World) (arguments : List String) : RunResult :=
  match Command.ofArguments? arguments with
  | none => .failed .usage
  | some command => command.run w

end TouchedLines
