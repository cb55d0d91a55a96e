import TouchedLines.Analyzer.Basic
import TouchedLines.ChangeSet
import TouchedLines.Exclusion
import TouchedLines.Files
import TouchedLines.Linter.Builtin
import TouchedLines.Traced

/-! # Checking changed files

Each change of a set is checked on its own. A change without an outcome is passed over: its path is
excluded, its file cannot be read, it touches no line, or nothing can check its category.
-/

namespace TouchedLines

structure Outcome where
  path : String
  /-- The content that was checked. -/
  source : String
  offenses : List Offense
  analyzerError : Option String
  deriving Repr, DecidableEq

def Outcome.failed (o : Outcome) : Bool := !o.offenses.isEmpty || o.analyzerError.isSome

/-- The outcomes of a run, in the order of the changes. -/
structure Summary where
  outcomes : List Outcome
  deriving Repr, DecidableEq

namespace Summary

def checked (s : Summary) : Nat := s.outcomes.length

def failed (s : Summary) : Nat := (s.outcomes.filter Outcome.failed).length

def offenseCount (s : Summary) : Nat := (s.outcomes.flatMap Outcome.offenses).length

/-- 1 if a file failed, else 0. -/
def exitCode (s : Summary) : Nat := if s.failed = 0 then 0 else 1

end Summary

structure Checker where
  files : Files
  exclusion : Exclusion := .none
  /-- Ruby files are passed over without one. -/
  analyzer : Option Analyzer := none

namespace Checker

/-- The outcome that an answer of the analyzer leads to. -/
def outcomeOf (path source : String) (lines : Option LineSet) :
    Except AnalyzerError (List Offense) → Outcome
  | .error e => ⟨path, source, [], some e.message⟩
  | .ok offenses =>
    ⟨path, source, match lines with
      | none => offenses
      | some lines => Offense.restrict offenses lines, none⟩

/-- Checks a file that can be read, on some lines or as a whole. -/
def checkSource (k : Checker) (path source : String) (category : Category)
    (lines : Option LineSet) : Traced AnalyzerCall (Option Outcome) :=
  match Linter.ofCategory? category with
  | some linter => pure (some ⟨path, source, linter.lint source lines, none⟩)
  | none =>
    match k.analyzer with
    | none => pure none
    | some analyzer =>
      let call : AnalyzerCall := ⟨path, source⟩
      .one call (some (outcomeOf path source lines (analyzer call)))

/-- The lines on which a change asks for a check; `none` for the whole file. -/
def scopeOf (c : Change) : Option LineSet :=
  match c.kind with
  | .new => none
  | .modified => c.lines

/-- A modified file of which no line is touched. -/
def touchesNothing (c : Change) : Bool := (scopeOf c).any (·.isEmpty)

def checkChange (k : Checker) (c : Change) : Traced AnalyzerCall (Option Outcome) :=
  if k.exclusion.excludes c.path then pure none
  else
    match k.files.readText? c.path with
    | none => pure none
    | some source =>
      if touchesNothing c then pure none else k.checkSource c.path source c.category (scopeOf c)

def checkAll (k : Checker) : List Change → Traced AnalyzerCall (List Outcome)
  | [] => pure []
  | c :: changes => do
    let outcome ← k.checkChange c
    let outcomes ← checkAll k changes
    return outcome.toList ++ outcomes

def run (k : Checker) (set : ChangeSet) : Traced AnalyzerCall Summary := do
  return ⟨← k.checkAll set.changes⟩

/-- The file at a path as a new one, if it is a file of a supported category. -/
def listed? (files : Files) (path : String) : Option Change :=
  match Category.ofPath? path with
  | none => none
  | some category => if files.isFile path then some (.newFile path category) else none

/-- Checks files in full that are listed by their paths. -/
def runPaths (k : Checker) (paths : List String) : Traced AnalyzerCall Summary :=
  k.run (.ofList (paths.filterMap (listed? k.files)))

end Checker

end TouchedLines
