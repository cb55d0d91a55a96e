import TouchedLines.Analyzer.Command
import TouchedLines.Toml.Document

/-! # Configuration

A configuration is read from the table of a TOML document. A key that is missing has its default, an
unknown one says nothing. A section may be spelled as the array of its settings in order.
-/

namespace TouchedLines

inductive ReportFormat where
  | text
  | json
  deriving Repr, DecidableEq

namespace ReportFormat

def name : ReportFormat → String
  | text => "text"
  | json => "json"

def all : List ReportFormat := [text, json]

def ofName? (name : String) : Option ReportFormat := all.find? fun f => f.name == name

end ReportFormat

structure Defaults where
  base : Option String := none
  staged : Bool := false
  format : Option ReportFormat := none
  deriving Repr, DecidableEq

structure AnalyzerSettings where
  enabled : Bool := true
  command : AnalyzerCommand := ⟨"rubocop", ["--format", "json", "--force-exclusion", "--stdin"]⟩
  deriving Repr, DecidableEq

structure Config where
  exclude : List String := []
  defaults : Defaults := {}
  analyzer : AnalyzerSettings := {}
  deriving Repr, DecidableEq

namespace Toml

/-- The values of the named settings of a section. A date counts as a section with none of them. -/
def settings? (names : List String) : Toml → Option (List (Option Toml))
  | .table entries => some (names.map fun name => entries.lookup name)
  | .array items => some (names.zipIdx.map fun (_, i) => items[i]?)
  | .date => some (names.map fun _ => none)
  | _ => none

def string? : Toml → Option String
  | .string s => some s
  | _ => none

def boolean? : Toml → Option Bool
  | .boolean b => some b
  | _ => none

def strings? : Toml → Option (List String)
  | .array items => items.mapM string?
  | _ => none

def isEmptyPart : Toml → Bool
  | .array items => items.isEmpty
  | .table entries => entries.isEmpty
  | _ => false

/-- A format by its name, alone or as the one key of a table with nothing under it. -/
def format? : Toml → Option ReportFormat
  | .string name => ReportFormat.ofName? name
  | .table [(name, v)] => if v.isEmptyPart then ReportFormat.ofName? name else none
  | _ => none

def settingOr {α : Type} (read : Toml → Option α) (default : α) : Option Toml → Option α
  | none => some default
  | some v => read v

def optional? {α : Type} (read : Toml → Option α) : Option Toml → Option (Option α)
  | none => some none
  | some v => (read v).map some

end Toml

namespace Config

open Toml

def defaults? (v : Toml) : Option Defaults :=
  match v.settings? ["base", "staged", "format"] with
  | some [base, staged, format] => do
    return {
      base := ← optional? string? base
      staged := ← settingOr boolean? false staged
      format := ← optional? format? format }
  | _ => none

def analyzer? (v : Toml) : Option AnalyzerSettings :=
  let standard : AnalyzerSettings := {}
  match v.settings? ["enabled", "command", "args"] with
  | some [enabled, command, arguments] => do
    let enabled ← settingOr boolean? standard.enabled enabled
    let program ← settingOr string? standard.command.program command
    let arguments ← settingOr strings? standard.command.arguments arguments
    return ⟨enabled, program, arguments⟩
  | _ => none

def ofToml? (v : Toml) : Option Config :=
  match v.settings? ["exclude", "defaults", "analyzer"] with
  | some [exclude, defaults, analyzer] => do
    return {
      exclude := ← settingOr strings? [] exclude
      defaults := ← settingOr defaults? {} defaults
      analyzer := ← settingOr analyzer? {} analyzer }
  | _ => none

def ofText? (text : List Char) : Option Config := (Toml.ofText? text).bind ofToml?

end Config

end TouchedLines
