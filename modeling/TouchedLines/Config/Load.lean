import TouchedLines.Config.Basic
import TouchedLines.Config.Expansion
import TouchedLines.Files

/-! # Loading a configuration

The file is read, the references in its text are expanded, and the result is read as a
configuration. Each step can fail.
-/

namespace TouchedLines

open Text

inductive ConfigFault where
  | unreadable (e : FileError)
  | notText
  | expansion (e : ExpansionError)
  | notConfig
  deriving Repr, DecidableEq

structure ConfigError where
  path : String
  fault : ConfigFault
  deriving Repr, DecidableEq

namespace ConfigError

/-- What was being done. -/
def context (e : ConfigError) : String :=
  let verb := match e.fault with
    | .unreadable _ => "read"
    | .notText => "read"
    | .expansion _ => "expand"
    | .notConfig => "parse"
  verb ++ " config '" ++ e.path ++ "'"

/-- What stood in the way. Of the file at a path that is no configuration `tell` has the words. -/
def cause (e : ConfigError) (tell : String → String) : String :=
  match e.fault with
  | .unreadable e => e.message
  | .notText => "stream did not contain valid UTF-8"
  | .expansion e => e.message
  | .notConfig => tell e.path

end ConfigError

namespace Config

/-- The name of the configuration that is used without being named. -/
def standardName : String := "touchlint.toml"

def ofBytes (expand : List Char → Except ExpansionError (List Char)) (bytes : List UInt8) :
    Except ConfigFault Config :=
  match Utf8.decode? bytes with
  | none => .error .notText
  | some text =>
    match expand text with
    | .error e => .error (.expansion e)
    | .ok text =>
      match ofText? text with
      | none => .error .notConfig
      | some config => .ok config

def ofFile (files : Files) (env : Environment) (path : String) : Except ConfigError Config :=
  match files path with
  | .error e => .error ⟨path, .unreadable e⟩
  | .ok bytes =>
    match ofBytes (expand env) bytes with
    | .error fault => .error ⟨path, fault⟩
    | .ok config => .ok config

/-- The configuration of a run: the one that is named, else the standard one if it is there, else
nothing but defaults. -/
def load (files : Files) (env : Environment) : Option String → Except ConfigError Config
  | some path => ofFile files env path
  | none => if files.exists? standardName then ofFile files env standardName else .ok {}

end Config

end TouchedLines
