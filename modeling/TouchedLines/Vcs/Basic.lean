import TouchedLines.Text.Lines
import TouchedLines.Traced

/-! # Questions to a version-control system

What has changed is asked about a scope: the staged changes, or everything since the current state
forked from a base. A base is taken from the first source that gives one; otherwise the names of
common main branches are tried.
-/

namespace TouchedLines

inductive Scope where
  | staged
  | since (base : String)
  deriving Repr, DecidableEq

namespace Scope

def argument : Scope → String
  | staged => "--staged"
  | since base => base ++ "...HEAD"

def describe : Scope → String
  | staged => "staged changes"
  | since base => base ++ "...HEAD"

end Scope

inductive Query where
  | refExists (ref : String)
  /-- Which files matching the specifications have changed, as a listing. -/
  | listing (scope : Scope) (pathspecs : List String)
  /-- Which lines of the files at the paths have changed, as a zero-context patch. -/
  | patch (scope : Scope) (paths : List String)
  deriving Repr, DecidableEq

structure Vcs where
  refExists : String → Bool
  listing : Scope → List String → String
  patch : Scope → List String → String

namespace Vcs

def askRef (vcs : Vcs) (ref : String) : Traced Query Bool :=
  .one (.refExists ref) (vcs.refExists ref)

def askListing (vcs : Vcs) (scope : Scope) (pathspecs : List String) : Traced Query String :=
  .one (.listing scope pathspecs) (vcs.listing scope pathspecs)

def askPatch (vcs : Vcs) (scope : Scope) (paths : List String) : Traced Query String :=
  .one (.patch scope paths) (vcs.patch scope paths)

end Vcs

namespace Base

/-- The references that may be the base, the likeliest first. -/
def candidates : List String := ["origin/main", "origin/master", "main", "master"]

def fallback : String := "HEAD~1"

/-- A base as it was given, without the blanks around it; a blank text gives none. -/
def ofText? (given : String) : Option String :=
  let base := Text.trim given.toList
  if base.isEmpty then none else some (String.ofList base)

/-- The base of the first source that gives one. -/
def effective? (sources : List (Option String)) : Option String :=
  sources.findSome? fun source => source.bind ofText?

/-- The first of the references that exists. No reference after it is asked about. -/
def firstExisting (vcs : Vcs) : List String → Traced Query String
  | [] => pure fallback
  | ref :: refs => do if ← vcs.askRef ref then pure ref else firstExisting vcs refs

def detect (vcs : Vcs) : Traced Query String := firstExisting vcs candidates

end Base

/-- The scope of a run. A base plays no part where only staged changes are asked for. -/
def Scope.choose (vcs : Vcs) (base? : Option String) (onlyStaged : Bool) : Traced Query Scope :=
  if onlyStaged then pure .staged
  else
    match base?.bind Base.ofText? with
    | some base => pure (.since base)
    | none => do return .since (← Base.detect vcs)

end TouchedLines
