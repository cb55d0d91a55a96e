import TouchedLines.Glob.Match
import TouchedLines.Glob.Reading

/-! # Excluded paths

A path that some glob describes is excluded.
-/

namespace TouchedLines

structure ExclusionError where
  glob : String
  fault : GlobFault
  deriving Repr, DecidableEq

namespace ExclusionError

def cause (e : ExclusionError) : String :=
  "error parsing glob '" ++ e.glob ++ "': " ++ e.fault.message

def message (e : ExclusionError) : String := "invalid exclude glob '" ++ e.glob ++ "': " ++ e.cause

end ExclusionError

structure Exclusion where
  globs : List Glob

namespace Exclusion

def none : Exclusion := ⟨[]⟩

def readGlobs : List String → Except ExclusionError (List Glob)
  | [] => .ok []
  | text :: texts =>
    match Glob.ofText text with
    | .error fault => .error ⟨text, fault⟩
    | .ok glob => (readGlobs texts).map (glob :: ·)

/-- The exclusion by some globs; the first that cannot be read is the error. -/
def ofGlobs (texts : List String) : Except ExclusionError Exclusion := (readGlobs texts).map .mk

def excludes (e : Exclusion) (path : String) : Bool := e.globs.any (·.isMatch path)

end Exclusion

end TouchedLines
