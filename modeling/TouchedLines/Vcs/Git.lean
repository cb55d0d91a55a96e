import TouchedLines.Program
import TouchedLines.Text.Utf8
import TouchedLines.Vcs.Basic

/-! # Git

Each question is one run of `git`. A run that cannot be started answers nothing; one that fails
still answers with what it has written.
-/

namespace TouchedLines.Git

open Text

def arguments : Query → List String
  | .refExists ref => ["rev-parse", "--verify", "--quiet", ref]
  | .listing scope pathspecs => ["diff", "--name-status", scope.argument, "--"] ++ pathspecs
  | .patch scope paths => ["diff", "--unified=0", scope.argument, "--"] ++ paths

def invocation (q : Query) : Invocation := ⟨"git", arguments q, ""⟩

def output (programs : Programs) (q : Query) : String :=
  match programs.run (invocation q) with
  | .error _ => ""
  | .ok output => String.ofList (Utf8.decodeLossy output.bytes)

def succeeds (programs : Programs) (q : Query) : Bool :=
  match programs.run (invocation q) with
  | .error _ => false
  | .ok output => output.success

def vcs (programs : Programs) : Vcs where
  refExists ref := succeeds programs (.refExists ref)
  listing scope pathspecs := output programs (.listing scope pathspecs)
  patch scope paths := output programs (.patch scope paths)

def runs (programs : Programs) (queries : List Query) : List Invocation :=
  (queries.map invocation).filter programs.starts

end TouchedLines.Git
