/-! # Programs that are run

A run of a program is what it is started with; what programs there are and what they answer is a
function on runs.
-/

namespace TouchedLines

structure Invocation where
  program : String
  arguments : List String
  input : String
  deriving Repr, DecidableEq

structure ProgramOutput where
  bytes : List UInt8
  success : Bool

inductive StartError where
  | notFound
  /-- The name or an argument holds a NUL character. -/
  | nulCharacter
  deriving Repr, DecidableEq

def StartError.message : StartError → String
  | notFound => "No such file or directory (os error 2)"
  | nulCharacter => "nul byte found in provided data"

/-- The programs there are: the output of a run, none if there is no program of its name. -/
abbrev Programs := Invocation → Option ProgramOutput

namespace Programs

def run (programs : Programs) (i : Invocation) : Except StartError ProgramOutput :=
  if (i.program :: i.arguments).any fun word => word.toList.contains '\x00' then
    .error .nulCharacter
  else
    match programs i with
    | none => .error .notFound
    | some output => .ok output

def starts (programs : Programs) (i : Invocation) : Bool := (programs.run i).toBool

end Programs

end TouchedLines
