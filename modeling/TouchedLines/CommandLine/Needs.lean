import TouchedLines.CommandLine.Run

/-! # What a command needs of the world

A command reads the files that it names and the configuration, and asks for the variables that the
configuration refers to.
-/

namespace TouchedLines

namespace Command

def configPath? : Command → Option String
  | check request => some (request.config.getD Config.standardName)
  | rules _ | help _ => none

def listedPaths : Command → List String
  | check request => request.files
  | rules _ | help _ => []

/-- The variables that a command asks for, given the bytes of its configuration. -/
def variableNames (configBytes : List UInt8) : List String :=
  baseVariable :: Expansion.names (Text.Utf8.decodeLossy configBytes)

end Command

/-- The world of which just some files and variables are known. -/
def World.ofParts (files : List (String × Except FileError (List UInt8)))
    (values : List (String × String)) (programs : Programs) (clock : String) : World where
  files path := (files.lookup path).getD (.error .notFound)
  env name := values.lookup name
  programs := programs
  clock := clock

end TouchedLines
