import Std.Time.Format
import TouchedLines.CommandLine.Needs

/-! # The command line

Collects what a command needs and prints what it gives. No other program is started from here, so
the changes of a version-control system are empty and Ruby files cannot be checked.
-/

namespace TouchedLines

def fileError : IO.Error → FileError
  | .permissionDenied .. => .denied
  | .inappropriateType _ code _ => if code = 20 then .notDirectory else .isDirectory
  | _ => .notFound

def readPath (path : String) : IO (String × Except FileError (List UInt8)) := do
  match ← (IO.FS.readBinFile path).toBaseIO with
  | .ok bytes => return (path, .ok bytes.toList)
  | .error e => return (path, .error (fileError e))

def readVariable (name : String) : IO (Option (String × String)) := do
  return (← IO.getEnv name).map fun value => (name, value)

def readClock : IO String := do
  return (← Std.Time.DateTime.now).format "uuuu-MM-dd HH:mm:ss xx"

/-- The words of this command line. -/
def wording : Wording where
  report _ := "not a report of offenses"
  config _ := "not a configuration"
  misuse _ := "usage: touchlint [-v] [--debug] check|rules|help"
  help
    | .commands => "Usage: touchlint [OPTIONS] <COMMAND>\n"
    | .check => "Usage: touchlint check [OPTIONS] [FILE]...\n"
    | .rules => "Usage: touchlint rules [OPTIONS]\n"
    | .help => "Usage: touchlint help [COMMAND]...\n"

/-- The world as far as a command needs it. -/
def readWorld (command : Command) : IO World := do
  let config ← command.configPath?.toList.mapM readPath
  let bytes := config.flatMap fun (_, content) => content.toOption.getD []
  let listed ← command.listedPaths.mapM readPath
  let values ← (Command.variableNames bytes).mapM readVariable
  let world := World.ofParts (config ++ listed) (values.filterMap id) (fun _ => none) (← readClock)
  return { world with wording }

def runCommand (arguments : List String) : IO RunResult := do
  match Command.ofArguments? arguments with
  | none => return .failed .usage
  | some command => return command.run (← readWorld command)

end TouchedLines

open TouchedLines in
def main (arguments : List String) : IO UInt32 := do
  let result ← runCommand arguments
  IO.print result.output
  if let some failure := result.failure then
    IO.eprintln (failure.message wording arguments)
  return UInt32.ofNat result.exitCode
