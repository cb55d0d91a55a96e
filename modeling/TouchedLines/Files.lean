import TouchedLines.Text.Utf8

/-! # Files

What there is to read: for every path the bytes of its file, or why there are none.
-/

namespace TouchedLines

open Text

inductive FileError where
  | notFound
  | denied
  | notDirectory
  | isDirectory
  deriving Repr, DecidableEq

def FileError.message : FileError → String
  | notFound => "No such file or directory (os error 2)"
  | denied => "Permission denied (os error 13)"
  | notDirectory => "Not a directory (os error 20)"
  | isDirectory => "Is a directory (os error 21)"

abbrev Files := String → Except FileError (List UInt8)

namespace Files

def exists? (files : Files) (path : String) : Bool :=
  match files path with
  | .ok _ => true
  | .error .notFound => false
  | .error .notDirectory => false
  | .error .denied => true
  | .error .isDirectory => true

/-- Whether a path leads to a file, readable or not. -/
def isFile (files : Files) (path : String) : Bool :=
  match files path with
  | .ok _ => true
  | .error e => e == .denied

/-- The text of the file at a path, malformed bytes replaced. -/
def readText? (files : Files) (path : String) : Option String :=
  (files path).toOption.map fun bytes => String.ofList (Utf8.decodeLossy bytes)

end Files

end TouchedLines
