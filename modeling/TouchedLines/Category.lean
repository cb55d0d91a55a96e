import TouchedLines.Text.Lines

/-! # Paths and categories of files

The final extension of a path decides which linter its file gets.
-/

namespace TouchedLines

namespace Path

/-- The components of a path; empty ones and `.` name no step. -/
def components (path : String) : List (List Char) :=
  (Text.splitOn '/' path.toList).filter fun part => !(part.isEmpty || part == ['.'])

/-- The last component, unless it steps up. -/
def fileName? (path : String) : Option (List Char) :=
  match (components path).getLast? with
  | none => none
  | some name => if name == ['.', '.'] then none else some name

/-- What follows the last dot of a name, unless the name starts with that dot or has none. -/
def nameExtension? (name : List Char) : Option (List Char) :=
  match name.reverse.span (· != '.') with
  | (_, []) => none
  | (_, [_]) => none
  | (extension, _ :: _ :: _) => some extension.reverse

def extension? (path : String) : Option (List Char) := (fileName? path).bind nameExtension?

end Path

inductive Category where
  /-- Left to an external analyzer. -/
  | ruby
  | javascript
  | erb
  deriving Repr, DecidableEq

namespace Category

def name : Category → String
  | ruby => "ruby"
  | javascript => "javascript"
  | erb => "erb"

def extension : Category → String
  | ruby => "rb"
  | javascript => "js"
  | erb => "erb"

def all : List Category := [ruby, javascript, erb]

/-- The specifications by which a version-control system lists the files of every category. -/
def pathspecs : List String := all.map fun c => "*." ++ c.extension

/-- The category of a path; none if its extension is not supported. -/
def ofPath? (path : String) : Option Category :=
  (Path.extension? path).bind fun e => all.find? fun c => c.extension.toList == e

end Category

end TouchedLines
