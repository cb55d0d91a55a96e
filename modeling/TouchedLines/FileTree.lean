import TouchedLines.Files
import TouchedLines.Text.Lines

/-! # Trees of files

A file tree is the set of files below a directory, given as a whole. A path is walked step by step:
every step but the last has to come to a directory, and a step up leads to the directory above.
-/

namespace TouchedLines

open Text

structure FileEntry where
  names : List (List Char)
  bytes : List UInt8

structure FileTree where
  entries : List FileEntry

inductive Position where
  /-- A directory of the tree, by the names that lead to it, the last one first. -/
  | directory (names : List (List Char))
  | file (bytes : List UInt8)
  /-- A directory above the tree, of which nothing is known. -/
  | outside

namespace FileTree

def ofList (files : List (String × List UInt8)) : FileTree :=
  ⟨files.map fun (path, bytes) => ⟨splitOn '/' path.toList, bytes⟩⟩

def find? (t : FileTree) (names : List (List Char)) : Option (List UInt8) :=
  (t.entries.find? fun e => e.names == names).map FileEntry.bytes

/-- Whether some file lies below the names. -/
def hasDirectory (t : FileTree) (names : List (List Char)) : Bool :=
  t.entries.any fun e => names.isPrefixOf e.names && e.names != names

/-- One step from a directory down to a name. -/
def enter (t : FileTree) (above : List (List Char)) (name : List Char) :
    Except FileError Position :=
  let names := (name :: above).reverse
  match t.find? names with
  | some bytes => .ok (.file bytes)
  | none => if t.hasDirectory names then .ok (.directory (name :: above)) else .error .notFound

def step (t : FileTree) (position : Position) (component : List Char) :
    Except FileError Position :=
  let stays := component.isEmpty || component == ['.']
  match position with
  | .file _ => .error .notDirectory
  | .outside =>
    if stays || component == ['.', '.'] then .ok .outside else .error .notFound
  | .directory names =>
    if stays then .ok (.directory names)
    else if component == ['.', '.'] then
      match names with
      | [] => .ok .outside
      | _ :: above => .ok (.directory above)
    else t.enter names component

def walk (t : FileTree) : Position → List (List Char) → Except FileError Position
  | position, [] => .ok position
  | position, component :: rest =>
    match t.step position component with
    | .error e => .error e
    | .ok next => walk t next rest

def locate (t : FileTree) (path : String) : Except FileError Position :=
  match path.toList with
  | '/' :: rest => t.walk .outside (splitOn '/' rest)
  | text => t.walk (.directory []) (splitOn '/' text)

def files (t : FileTree) : Files := fun path =>
  match t.locate path with
  | .error e => .error e
  | .ok (.file bytes) => .ok bytes
  | .ok _ => .error .isDirectory

end FileTree

end TouchedLines
