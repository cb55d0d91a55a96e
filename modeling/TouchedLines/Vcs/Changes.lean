import TouchedLines.ChangeSet
import TouchedLines.Diff.LineTable
import TouchedLines.Diff.Listing
import TouchedLines.Vcs.Basic

/-! # The changes of a scope

The listing of a scope says which files are new and which are modified; its patch says which lines
of the modified ones are touched. The patch is asked for only if some file is modified, and names
the old path of a rename too, since a rename is reported as one only where both paths are asked
for.
-/

namespace TouchedLines

namespace StatusEntry

/-- The change that an entry reports, if it is one of a supported file. -/
def change? (e : StatusEntry) : Option Change :=
  match Category.ofPath? e.path, e.code with
  | some category, .added => some (.newFile e.path category)
  | some category, .modified => some (.modified e.path category)
  | some category, .renamed => some (.modified e.path category)
  | _, _ => none

/-- The old path of a renamed supported file. -/
def renameSource? (e : StatusEntry) : Option String :=
  match Category.ofPath? e.path, e.code with
  | some _, .renamed => e.source
  | _, _ => none

end StatusEntry

namespace ChangeSet

/-- The changes that a listing reports. No line of a modified file is touched yet. -/
def ofEntries (entries : List StatusEntry) : ChangeSet :=
  ofList (entries.filterMap StatusEntry.change?)

/-- Touches the lines of a table, each in the file that the table names. -/
def touchTable (s : ChangeSet) (table : LineTable) : ChangeSet :=
  table.entries.foldl (fun s (path, lines) => s.touch path lines) s

end ChangeSet

def Scope.changes (vcs : Vcs) (scope : Scope) : Traced Query ChangeSet := do
  let entries := StatusEntry.ofListing (← vcs.askListing scope Category.pathspecs)
  let set := ChangeSet.ofEntries entries
  if set.modifiedPaths.isEmpty then
    return set
  else
    let paths := set.modifiedPaths ++ entries.filterMap StatusEntry.renameSource?
    return set.touchTable (.ofPatch (← vcs.askPatch scope paths))

def ChangeSet.resolve (vcs : Vcs) (base? : Option String) (onlyStaged : Bool) :
    Traced Query ChangeSet := do
  let scope ← Scope.choose vcs base? onlyStaged
  scope.changes vcs

end TouchedLines
