import TouchedLines.Category
import TouchedLines.LineSet

/-! # Changed files

A change says whether a file is new or modified and, for a modified one, which of its lines are
touched. A change set holds at most one change for a path, in the order in which the paths came up.
-/

namespace TouchedLines

inductive ChangeKind where
  | new
  | modified
  deriving Repr, DecidableEq

structure Change where
  path : String
  kind : ChangeKind
  /-- The touched lines; `none` asks for the whole file. -/
  lines : Option LineSet
  category : Category
  deriving DecidableEq

namespace Change

def newFile (path : String) (category : Category) : Change := ⟨path, .new, none, category⟩

/-- A modified file of which no touched line is known yet. -/
def modified (path : String) (category : Category) : Change := ⟨path, .modified, some ∅, category⟩

/-- Touches more lines. A change without a line set stays without one. -/
def touch (c : Change) (lines : LineSet) : Change := { c with lines := c.lines.map (· ∪ lines) }

theorem touch_path (c : Change) (lines : LineSet) : (c.touch lines).path = c.path := rfl

end Change

structure ChangeSet where
  changes : List Change
  nodup : (changes.map Change.path).Nodup

namespace ChangeSet

def empty : ChangeSet := ⟨[], .nil⟩

instance : EmptyCollection ChangeSet := ⟨empty⟩

instance : Inhabited ChangeSet := ⟨empty⟩

def size (s : ChangeSet) : Nat := s.changes.length

def isEmpty (s : ChangeSet) : Bool := s.changes.isEmpty

def paths (s : ChangeSet) : List String := s.changes.map Change.path

def find? (s : ChangeSet) (path : String) : Option Change :=
  s.changes.find? fun c => c.path == path

/-- Applies `f` to the changes of one path. -/
def updateList (path : String) (f : Change → Change) (changes : List Change) : List Change :=
  changes.map fun c => if c.path = path then f c else c

theorem map_path_updateList {path : String} {f : Change → Change} (changes : List Change)
    (hf : ∀ c, c.path = path → (f c).path = path) :
    (updateList path f changes).map Change.path = changes.map Change.path := by
  induction changes with
  | nil => rfl
  | cons c rest ih =>
    by_cases h : c.path = path
    · simpa [updateList, h, hf c h] using ih
    · simpa [updateList, h] using ih

/-- Replaces the change of the same path where it stands, or adds the change at the end. -/
def insert (s : ChangeSet) (c : Change) : ChangeSet :=
  if h : c.path ∈ s.paths then
    ⟨updateList c.path (fun _ => c) s.changes, by
      rw [map_path_updateList _ (fun _ _ => rfl)]
      exact s.nodup⟩
  else
    ⟨s.changes ++ [c], by
      rw [List.map_append, List.nodup_append]
      refine ⟨s.nodup, by simp, ?_⟩
      intro p hp q hq
      obtain rfl : q = c.path := by simpa using hq
      exact fun e => h (e ▸ hp)⟩

def ofList (changes : List Change) : ChangeSet := changes.foldl insert ∅

/-- Touches lines of the file at `path`, if the set has a change for it. -/
def touch (s : ChangeSet) (path : String) (lines : LineSet) : ChangeSet where
  changes := updateList path (·.touch lines) s.changes
  nodup := by
    rw [map_path_updateList _ (fun c h => (c.touch_path lines).trans h)]
    exact s.nodup

def modifiedPaths (s : ChangeSet) : List String :=
  (s.changes.filter fun c => c.kind == .modified).map Change.path

theorem paths_touch (s : ChangeSet) (path : String) (lines : LineSet) :
    (s.touch path lines).paths = s.paths :=
  map_path_updateList _ (fun c h => (c.touch_path lines).trans h)

end ChangeSet

end TouchedLines
