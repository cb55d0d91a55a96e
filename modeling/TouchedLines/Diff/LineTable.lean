import TouchedLines.Diff.Hunk

/-! # Touched lines by file

A zero-context patch names a file on a line that starts with `+++ b/`; the hunk headers below touch
lines of that file until the next such line. What else a patch holds is ignored, malformed headers
and headers above the first file included.
-/

namespace TouchedLines

open Text

/-- Sets of lines by path, the paths in ascending order. -/
structure LineTable where
  entries : List (String × LineSet)
  ascending : (entries.map Prod.fst).Pairwise (· < ·)

namespace LineTable

def empty : LineTable := ⟨[], .nil⟩

instance : EmptyCollection LineTable := ⟨empty⟩

def addTo (path : String) (lines : LineSet) : List (String × LineSet) → List (String × LineSet)
  | [] => [(path, lines)]
  | (p, s) :: rest =>
    if path = p then (p, s ∪ lines) :: rest
    else if path < p then (path, lines) :: (p, s) :: rest
    else (p, s) :: addTo path lines rest

theorem mem_keys_addTo {path p : String} {lines : LineSet} {entries : List (String × LineSet)} :
    p ∈ (addTo path lines entries).map Prod.fst ↔ p = path ∨ p ∈ entries.map Prod.fst := by
  fun_induction addTo path lines entries with
  | case1 => simp
  | case2 => simp
  | case3 => simp
  | case4 q s rest h h' ih =>
    simp only [List.map_cons, List.mem_cons, ih]
    grind

theorem ascending_addTo {path : String} {lines : LineSet} {entries : List (String × LineSet)}
    (h : (entries.map Prod.fst).Pairwise (· < ·)) :
    ((addTo path lines entries).map Prod.fst).Pairwise (· < ·) := by
  fun_induction addTo path lines entries with
  | case1 => simp
  | case2 s rest => exact h
  | case3 q s rest hne hlt =>
    simp only [List.map_cons, List.pairwise_cons] at h ⊢
    refine ⟨fun r hr => ?_, h⟩
    rcases List.mem_cons.1 hr with rfl | hr
    · exact hlt
    · exact String.lt_trans hlt (h.1 r hr)
  | case4 q s rest hne hlt ih =>
    simp only [List.map_cons, List.pairwise_cons] at h ⊢
    refine ⟨fun r hr => ?_, ih h.2⟩
    rcases mem_keys_addTo.1 hr with rfl | hr
    · rcases String.le_total q r with hle | hle
      · exact String.not_le.1 fun hge => hne (String.le_antisymm hge hle)
      · exact absurd (String.not_le.1 fun hge => hne (String.le_antisymm hle hge)) hlt
    · exact h.1 r hr

/-- Adds lines to the set of a path, which starts empty. -/
def add (t : LineTable) (path : String) (lines : LineSet) : LineTable :=
  ⟨addTo path lines t.entries, ascending_addTo t.ascending⟩

def find? (t : LineTable) (path : String) : Option LineSet := t.entries.lookup path

end LineTable

/-- What is known after some lines of a patch: the table so far and the file of the hunks. -/
structure PatchReading where
  table : LineTable
  target : Option String

namespace PatchReading

def targetMark : List Char := "+++ b/".toList

/-- The path that a line names as the file of the hunks below it. -/
def targetOf? (line : Line) : Option String :=
  (dropStart? targetMark line).map fun rest => String.ofList (trim rest)

def read (r : PatchReading) (line : Line) : PatchReading :=
  match targetOf? line with
  | some path => ⟨r.table.add path ∅, some path⟩
  | none =>
    match Hunk.ofHeader? line, r.target with
    | some hunk, some path => ⟨r.table.add path hunk.lines, r.target⟩
    | _, _ => r

end PatchReading

/-- The lines that a zero-context patch touches, for each file it names. -/
def LineTable.ofPatch (text : String) : LineTable :=
  ((splitReturnLines text.toList).foldl PatchReading.read ⟨∅, none⟩).table

end TouchedLines
