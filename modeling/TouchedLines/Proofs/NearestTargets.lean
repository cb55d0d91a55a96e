import TouchedLines.Proofs.Attribution
import TouchedLines.Sample

/-! # Files of a patch and their nearest headers

The table of a patch is described by the lines of the patch alone: which of them name a file, and
which hunk headers have a file named nearest above them. All other lines leave the reading as it is.
-/

namespace TouchedLines

open Text

namespace PatchReading

/-- The line starts with `+++ b/`, and what follows is the path but for blanks around it. -/
def Names (line : Line) (path : String) : Prop :=
  ∃ rest, line = "+++ b/".toList ++ rest ∧ String.ofList (trim rest) = path

/-- Of the lines that start with `+++ b/`, the last names the path. -/
def NearestNames (above : List Line) (path : String) : Prop :=
  ∃ upper target lower, above = upper ++ target :: lower ∧ Names target path ∧
    ∀ line ∈ lower, ¬"+++ b/".toList <+: line

theorem targetOf?_eq_some_iff {line : Line} {path : String} :
    targetOf? line = some path ↔ Names line path := by
  rw [targetOf?, Option.map_eq_some_iff]
  constructor
  · rintro ⟨rest, hRest, rfl⟩
    exact ⟨rest, eq_append_of_dropStart? hRest, rfl⟩
  · rintro ⟨rest, rfl, rfl⟩
    exact ⟨rest, dropStart?_append targetMark rest, rfl⟩

theorem targetOf?_eq_none_iff {line : Line} :
    targetOf? line = none ↔ ¬"+++ b/".toList <+: line := by
  rw [targetOf?, Option.map_eq_none_iff]
  exact dropStart?_eq_none_iff

theorem targetAfter_eq_some_iff {above : List Line} {path : String} :
    targetAfter above = some path ↔ NearestNames above path := by
  rw [targetAfter, List.getLast?_eq_some_iff]
  constructor
  · rintro ⟨earlier, hPaths⟩
    obtain ⟨upper, others, rfl, -, hOthers⟩ := List.filterMap_eq_append_iff.mp hPaths
    obtain ⟨between, target, lower, rfl, -, hTarget, hLower⟩ :=
      List.filterMap_eq_cons_iff.mp hOthers
    refine ⟨upper ++ between, target, lower, by simp, targetOf?_eq_some_iff.mp hTarget, ?_⟩
    intro line hLine
    exact targetOf?_eq_none_iff.mp (List.filterMap_eq_nil_iff.mp hLower line hLine)
  · rintro ⟨upper, target, lower, rfl, hTarget, hLower⟩
    have hNone : lower.filterMap targetOf? = [] := by
      rw [List.filterMap_eq_nil_iff]
      intro line hLine
      exact targetOf?_eq_none_iff.mpr (hLower line hLine)
    refine ⟨upper.filterMap targetOf?, ?_⟩
    rw [List.filterMap_append, List.filterMap_cons, targetOf?_eq_some_iff.mpr hTarget, hNone]

theorem targetAfter_eq_none_iff {above : List Line} :
    targetAfter above = none ↔ ∀ line ∈ above, ¬"+++ b/".toList <+: line := by
  simp only [targetAfter, List.getLast?_eq_none_iff, List.filterMap_eq_nil_iff,
    targetOf?_eq_none_iff]

/-- A line that names no file is passed over if it is no hunk header or there is no file yet. -/
theorem read_eq_self_of_passed {r : PatchReading} {line : Line} (hTarget : targetOf? line = none)
    (h : Hunk.ofHeader? line = none ∨ r.target = none) : r.read line = r := by
  rw [read, hTarget]
  obtain hHeader | hNone := h
  · rw [hHeader]
  · rw [hNone]
    cases Hunk.ofHeader? line <;> rfl

end PatchReading

/-- Lines that are passed over might as well be missing. -/
theorem PatchReading.foldl_read_of_passed {above : List Line} {line : Line}
    (hTarget : ¬"+++ b/".toList <+: line)
    (hPassed : Hunk.ofHeader line = .error (.malformed line) ∨
      ∀ l ∈ above, ¬"+++ b/".toList <+: l) :
    (above ++ [line]).foldl read ⟨∅, none⟩ = above.foldl read ⟨∅, none⟩ := by
  rw [List.foldl_append]
  refine read_eq_self_of_passed (targetOf?_eq_none_iff.mpr hTarget) ?_
  rw [(knows_foldl above).target, targetAfter_eq_none_iff]
  refine hPassed.imp_left ?_
  intro hError
  exact (Hunk.ofHeader_eq_error_iff.mp hError).2

open PatchReading in
/-- The table of a patch has a set for each path that some line names. A number is in the set of a
path exactly if it is in the range of a hunk header with this path named nearest above it. Headers
above every file, malformed ones and all other lines leave table and file as they are. -/
theorem LineTable.ofPatch_collects_nearest (text : String) :
    (∀ path, path ∈ (ofPatch text).entries.map Prod.fst ↔
      ∃ line ∈ splitReturnLines text.toList, Names line path) ∧
    (∀ path n, (∃ lines, (ofPatch text).find? path = some lines ∧ n ∈ lines) ↔
      ∃ above header below hunk, splitReturnLines text.toList = above ++ header :: below ∧
        Hunk.ofHeader header = .ok hunk ∧ NearestNames above path ∧ hunk.start.toNat ≤ n.toNat ∧
        n.toNat < min (hunk.start.toNat + hunk.count.toNat) 4294967295) ∧
    ∀ above line below, splitReturnLines text.toList = above ++ line :: below →
      ¬"+++ b/".toList <+: line →
      Hunk.ofHeader line = .error (.malformed line) ∨ (∀ l ∈ above, ¬"+++ b/".toList <+: l) →
      (above ++ [line]).foldl read ⟨∅, none⟩ = above.foldl read ⟨∅, none⟩ ∧
        ofPatch text = ((above ++ below).foldl read ⟨∅, none⟩).table := by
  refine ⟨?_, ?_, ?_⟩
  · intro path
    simp only [mem_keys_iff, isSome_find?_ofPatch, List.mem_filterMap, targetOf?_eq_some_iff]
  · intro path n
    rw [← mem_linesOf_iff, mem_linesOf_ofPatch]
    simp only [Touches, TouchedIn, targetAfter_eq_some_iff, ← Hunk.ofHeader_eq_ok_iff,
      Hunk.mem_lines_iff_toNat, and_left_comm]
  · intro above line below hLines hTarget hPassed
    have hSame := foldl_read_of_passed hTarget hPassed
    refine ⟨hSame, ?_⟩
    rw [ofPatch, hLines, List.append_cons, List.foldl_append, hSame, ← List.foldl_append]

example : (LineTable.ofPatch Sample.twoHunkPatch).entries =
    [("app/assets/site.js", .ofList [3, 11, 12])] := by
  rw [LineTable.ofPatch, Sample.twoHunkPatch, String.toList_join]
  decide +kernel

example : (LineTable.ofPatch Sample.malformedHunkPatch).entries =
    [("lib/task.rb", .singleton 5)] := by
  rw [LineTable.ofPatch, Sample.malformedHunkPatch, String.toList_join]
  decide +kernel

end TouchedLines
