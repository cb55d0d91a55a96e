import TouchedLines.Proofs.PatchBody
import TouchedLines.Proofs.PrintedHeader
import TouchedLines.Proofs.Trimming

/-! # Printed patches are read back

A printed patch is read file by file. The content part of a file names the file and touches the
lines of its hunks; everything else that is printed is passed over. So the table of a patch has the
files with a content part, each with the lines of all hunks that are printed for its path.
-/

namespace TouchedLines

open Text

namespace Text

theorem dropStart?_cons_of_ne {w c : Char} (h : w ≠ c) (word text : List Char) :
    dropStart? (w :: word) (c :: text) = none := by
  rw [dropStart?, if_neg h]

theorem dropReturn_append_singleton {c : Char} (hc : c ≠ '\r') (text : List Char) :
    dropReturn (text ++ [c]) = text ++ [c] := by
  induction text with
  | nil => exact dropReturn_cons hc []
  | cons d rest ih =>
    rw [List.cons_append, dropReturn, if_neg (by simp), ih]

theorem dropReturn_of_trim_eq {line : Line} (h : trim line = line) : dropReturn line = line := by
  rcases List.eq_nil_or_concat line with rfl | ⟨front, last, rfl⟩
  · rfl
  · rw [List.concat_eq_append] at h ⊢
    apply dropReturn_append_singleton
    rintro rfl
    have hBlank := (trim_eq_self_iff.mp h).2 '\r' (by simp)
    exact absurd hBlank (by decide)

end Text

namespace PatchHunk

theorem readBack_header (h : PatchHunk) : readBack h.header = [h.header] := by
  have hNewline : '\n' ∉ h.header := h.notMem_header (by decide) (by decide)
  have hReturn : '\r' ∉ h.header := h.notMem_header (by decide) (by decide)
  rw [readBack_eq_singleton hNewline, dropReturn_of_notMem hReturn]

end PatchHunk

namespace PatchFile

/-- The file has a content part, which a rename without hunks lacks. -/
def HasContent (f : PatchFile) : Prop := f.hunks ≠ [] ∨ f.oldPath = none

instance : DecidablePred HasContent := fun _ => inferInstanceAs (Decidable (_ ∨ _))

/-- Printed, the path stays as it is, every text stays on its line, and no added line begins with
`++ b/`. -/
structure IsPlain (f : PatchFile) : Prop where
  path : '\n' ∉ f.path.toList
  trimmed : trim f.path.toList = f.path.toList
  oldPath : ∀ old ∈ f.oldPath, '\n' ∉ old.toList
  body : ∀ h ∈ f.hunks, ∀ l ∈ h.body, l.IsData

instance : DecidablePred IsPlain := fun f =>
  decidable_of_iff ('\n' ∉ f.path.toList ∧ trim f.path.toList = f.path.toList ∧
    (∀ old ∈ f.oldPath, '\n' ∉ old.toList) ∧ ∀ h ∈ f.hunks, ∀ l ∈ h.body, l.IsData)
    ⟨fun h => ⟨h.1, h.2.1, h.2.2.1, h.2.2.2⟩, fun h => ⟨h.path, h.trimmed, h.oldPath, h.body⟩⟩

theorem IsPlain.sourcePath {f : PatchFile} (h : f.IsPlain) : '\n' ∉ f.sourcePath.toList := by
  unfold PatchFile.sourcePath
  cases hOld : f.oldPath with
  | none => exact h.path
  | some old => exact h.oldPath old hOld

end PatchFile

namespace PatchReading

/-- A line that begins with the word is neither a target line nor a hunk header. -/
def IsTitle (word : List Char) : Prop := '\n' ∉ word ∧ ∃ c ∈ word.head?, c ∉ "+@\r".toList

instance : DecidablePred IsTitle := fun word =>
  decidable_of_iff ('\n' ∉ word ∧ (word.head?.any fun c => !"+@\r".toList.contains c) = true) (by
    cases word <;> simp [IsTitle])

theorem readPrinted_title (word : String) (hWord : IsTitle word.toList) {text : List Char}
    (hText : '\n' ∉ text) (r : PatchReading) : r.readPrinted (word.toList ++ text) = r := by
  have hLine : '\n' ∉ word.toList ++ text := List.not_mem_append hWord.1 hText
  obtain ⟨c, hHead, hFirst⟩ := hWord.2
  obtain ⟨rest, hRest⟩ := List.head?_eq_some_iff.mp hHead
  obtain ⟨hPlus, hAt, hReturn⟩ : c ≠ '+' ∧ c ≠ '@' ∧ c ≠ '\r' := by simpa using hFirst
  have hTarget : targetOf? (c :: dropReturn (rest ++ text)) = none := by
    have hMark : targetMark = '+' :: "++ b/".toList := rfl
    rw [targetOf?, hMark, dropStart?_cons_of_ne hPlus.symm, Option.map_none]
  have hHeader : Hunk.ofHeader? (c :: dropReturn (rest ++ text)) = none := by
    have hMark : "@@ ".toList = '@' :: "@ ".toList := rfl
    rw [Hunk.ofHeader?, hMark, dropStart?_cons_of_ne hAt.symm]
  rw [readPrinted, readBack_eq_singleton hLine, hRest, List.cons_append, dropReturn_cons hReturn]
  exact read_eq_self hTarget hHeader

theorem readPrinted_fixed (line : String) (hLine : IsTitle line.toList) (r : PatchReading) :
    r.readPrinted line.toList = r := by
  have hAlone := readPrinted_title line hLine List.not_mem_nil r
  rwa [List.append_nil] at hAlone

theorem readPrinted_target {path : String} (hNewline : '\n' ∉ path.toList)
    (hTrimmed : trim path.toList = path.toList) (r : PatchReading) :
    r.readPrinted ("+++ b/".toList ++ path.toList) = ⟨r.table.add path ∅, some path⟩ := by
  have hLine : '\n' ∉ "+++ b/".toList ++ path.toList := List.not_mem_append (by decide) hNewline
  have hTarget : targetOf? ("+++ b/".toList ++ path.toList) = some path := targetOf?_append hTrimmed
  rw [readPrinted, readBack_eq_singleton hLine, dropReturn_append (by decide),
    dropReturn_of_trim_eq hTrimmed, List.foldl_cons, List.foldl_nil, read, hTarget]

theorem readPrinted_header (h : PatchHunk) (table : LineTable) (path : String) :
    (⟨table, some path⟩ : PatchReading).readPrinted h.header =
      ⟨table.add path h.newHunk.lines, some path⟩ := by
  have hTarget : targetOf? h.header = none := by
    rw [PatchHunk.header_eq]
    rfl
  rw [readPrinted, h.readBack_header, List.foldl_cons, List.foldl_nil, read, hTarget,
    h.ofHeader?_header]

/-- Only the header of a hunk is read. -/
theorem foldl_hunkLines {h : PatchHunk} (hBody : ∀ l ∈ h.body, l.IsData) (table : LineTable)
    (path : String) :
    h.lines.foldl readPrinted ⟨table, some path⟩ = ⟨table.add path h.newHunk.lines, some path⟩ := by
  have hNone : h.body.filter (fun l => decide ¬l.IsData) = [] :=
    List.filter_eq_nil_iff.mpr (by simpa using hBody)
  have hLines : h.withoutData.lines = [h.header] := by
    rw [PatchHunk.lines, PatchHunk.withoutData, hNone]
    rfl
  rw [← h.foldl_lines_withoutData, hLines]
  exact readPrinted_header h table path

end PatchReading

namespace LineTable

def addHunks (t : LineTable) (path : String) (hunks : List PatchHunk) : LineTable :=
  hunks.foldl (fun t h => t.add path h.newHunk.lines) t

theorem addHunks_cons (t : LineTable) (path : String) (h : PatchHunk) (rest : List PatchHunk) :
    t.addHunks path (h :: rest) = (t.add path h.newHunk.lines).addHunks path rest := rfl

theorem isSome_find?_addHunks {t : LineTable} {path : String} {hunks : List PatchHunk}
    {q : String} :
    ((t.addHunks path hunks).find? q).isSome = true ↔
      (hunks ≠ [] ∧ q = path) ∨ (t.find? q).isSome = true := by
  induction hunks generalizing t with
  | nil => simp [addHunks]
  | cons h rest ih =>
    rw [addHunks_cons, ih, isSome_find?_add]
    simp only [ne_eq, List.cons_ne_nil, not_false_eq_true, true_and]
    exact or_iff_right_of_imp fun hRest => .inl hRest.2

theorem mem_linesOf_addHunks {t : LineTable} {path : String} {hunks : List PatchHunk}
    {q : String} {n : LineNumber} :
    n ∈ (t.addHunks path hunks).linesOf q ↔
      n ∈ t.linesOf q ∨ q = path ∧ ∃ h ∈ hunks, n ∈ h.newHunk.lines := by
  induction hunks generalizing t with
  | nil => simp [addHunks]
  | cons h rest ih =>
    rw [addHunks_cons, ih, linesOf_add]
    by_cases hq : q = path
    · simp [hq, LineSet.mem_union, or_assoc]
    · simp [hq]

end LineTable

namespace PatchReading

def readContent (r : PatchReading) (f : PatchFile) : PatchReading :=
  ⟨(r.table.add f.path ∅).addHunks f.path f.hunks, some f.path⟩

theorem foldl_contentLines {f : PatchFile} (hf : f.IsPlain) (r : PatchReading) :
    f.contentLines.foldl readPrinted r = r.readContent f := by
  have hHunks : ∀ (hunks : List PatchHunk) (table : LineTable),
      (∀ h ∈ hunks, ∀ l ∈ h.body, l.IsData) →
      (hunks.flatMap PatchHunk.lines).foldl readPrinted ⟨table, some f.path⟩ =
        ⟨table.addHunks f.path hunks, some f.path⟩ := by
    intro hunks table hBody
    induction hunks generalizing table with
    | nil => rfl
    | cons h rest ih =>
      rw [List.flatMap_cons, List.foldl_append, foldl_hunkLines (hBody h List.mem_cons_self)]
      exact ih _ fun k hk => hBody k (List.mem_cons_of_mem _ hk)
  rw [PatchFile.contentLines, List.foldl_append]
  simp only [List.foldl_cons, List.foldl_nil]
  rw [readPrinted_fixed "index 1111111..2222222 100644" (by decide),
    readPrinted_title "--- a/" (by decide) hf.sourcePath, readPrinted_target hf.path hf.trimmed]
  exact hHunks f.hunks _ hf.body

theorem foldl_renameLines {f : PatchFile} (hf : f.IsPlain) (r : PatchReading) :
    f.renameLines.foldl readPrinted r = r := by
  simp only [PatchFile.renameLines, List.foldl_cons, List.foldl_nil]
  rw [readPrinted_fixed "similarity index 100%" (by decide),
    readPrinted_title "rename from " (by decide) hf.sourcePath,
    readPrinted_title "rename to " (by decide) hf.path]

/-- A file is read as its content part, if it has one. -/
theorem foldl_fileLines {f : PatchFile} (hf : f.IsPlain) (r : PatchReading) :
    f.lines.foldl readPrinted r = if f.HasContent then r.readContent f else r := by
  have hPaths : '\n' ∉ f.sourcePath.toList ++ (" b/".toList ++ f.path.toList) :=
    List.not_mem_append hf.sourcePath (List.not_mem_append (by decide) hf.path)
  rw [PatchFile.lines, List.foldl_cons, List.append_assoc, List.append_assoc,
    readPrinted_title "diff --git a/" (by decide) hPaths]
  cases hOld : f.oldPath with
  | none =>
    have hContent : f.HasContent := .inr hOld
    rw [if_pos hContent]
    exact foldl_contentLines hf r
  | some old =>
    simp only [List.foldl_append, foldl_renameLines hf]
    by_cases hHunks : f.hunks = []
    · have hContent : ¬f.HasContent := by simp [PatchFile.HasContent, hHunks, hOld]
      rw [if_neg hContent, hHunks]
      rfl
    · have hContent : f.HasContent := .inl hHunks
      have hSome : ¬f.hunks.isEmpty = true := by simpa using hHunks
      rw [if_pos hContent, if_neg hSome]
      exact foldl_contentLines hf r

end PatchReading

namespace LineTable

/-- The table has the files with a content part, each with the lines of all hunks for its path. -/
structure Covers (t : LineTable) (files : List PatchFile) : Prop where
  named : ∀ path, (t.find? path).isSome = true ↔ ∃ f ∈ files, f.path = path ∧ f.HasContent
  touched : ∀ path n, n ∈ t.linesOf path ↔
    ∃ f ∈ files, f.path = path ∧ ∃ h ∈ f.hunks, n ∈ h.newHunk.lines

theorem covers_nil : Covers ∅ [] where
  named path := by simp [find?, empty, EmptyCollection.emptyCollection]
  touched path n := iff_of_false (LineSet.notMem_empty n) (by simp)

theorem Covers.foldl_fileLines {files : List PatchFile} {r : PatchReading}
    (h : r.table.Covers files) {f : PatchFile} (hf : f.IsPlain) :
    (f.lines.foldl PatchReading.readPrinted r).table.Covers (files ++ [f]) := by
  have hLast : ∀ P : PatchFile → Prop, (∃ g ∈ files ++ [f], P g) ↔ (∃ g ∈ files, P g) ∨ P f := by
    intro P
    simp [or_and_right, exists_or]
  rw [PatchReading.foldl_fileLines hf]
  by_cases hContent : f.HasContent
  · rw [if_pos hContent]
    constructor
    case named =>
      intro path
      rw [PatchReading.readContent, isSome_find?_addHunks, isSome_find?_add, h.named, hLast]
      rw [and_iff_left hContent, eq_comm (a := f.path), ← or_assoc,
        or_iff_right_of_imp And.right, or_comm]
    case touched =>
      intro path n
      rw [PatchReading.readContent, mem_linesOf_addHunks, linesOf_add, LineSet.union_empty, hLast]
      split
      · rename_i hPath
        rw [← hPath, h.touched, eq_self, true_and]
      · rename_i hPath
        rw [h.touched]
        simp only [hPath, Ne.symm hPath, false_and, or_false]
  · -- without a content part there are no hunks either, so that no line is touched
    have hNone : f.hunks = [] := by
      by_contra hSome
      exact hContent (.inl hSome)
    rw [if_neg hContent]
    constructor
    case named =>
      intro path
      rw [h.named, hLast]
      exact (or_iff_left fun hPath => hContent hPath.2).symm
    case touched =>
      intro path n
      rw [h.touched, hLast]
      refine (or_iff_left ?_).symm
      rintro ⟨_, k, hk, _⟩
      rw [hNone] at hk
      cases hk

theorem covers_ofPatch_render {p : Patch} (h : ∀ f ∈ p.files, f.IsPlain) :
    (ofPatch p.render).Covers p.files := by
  rw [ofPatch_render, List.foldl_flatMap]
  generalize p.files = files at h
  -- a file is read after all that stand above it, so the induction takes the last one off
  induction files using List.reverseRecOn with
  | nil => exact covers_nil
  | append_singleton files f ih =>
    rw [List.foldl_append]
    have hFiles := ih fun g hg => h g (List.mem_append_left _ hg)
    exact hFiles.foldl_fileLines (h f (by simp))

theorem mem_lines_newHunk {h : PatchHunk} {n : LineNumber} :
    n ∈ h.newHunk.lines ↔ h.newStart.toNat ≤ n.toNat ∧
      n.toNat < min (h.newStart.toNat + if h.abbreviated then 1 else h.newCount.toNat)
        4294967295 := by
  rw [Hunk.mem_lines_iff_toNat, PatchHunk.newHunk]
  split <;> rfl

/-- Reading undoes printing: the table of a printed patch has one entry for each path of a file with
a content part, and the entry holds the lines on the new sides of all hunks that are printed for the
path. -/
theorem entries_ofPatch_render (p : Patch) (hPlain : ∀ f ∈ p.files, f.IsPlain) :
    ((ofPatch p.render).entries.map Prod.fst).Nodup ∧
    (∀ path, path ∈ (ofPatch p.render).entries.map Prod.fst ↔
      ∃ f ∈ p.files, f.path = path ∧ (f.hunks ≠ [] ∨ f.oldPath = none)) ∧
    ∀ path lines, (path, lines) ∈ (ofPatch p.render).entries → ∀ n : LineNumber, n ∈ lines ↔
      ∃ f ∈ p.files, f.path = path ∧ ∃ h ∈ f.hunks, h.newStart.toNat ≤ n.toNat ∧
        n.toNat < min (h.newStart.toNat + if h.abbreviated then 1 else h.newCount.toNat)
          4294967295 := by
  have hCovers := covers_ofPatch_render hPlain
  refine ⟨nodup_keys _, ?_, ?_⟩
  · intro path
    rw [mem_keys_iff]
    exact hCovers.named path
  · intro path lines hEntry n
    rw [← linesOf_of_mem hEntry, hCovers.touched]
    simp only [mem_lines_newHunk]

/-- A path comes up twice, a rename has no content, body lines look like headers, and a hunk goes
past the last line number. -/
theorem entries_ofPatch_render_repeated :
    let p : Patch := ⟨[
      ⟨"a b.js", some "old.js",
        [⟨1, 1, 4294967294, 5, false, [.removed "++ b/x.js", .added "@@ -1 +9 @@"]⟩]⟩,
      ⟨"c.rb", some "d.rb", []⟩,
      ⟨"a b.js", none, [⟨0, 0, 7, 9, true, []⟩]⟩]⟩
    p.check false = .ok () ∧ (∀ f ∈ p.files, f.IsPlain) ∧
      (∀ path, path ∈ (ofPatch p.render).entries.map Prod.fst ↔ path = "a b.js") ∧
      ∀ lines, ("a b.js", lines) ∈ (ofPatch p.render).entries →
        ∀ n : LineNumber, n ∈ lines ↔ n = 4294967294 ∨ n = 7 := by
  intro p
  have hPlain : ∀ f ∈ p.files, f.IsPlain := by decide
  obtain ⟨_, hKeys, hLines⟩ := entries_ofPatch_render p hPlain
  refine ⟨rfl, hPlain, ?_, ?_⟩
  · intro path
    rw [hKeys]
    simp [p, eq_comm]
  · intro lines hEntry n
    rw [hLines _ lines hEntry, ← UInt32.toNat_inj, ← UInt32.toNat_inj]
    simp [p]
    omega

end LineTable

end TouchedLines
