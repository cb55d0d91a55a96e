import Mathlib.Data.List.Induction
import TouchedLines.Diff.LineTable

/-! # Hunks and the files they belong to

A line of a file is touched by a patch if a hunk header covers it and the last target line above
that header names the file. The table of a patch holds exactly these lines: one line of the patch
extends the reading as it extends the relation, and a whole patch follows by induction.
-/

namespace TouchedLines

open Text

namespace LineSet

theorem notMem_empty (n : LineNumber) : n ∉ (∅ : LineSet) := List.not_mem_nil

@[simp] theorem empty_union (s : LineSet) : ∅ ∪ s = s :=
  ext fun n => mem_union.trans (or_iff_right (notMem_empty n))

@[simp] theorem union_empty (s : LineSet) : s ∪ ∅ = s :=
  ext fun n => mem_union.trans (or_iff_left (notMem_empty n))

end LineSet

namespace LineTable

theorem lookup_eq_none_of_forall_lt {path : String} {entries : List (String × LineSet)}
    (h : ∀ q ∈ entries.map Prod.fst, path < q) : entries.lookup path = none := by
  rw [List.lookup_eq_none_iff]
  intro entry hEntry
  have hlt := h entry.1 (List.mem_map_of_mem hEntry)
  rw [bne_iff_ne]
  exact fun hEq => String.lt_irrefl _ (hEq ▸ hlt)

theorem lookup_addTo {path : String} {lines : LineSet} {entries : List (String × LineSet)}
    (h : (entries.map Prod.fst).Pairwise (· < ·)) (q : String) :
    (addTo path lines entries).lookup q =
      if q = path then some ((entries.lookup path).getD ∅ ∪ lines) else entries.lookup q := by
  have hBeq : ∀ {p : String}, q ≠ p → (q == p) = false := fun hq => by simpa using hq
  fun_induction addTo path lines entries with
  | case1 =>
    by_cases hq : q = path <;> simp [hq]
  | case2 s rest =>
    by_cases hq : q = path
    · simp [hq]
    · simp [List.lookup_cons, hq, hBeq hq]
  | case3 p s rest hne hlt =>
    rw [List.map_cons, List.pairwise_cons] at h
    have hAbove : ∀ q ∈ ((p, s) :: rest).map Prod.fst, path < q := by
      intro q hMem
      rcases List.mem_cons.mp hMem with rfl | hRest
      · exact hlt
      · exact String.lt_trans hlt (h.1 q hRest)
    rw [lookup_eq_none_of_forall_lt hAbove, List.lookup_cons]
    by_cases hq : q = path
    · simp [hq]
    · simp [hq, hBeq hq]
  | case4 p s rest hne hlt ih =>
    rw [List.map_cons, List.pairwise_cons] at h
    have hPath : (path == p) = false := by simpa using hne
    rw [List.lookup_cons, ih h.2]
    by_cases hq : q = path
    · simp [hq, hPath, List.lookup_cons]
    · simp [hq, List.lookup_cons]

theorem find?_add (t : LineTable) (path : String) (lines : LineSet) (q : String) :
    (t.add path lines).find? q =
      if q = path then some ((t.find? path).getD ∅ ∪ lines) else t.find? q :=
  lookup_addTo t.ascending q

/-- The lines of a path; none where the table lacks it. -/
def linesOf (t : LineTable) (path : String) : LineSet := (t.find? path).getD ∅

theorem linesOf_add (t : LineTable) (path : String) (lines : LineSet) (q : String) :
    (t.add path lines).linesOf q = if q = path then t.linesOf path ∪ lines else t.linesOf q := by
  unfold linesOf
  rw [find?_add]
  split <;> rfl

theorem mem_linesOf_iff {t : LineTable} {path : String} {n : LineNumber} :
    n ∈ t.linesOf path ↔ ∃ lines, t.find? path = some lines ∧ n ∈ lines := by
  rw [linesOf]
  cases t.find? path with
  | none => exact iff_of_false (LineSet.notMem_empty n) (by simp)
  | some lines => simp

theorem nodup_keys (t : LineTable) : (t.entries.map Prod.fst).Nodup := by
  refine t.ascending.imp ?_
  rintro p _ hLess rfl
  exact String.lt_irrefl p hLess

theorem mem_keys_iff {t : LineTable} {path : String} :
    path ∈ t.entries.map Prod.fst ↔ (t.find? path).isSome = true := by
  rw [find?, ← Option.ne_none_iff_isSome, ne_eq, List.lookup_eq_none_iff]
  simp

theorem linesOf_of_mem {t : LineTable} {path : String} {lines : LineSet}
    (h : (path, lines) ∈ t.entries) : t.linesOf path = lines := by
  have hFind : t.entries.lookup path = some lines := by
    have hNodup := t.nodup_keys
    generalize t.entries = entries at h hNodup
    induction entries with
    | nil => cases h
    | cons entry rest ih =>
      obtain ⟨first, set⟩ := entry
      obtain ⟨hFirst, hRest⟩ := List.nodup_cons.mp hNodup
      rcases List.mem_cons.mp h with hEq | hMem
      · obtain ⟨rfl, rfl⟩ := Prod.mk.inj hEq
        exact List.lookup_cons_self
      · have hNe : path ≠ first := by
          rintro rfl
          exact hFirst (List.mem_map.mpr ⟨_, hMem, rfl⟩)
        have hBeq : (path == first) = false := by simpa using hNe
        rw [List.lookup_cons, hBeq]
        exact ih hMem hRest
  rw [linesOf, find?, hFind]
  rfl

theorem isSome_find?_add {t : LineTable} {path : String} {lines : LineSet} {q : String} :
    ((t.add path lines).find? q).isSome = true ↔ q = path ∨ (t.find? q).isSome = true := by
  rw [find?_add]
  by_cases hq : q = path <;> simp [hq]

end LineTable

namespace PatchReading

/-- The file of a hunk below some lines: the one that the last target line among them names. -/
def targetAfter (lines : List Line) : Option String := (lines.filterMap targetOf?).getLast?

/-- Some lines of a patch touch a line of the file at a path. -/
def TouchedIn (lines : List Line) (path : String) (n : LineNumber) : Prop :=
  ∃ above header below hunk, lines = above ++ header :: below ∧
    targetAfter above = some path ∧ Hunk.ofHeader? header = some hunk ∧ n ∈ hunk.lines

theorem targetAfter_append_singleton (lines : List Line) (line : Line) :
    targetAfter (lines ++ [line]) = (targetOf? line).or (targetAfter lines) := by
  unfold targetAfter
  rw [List.filterMap_append]
  cases h : targetOf? line <;> simp [h]

theorem touchedIn_append_singleton {lines : List Line} {line : Line} {path : String}
    {n : LineNumber} :
    TouchedIn (lines ++ [line]) path n ↔ TouchedIn lines path n ∨
      (targetAfter lines = some path ∧
        ∃ hunk, Hunk.ofHeader? line = some hunk ∧ n ∈ hunk.lines) := by
  constructor
  · rintro ⟨above, header, below, hunk, hLines, hTarget, hHeader, hMem⟩
    -- the header is the new line, or a split of the lines before it
    rcases List.eq_nil_or_concat below with rfl | ⟨below, last, rfl⟩
    · obtain ⟨rfl, hLine⟩ := List.append_inj' hLines rfl
      obtain rfl : line = header := by simpa using hLine
      exact .inr ⟨hTarget, hunk, hHeader, hMem⟩
    · rw [List.concat_eq_append, ← List.cons_append, ← List.append_assoc] at hLines
      obtain ⟨rfl, _⟩ := List.append_inj' hLines rfl
      exact .inl ⟨above, header, below, hunk, rfl, hTarget, hHeader, hMem⟩
  · rintro (⟨above, header, below, hunk, rfl, hTarget, hHeader, hMem⟩ |
      ⟨hTarget, hunk, hHeader, hMem⟩)
    · exact ⟨above, header, below ++ [line], hunk, by simp, hTarget, hHeader, hMem⟩
    · exact ⟨lines, line, [], hunk, rfl, hTarget, hHeader, hMem⟩

/-- A target line starts with a plus sign, a hunk header does not. -/
theorem ofHeader?_eq_none_of_targetOf? {line : Line} {path : String}
    (h : targetOf? line = some path) : Hunk.ofHeader? line = none := by
  obtain ⟨rest, hRest, _⟩ := Option.map_eq_some_iff.mp h
  rw [eq_append_of_dropStart? hRest]
  rfl

theorem targetOf?_eq_none_of_ofHeader? {line : Line} {hunk : Hunk}
    (h : Hunk.ofHeader? line = some hunk) : targetOf? line = none := by
  cases hTarget : targetOf? line with
  | none => rfl
  | some path =>
    rw [ofHeader?_eq_none_of_targetOf? hTarget] at h
    cases h

/-- What a reading knows after some lines of a patch. -/
structure Knows (lines : List Line) (r : PatchReading) : Prop where
  target : r.target = targetAfter lines
  named : ∀ path, (r.table.find? path).isSome = true ↔ path ∈ lines.filterMap targetOf?
  touched : ∀ path n, n ∈ r.table.linesOf path ↔ TouchedIn lines path n

theorem knows_nil : Knows [] ⟨∅, none⟩ where
  target := rfl
  named path := by simp [LineTable.find?, LineTable.empty, EmptyCollection.emptyCollection]
  touched path n := by
    refine iff_of_false (LineSet.notMem_empty n) ?_
    rintro ⟨above, header, below, hunk, hLines, _⟩
    simp at hLines

theorem Knows.read {lines : List Line} {r : PatchReading} (h : Knows lines r) (line : Line) :
    Knows (lines ++ [line]) (r.read line) := by
  unfold PatchReading.read
  split
  · rename_i path hTarget
    have hHeader := ofHeader?_eq_none_of_targetOf? hTarget
    refine ⟨?_, ?_, ?_⟩
    · rw [targetAfter_append_singleton, hTarget]
      rfl
    · intro q
      rw [LineTable.isSome_find?_add, h.named]
      simp [hTarget, or_comm]
    · intro q n
      rw [touchedIn_append_singleton, ← h.touched, LineTable.linesOf_add]
      by_cases hq : q = path <;> simp [hq, hHeader]
  · rename_i hTarget
    have hAfter : targetAfter (lines ++ [line]) = targetAfter lines := by
      rw [targetAfter_append_singleton, hTarget]
      rfl
    split
    · rename_i hunk path hHeader hPath
      have hFile : targetAfter lines = some path := h.target.symm.trans hPath
      refine ⟨h.target.trans hAfter.symm, ?_, ?_⟩
      · intro q
        rw [LineTable.isSome_find?_add, h.named, List.filterMap_append]
        have hNamed : path ∈ lines.filterMap targetOf? := List.mem_of_getLast? hFile
        simp only [List.filterMap_cons, hTarget, List.filterMap_nil, List.append_nil]
        exact or_iff_right_of_imp fun hq => hq ▸ hNamed
      · intro q n
        rw [touchedIn_append_singleton, ← h.touched, LineTable.linesOf_add, hFile]
        by_cases hq : q = path
        · simp [hq, hHeader, LineSet.mem_union]
        · simp [hq, Ne.symm hq]
    · rename_i hNone
      refine ⟨h.target.trans hAfter.symm, ?_, ?_⟩
      · intro q
        rw [h.named, List.filterMap_append]
        simp [hTarget]
      · intro q n
        rw [touchedIn_append_singleton, ← h.touched]
        refine (or_iff_left ?_).symm
        rintro ⟨hFile, hunk, hHeader, _⟩
        exact hNone hunk q hHeader (h.target.trans hFile)

theorem knows_foldl (lines : List Line) : Knows lines (lines.foldl read ⟨∅, none⟩) := by
  induction lines using List.reverseRecOn with
  | nil => exact knows_nil
  | append_singleton lines line ih =>
    rw [List.foldl_append]
    exact ih.read line

end PatchReading

/-- The patch touches a line of the file at a path: a hunk header covers it, below a last target
line that names the path. -/
def Touches (patch path : String) (n : LineNumber) : Prop :=
  PatchReading.TouchedIn (splitReturnLines patch.toList) path n

theorem mem_linesOf_ofPatch {patch path : String} {n : LineNumber} :
    n ∈ (LineTable.ofPatch patch).linesOf path ↔ Touches patch path n :=
  (PatchReading.knows_foldl _).touched path n

instance (patch path : String) (n : LineNumber) : Decidable (Touches patch path n) :=
  decidable_of_iff _ mem_linesOf_ofPatch

theorem isSome_find?_ofPatch {patch path : String} :
    ((LineTable.ofPatch patch).find? path).isSome = true ↔
      path ∈ (splitReturnLines patch.toList).filterMap PatchReading.targetOf? :=
  (PatchReading.knows_foldl _).named path

end TouchedLines
