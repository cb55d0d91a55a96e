import TouchedLines.Proofs.HeaderGrammar
import TouchedLines.Proofs.NearestTargets

/-! # The lines that one hunk adds

A hunk header adds its lines to the file that is named nearest above it and has no other part in the
table of a patch. Its lines are those that its numbers span, with one exception: the end of a hunk
is itself a line number, so that the last line number is in no hunk.
-/

namespace TouchedLines

open Text

namespace Hunk

/-- The line is one of as many as the hunk counts, from its start on. -/
def Spans (h : Hunk) (n : LineNumber) : Prop :=
  h.start.toNat ≤ n.toNat ∧ n.toNat < h.start.toNat + h.count.toNat

theorem toNat_le_last (n : LineNumber) : n.toNat ≤ LineNumber.last.toNat :=
  Nat.le_of_lt_succ n.toNat_lt

theorem mem_lines_iff_spans {h : Hunk} {n : LineNumber} :
    n ∈ h.lines ↔ h.Spans n ∧ n ≠ LineNumber.last := by
  have hBound := toNat_le_last n
  rw [mem_lines, UInt32.le_iff_toNat_le, UInt32.lt_iff_toNat_lt, toNat_stop, Spans, ne_eq,
    ← UInt32.toNat_inj]
  omega

theorem spans_last_iff {h : Hunk} : h.Spans LineNumber.last ↔
    LineNumber.last.toNat < h.start.toNat + h.count.toNat :=
  and_iff_right (toNat_le_last h.start)

/-- No line is lost exactly if the hunk ends at a line number. -/
theorem forall_mem_lines_iff_spans {h : Hunk} : (∀ n, n ∈ h.lines ↔ h.Spans n) ↔
    h.start.toNat + h.count.toNat ≤ LineNumber.last.toNat := by
  rw [← Nat.not_lt, ← spans_last_iff]
  constructor
  · intro hAll hLast
    exact (mem_lines_iff_spans.mp ((hAll _).mpr hLast)).2 rfl
  · intro hLast n
    refine mem_lines_iff_spans.trans (and_iff_left_of_imp ?_)
    rintro hSpans rfl
    exact hLast hSpans

end Hunk

namespace LineTable

/-- The second table has the paths of the first and their lines, and besides these the given lines
of one path. -/
structure Gains (path : String) (lines : LineSet) (t u : LineTable) : Prop where
  named : ∀ q, (u.find? q).isSome = true ↔ (t.find? q).isSome = true
  touched : ∀ q n, n ∈ u.linesOf q ↔ n ∈ t.linesOf q ∨ q = path ∧ n ∈ lines

theorem gains_add {t : LineTable} {path : String} (hNamed : (t.find? path).isSome = true)
    (lines : LineSet) : Gains path lines t (t.add path lines) where
  named q := by
    rw [isSome_find?_add]
    refine or_iff_right_of_imp ?_
    rintro rfl
    exact hNamed
  touched q n := by
    rw [linesOf_add]
    by_cases hq : q = path
    · simp [hq, LineSet.mem_union]
    · simp [hq]

theorem Gains.add {path : String} {lines : LineSet} {t u : LineTable} (h : Gains path lines t u)
    (p : String) (more : LineSet) : Gains path lines (t.add p more) (u.add p more) where
  named q := by rw [isSome_find?_add, isSome_find?_add, h.named]
  touched q n := by
    rw [linesOf_add, linesOf_add]
    by_cases hq : q = p
    · rw [if_pos hq, if_pos hq, LineSet.mem_union, LineSet.mem_union, h.touched, hq, or_right_comm]
    · rw [if_neg hq, if_neg hq, h.touched]

end LineTable

namespace PatchReading

open LineTable

variable {path : String} {lines : LineSet} {r s : PatchReading}

/-- What two readings do with a line depends on their targets alone. -/
theorem read_of_gains (hTarget : s.target = r.target) (h : Gains path lines r.table s.table)
    (line : Line) : (s.read line).target = (r.read line).target ∧
      Gains path lines (r.read line).table (s.read line).table := by
  unfold read
  rw [hTarget]
  split
  · exact ⟨rfl, h.add _ _⟩
  · split
    · exact ⟨rfl, h.add _ _⟩
    · exact ⟨hTarget, h⟩

theorem foldl_read_of_gains (hTarget : s.target = r.target) (h : Gains path lines r.table s.table)
    (below : List Line) :
    Gains path lines (below.foldl read r).table (below.foldl read s).table := by
  induction below generalizing r s with
  | nil => exact h
  | cons line below ih =>
    obtain ⟨hNext, hGains⟩ := read_of_gains hTarget h line
    exact ih hNext hGains

/-- A header might as well be missing, but for its lines. -/
theorem gains_of_ofHeader? {above : List Line} {header : Line} {hunk : Hunk}
    (hNearest : NearestNames above path) (hHeader : Hunk.ofHeader? header = some hunk)
    (below : List Line) :
    Gains path hunk.lines ((above ++ below).foldl read ⟨∅, none⟩).table
      ((above ++ header :: below).foldl read ⟨∅, none⟩).table := by
  have hKnows := knows_foldl above
  have hAfter : targetAfter above = some path := targetAfter_eq_some_iff.mpr hNearest
  have hTarget := hKnows.target.trans hAfter
  have hNone := targetOf?_eq_none_of_ofHeader? hHeader
  have hRead : (above.foldl read ⟨∅, none⟩).read header =
      ⟨(above.foldl read ⟨∅, none⟩).table.add path hunk.lines, some path⟩ := by
    rw [read, hNone, hHeader, hTarget]
  have hNamed : ((above.foldl read ⟨∅, none⟩).table.find? path).isSome = true :=
    (hKnows.named path).mpr (List.mem_of_getLast? hAfter)
  rw [List.foldl_append, List.foldl_append, List.foldl_cons, hRead]
  exact foldl_read_of_gains hTarget.symm (gains_add hNamed hunk.lines) below

end PatchReading

open PatchReading in
/-- A header whose numbers fit is read, whatever its old side and the text behind it, and adds to
the file named nearest above it the lines that its numbers span, but for the last line number. So
all of them are added exactly if the end of the hunk is a line number; otherwise the last one is
lost. -/
theorem LineTable.ofPatch_adds_range {header : HeaderText} {hunk : Hunk}
    (hStart : header.start.value = hunk.start.toNat) (hCount : header.count = hunk.count.toNat) :
    Hunk.ofHeader header.text = .ok hunk ∧
    ((∀ n, n ∈ hunk.lines ↔ hunk.Spans n) ↔
      hunk.start.toNat + hunk.count.toNat ≤ LineNumber.last.toNat) ∧
    ∀ (patch path : String) (above below : List Line),
      splitReturnLines patch.toList = above ++ header.text :: below → NearestNames above path →
      let others := ((above ++ below).foldl read ⟨∅, none⟩).table
      (∀ q, q ∈ (ofPatch patch).entries.map Prod.fst ↔ q ∈ others.entries.map Prod.fst) ∧
      ∀ q n, n ∈ (ofPatch patch).linesOf q ↔
        n ∈ others.linesOf q ∨ q = path ∧ hunk.Spans n ∧ n ≠ LineNumber.last := by
  have hHeader : Hunk.ofHeader? header.text = some hunk :=
    Hunk.ofHeader?_text_eq_some_iff.mpr ⟨hStart, hCount⟩
  refine ⟨Hunk.ofHeader_eq_ok_iff.mpr hHeader, Hunk.forall_mem_lines_iff_spans, ?_⟩
  intro patch path above below hLines hNearest others
  have hGains := gains_of_ofHeader? hNearest hHeader below
  rw [← hLines] at hGains
  constructor
  · intro q
    rw [mem_keys_iff, mem_keys_iff]
    exact hGains.named q
  · intro q n
    rw [← Hunk.mem_lines_iff_spans]
    exact hGains.touched q n

/-- The hunk is as far down as a hunk can be without a loss, and a plus sign stands behind it. -/
theorem LineTable.ofPatch_adds_range_far_down :
    let header : HeaderText := ⟨"-3 ".toList,
      ⟨"4294967290".toList, by decide, List.all_eq_true.mp (by decide)⟩,
      some ⟨"005".toList, by decide, List.all_eq_true.mp (by decide)⟩, " f(+1)".toList, by decide⟩
    let hunk : Hunk := ⟨4294967290, 5⟩
    let patch := "+++ b/a.js\n@@ -3 +4294967290,005 @@ f(+1)\n@@ -9 +7 @@\n"
    header.start.value = hunk.start.toNat ∧ header.count = hunk.count.toNat ∧
      Hunk.ofHeader header.text = .ok hunk ∧ (∀ n, n ∈ hunk.lines ↔ hunk.Spans n) ∧
      ∀ n, n ∈ (ofPatch patch).linesOf "a.js" ↔ n = 7 ∨ hunk.Spans n := by
  intro header hunk patch
  have hStart : header.start.value = hunk.start.toNat := by decide
  have hCount : header.count = hunk.count.toNat := by decide
  have hLines : splitReturnLines patch.toList =
      ["+++ b/a.js".toList] ++ header.text :: ["@@ -9 +7 @@".toList] := by decide +kernel
  have hNearest : PatchReading.NearestNames ["+++ b/a.js".toList] "a.js" :=
    ⟨[], _, [], rfl, ⟨"a.js".toList, rfl, by decide +kernel⟩, by simp⟩
  have hOthers : ((["+++ b/a.js".toList] ++ ["@@ -9 +7 @@".toList]).foldl PatchReading.read
      ⟨∅, none⟩).table.linesOf "a.js" = .singleton 7 := by decide +kernel
  obtain ⟨hRead, hExact, hAdds⟩ := ofPatch_adds_range hStart hCount
  refine ⟨hStart, hCount, hRead, hExact.mpr (by decide), ?_⟩
  intro n
  have hLast : hunk.Spans n → n ≠ LineNumber.last := by
    rintro hSpans rfl
    exact absurd (Hunk.spans_last_iff.mp hSpans) (by decide)
  rw [(hAdds _ _ _ _ hLines hNearest).2, hOthers, and_iff_right rfl, and_iff_left_of_imp hLast]
  exact or_congr_left List.mem_singleton

/-- A hunk of the last line number alone adds no line. -/
theorem Hunk.last_notMem_lines :
    let hunk : Hunk := ⟨4294967295, 1⟩
    hunk.start.toNat + hunk.count.toNat - 1 ≤ 4294967295 ∧
      Hunk.ofHeader "@@ -1,1 +4294967295,1 @@".toList = .ok hunk ∧
      hunk.Spans 4294967295 ∧ 4294967295 ∉ hunk.lines ∧
      (LineTable.ofPatch "+++ b/a.js\n@@ -1,1 +4294967295,1 @@\n").entries = [("a.js", ∅)] := by
  intro hunk
  have hSpans : hunk.Spans 4294967295 := Hunk.spans_last_iff.mpr (by decide)
  exact ⟨by decide, by decide, hSpans, by decide, by decide +kernel⟩

end TouchedLines
