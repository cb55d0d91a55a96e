import Mathlib.Data.List.Sort
import TouchedLines.Linter.Builtin

/-! # Full and filtered scans

Both scans are walks over the indexes of a content: what a linter says of a line is `offensesAt` of
its index, a full scan visits every index and a filtered scan those whose line number is in the set.
The restriction of a full scan to a set is therefore the filtered scan, up to the end of the file.
-/

namespace TouchedLines

open Text

namespace LineNumber

/-- The index of the line with a number; no line has the number 0. -/
def index? (n : LineNumber) : Option Nat := if n.toNat = 0 then none else some (n.toNat - 1)

theorem index?_eq_some_iff {n : LineNumber} {index : Nat} :
    index? n = some index ↔ n.toNat = index + 1 := by
  unfold index?
  split
  · simp
    omega
  · simp
    omega

theorem eq_ofNat_of_index? {n : LineNumber} {index : Nat} (h : index? n = some index) :
    n = UInt32.ofNat (index + 1) := by
  rw [← index?_eq_some_iff.mp h, UInt32.ofNat_toNat]

end LineNumber

/-- How many lines a content has. -/
def lineCount (content : String) : Nat := (splitLines content.toList).length

/-- The indexes of a content whose line number is chosen. Past the last line number there is none
to choose. -/
def indexesWhere (content : String) (chosen : LineNumber → Bool) : List Nat :=
  (List.range (lineCount content)).filter fun index =>
    decide (index + 1 < UInt32.size) && chosen (UInt32.ofNat (index + 1))

theorem mem_indexesWhere {content : String} {chosen : LineNumber → Bool} {index : Nat} :
    index ∈ indexesWhere content chosen ↔
      index < lineCount content ∧ ∃ n, LineNumber.index? n = some index ∧ chosen n = true := by
  simp only [indexesWhere, List.mem_filter, List.mem_range, Bool.and_eq_true, decide_eq_true_eq]
  apply and_congr_right
  intro _
  constructor
  · rintro ⟨hSize, hChosen⟩
    refine ⟨_, LineNumber.index?_eq_some_iff.mpr ?_, hChosen⟩
    rw [UInt32.toNat_ofNat', Nat.mod_eq_of_lt hSize]
  · rintro ⟨n, hIndex, hChosen⟩
    refine ⟨?_, LineNumber.eq_ofNat_of_index? hIndex ▸ hChosen⟩
    rw [← LineNumber.index?_eq_some_iff.mp hIndex]
    exact n.toNat_lt

theorem pairwise_indexesWhere (content : String) (chosen : LineNumber → Bool) :
    (indexesWhere content chosen).Pairwise (· < ·) :=
  List.Pairwise.filter _ List.pairwise_lt_range

theorem takeWhile_eq_filter_of_ascending {numbers : List LineNumber}
    (h : numbers.Pairwise (· < ·)) (bound : Nat) :
    numbers.takeWhile (fun n => decide (n.toNat ≤ bound)) =
      numbers.filter fun n => decide (n.toNat ≤ bound) := by
  induction numbers with
  | nil => rfl
  | cons n rest ih =>
    obtain ⟨hFirst, hRest⟩ := List.pairwise_cons.mp h
    by_cases hn : n.toNat ≤ bound
    · simp [hn, ih hRest]
    · have hAbove : ∀ m ∈ rest, ¬m.toNat ≤ bound := by
        intro m hm
        have := UInt32.lt_iff_toNat_lt.mp (hFirst m hm)
        omega
      simpa [hn] using hAbove

/-- Both lists ascend and have the same members: a walk through the set from its smallest member
until it leaves the content comes to the same indexes as a walk through the content. -/
theorem filterMap_index?_takeWhile (content : String) (lines : LineSet) :
    (lines.toList.takeWhile fun n => decide (n.toNat ≤ lineCount content)).filterMap
        LineNumber.index? =
      indexesWhere content fun n => decide (n ∈ lines) := by
  rw [takeWhile_eq_filter_of_ascending lines.ascending]
  refine List.Pairwise.eq_of_mem_iff (r := (· < ·)) ?_ (pairwise_indexesWhere _ _) ?_
  · refine (lines.ascending.filter _).filterMap _ ?_
    intro m n hmn i hi j hj
    have := UInt32.lt_iff_toNat_lt.mp hmn
    have := LineNumber.index?_eq_some_iff.mp hi
    have := LineNumber.index?_eq_some_iff.mp hj
    omega
  · intro index
    rw [mem_indexesWhere]
    simp only [List.mem_filterMap, List.mem_filter, decide_eq_true_eq]
    constructor
    · rintro ⟨n, ⟨hMem, hBound⟩, hIndex⟩
      have := LineNumber.index?_eq_some_iff.mp hIndex
      exact ⟨by omega, n, hIndex, hMem⟩
    · rintro ⟨hBound, n, hIndex, hMem⟩
      have := LineNumber.index?_eq_some_iff.mp hIndex
      exact ⟨n, ⟨hMem, by omega⟩, hIndex⟩

namespace Linter

/-- The offenses of the line at an index; none past the end of the content. -/
def offensesAt (l : Linter) (content : String) (index : Nat) : List Offense :=
  match (LineView.views (splitLines content.toList))[index]? with
  | none => []
  | some v => l.inspect (UInt32.ofNat (index + 1)) v

theorem tableOffense_eq_some_iff {l : Linter} {n : LineNumber} {v : LineView} {o : Offense} :
    l.tableOffense n v = some o ↔
      l.skips v = false ∧ ∃ r, firstMatch l.tables v = some r ∧ r.offense n v.line = o := by
  rw [tableOffense]
  split
  · rename_i hSkips
    simp [hSkips]
  · rename_i hSkips
    rw [Option.map_eq_some_iff, Bool.eq_false_iff.mpr hSkips, eq_self_iff_true, true_and]

theorem mem_of_firstMatch {tables : List RuleTable} {v : LineView} {r : Rule}
    (h : firstMatch tables v = some r) : ∃ table ∈ tables, r ∈ table.rules :=
  List.mem_flatMap.mp (List.mem_of_find?_eq_some h)

theorem line_of_mem_inspect {l : Linter} {n : LineNumber} {v : LineView} {o : Offense}
    (h : o ∈ l.inspect n v) : o.line = n := by
  rcases List.mem_append.mp h with h | h
  · obtain ⟨_, r, _, rfl⟩ := tableOffense_eq_some_iff.mp (Option.mem_toList.mp h)
    rfl
  · exact Layout.line_of_trailingWhitespace (Option.mem_toList.mp h)

/-- What is said of the line at an index is what the tables and the layout say of its view. -/
theorem mem_offensesAt_iff {l : Linter} {content : String} {index : Nat} {o : Offense} :
    o ∈ l.offensesAt content index ↔
      ∃ v, (LineView.views (splitLines content.toList))[index]? = some v ∧
        (l.tableOffense (UInt32.ofNat (index + 1)) v = some o ∨
          Layout.trailingWhitespace (UInt32.ofNat (index + 1)) v.line = some o) := by
  rw [offensesAt]
  cases (LineView.views (splitLines content.toList))[index]? with
  | none => simp
  | some v => simp [inspect]

theorem line_of_mem_offensesAt {l : Linter} {content : String} {index : Nat} {o : Offense}
    (h : o ∈ l.offensesAt content index) : o.line = UInt32.ofNat (index + 1) := by
  unfold offensesAt at h
  split at h
  · cases h
  · exact line_of_mem_inspect h

theorem scanAll_eq_flatMap (l : Linter) (start : Nat) (views : List LineView) :
    l.scanAll start views = (List.range views.length).flatMap fun index =>
      match views[index]? with
      | none => []
      | some v => l.inspect (UInt32.ofNat (start + index + 1)) v := by
  induction views generalizing start with
  | nil => rfl
  | cons v rest ih =>
    rw [scanAll, ih, List.length_cons, List.range_succ_eq_map, List.flatMap_cons, List.flatMap_map]
    simp only [List.getElem?_cons_zero, List.getElem?_cons_succ, Nat.add_zero, Nat.succ_eq_add_one]
    congr 1
    apply List.flatMap_congr
    intro index _
    rw [show start + 1 + index = start + (index + 1) by omega]

theorem length_views (content : String) :
    (LineView.views (splitLines content.toList)).length = lineCount content :=
  LineView.length_viewsFrom [] _

theorem lintFull_eq (l : Linter) (content : String) :
    l.lintFull content =
      (List.range (lineCount content)).flatMap (l.offensesAt content) ++
        (Layout.missingFinalNewline content.toList).toList := by
  rw [lintFull, scanAll_eq_flatMap, length_views]
  simp only [Nat.zero_add]
  rfl

theorem inspectNumbered_eq (l : Linter) (content : String) (n : LineNumber) :
    l.inspectNumbered (LineView.views (splitLines content.toList)) n =
      (LineNumber.index? n).toList.flatMap (l.offensesAt content) := by
  unfold inspectNumbered
  cases hn : n.toNat with
  | zero => simp [LineNumber.index?, hn]
  | succ index =>
    have hIndex : LineNumber.index? n = some index := LineNumber.index?_eq_some_iff.mpr hn
    rw [hIndex, Option.toList_some, List.flatMap_singleton, LineNumber.eq_ofNat_of_index? hIndex]
    rfl

theorem lintFiltered_eq (l : Linter) (content : String) (lines : LineSet) :
    l.lintFiltered content lines =
      (indexesWhere content fun n => decide (n ∈ lines)).flatMap (l.offensesAt content) := by
  rw [← filterMap_index?_takeWhile]
  simp only [lintFiltered, length_views]
  generalize lines.toList.takeWhile _ = numbers
  induction numbers with
  | nil => rfl
  | cons n rest ih =>
    rw [List.flatMap_cons, ih, inspectNumbered_eq]
    cases hIndex : LineNumber.index? n <;> simp [hIndex]

/-- What a scan reports, it reports of a line or of the end of the content. -/
theorem mem_lint_cases {l : Linter} {content : String} {lines : Option LineSet} {o : Offense}
    (h : o ∈ l.lint content lines) :
    (∃ index, o ∈ l.offensesAt content index) ∨
      Layout.missingFinalNewline content.toList = some o := by
  cases lines with
  | none =>
    rw [lint, lintFull_eq] at h
    rcases List.mem_append.mp h with hScan | hEnd
    · obtain ⟨index, -, ho⟩ := List.mem_flatMap.mp hScan
      exact .inl ⟨index, ho⟩
    · exact .inr (Option.mem_toList.mp hEnd)
  | some lines =>
    rw [lint, lintFiltered_eq] at h
    obtain ⟨index, -, ho⟩ := List.mem_flatMap.mp h
    exact .inl ⟨index, ho⟩

/-- The offenses of one line stand or fall together. -/
theorem filter_line_offensesAt (l : Linter) (content : String) (index : Nat)
    (chosen : LineNumber → Bool) :
    (l.offensesAt content index).filter (fun o => chosen o.line) =
      if chosen (UInt32.ofNat (index + 1)) then l.offensesAt content index else [] := by
  split
  · rename_i hChosen
    rw [List.filter_eq_self]
    intro o ho
    rwa [line_of_mem_offensesAt ho]
  · rename_i hChosen
    rw [List.filter_eq_nil_iff]
    intro o ho
    rwa [line_of_mem_offensesAt ho]

/-- Below the last line number the number of an offense tells its index, so that a choice of numbers
is a choice of indexes. -/
theorem filter_line_flatMap_offensesAt (l : Linter) (content : String)
    (chosen : LineNumber → Bool) (hSize : lineCount content < UInt32.size) :
    ((List.range (lineCount content)).flatMap (l.offensesAt content)).filter
        (fun o => chosen o.line) =
      (indexesWhere content chosen).flatMap (l.offensesAt content) := by
  have hNumbered : ∀ index ∈ List.range (lineCount content), index + 1 < UInt32.size := by
    intro index hIndex
    have := List.mem_range.mp hIndex
    omega
  rw [List.filter_flatMap, indexesWhere]
  generalize List.range (lineCount content) = indexes at hNumbered
  induction indexes with
  | nil => rfl
  | cons index rest ih =>
    have hFirst := hNumbered index List.mem_cons_self
    have hRest := ih fun i hi => hNumbered i (List.mem_cons_of_mem _ hi)
    rw [List.flatMap_cons, hRest, filter_line_offensesAt, List.filter_cons, decide_eq_true hFirst,
      Bool.true_and]
    split <;> rfl

/-- No rule of the tables bears the name of the check at the end of a file. -/
def LeavesEndUnnamed (l : Linter) : Prop :=
  ∀ t ∈ l.tables, ∀ r ∈ t.rules, r.id ≠ "missing_final_newline"

theorem leavesEndUnnamed_of_mem_builtin {l : Linter} (h : l ∈ builtin) : l.LeavesEndUnnamed := by
  have hAll : ∀ l ∈ builtin, ∀ t ∈ l.tables, ∀ r ∈ t.rules, r.id ≠ "missing_final_newline" := by
    decide
  exact hAll l h

theorem nodup_ids_of_mem_builtin {l : Linter} (h : l ∈ builtin) :
    ((l.tables.flatMap RuleTable.rules).map Rule.id).Nodup := by
  have hAll : ∀ l ∈ builtin, ((l.tables.flatMap RuleTable.rules).map Rule.id).Nodup := by decide
  exact hAll l h

/-- The name in an offense of the tables tells which rule it is from. -/
theorem firstMatch_of_rule_eq {l : Linter} (hl : l ∈ builtin) {n : LineNumber} {v : LineView}
    {o : Offense} (h : l.tableOffense n v = some o) {r : Rule}
    (hr : r ∈ l.tables.flatMap RuleTable.rules) (hRule : o.rule = r.id) :
    firstMatch l.tables v = some r := by
  obtain ⟨-, r', hFirst, rfl⟩ := tableOffense_eq_some_iff.mp h
  obtain rfl := List.inj_on_of_nodup_map (nodup_ids_of_mem_builtin hl)
    (List.mem_of_find?_eq_some hFirst) hr hRule
  exact hFirst

theorem mem_builtin_of_ofCategory? {category : Category} {l : Linter}
    (h : ofCategory? category = some l) : l ∈ builtin := by
  cases category <;> simp [ofCategory?] at h <;> simp [builtin, h]

theorem rule_ne_of_mem_offensesAt {l : Linter} (hNames : l.LeavesEndUnnamed) {content : String}
    {index : Nat} {o : Offense} (h : o ∈ l.offensesAt content index) :
    o.rule ≠ "missing_final_newline" := by
  obtain ⟨v, -, hTable | hLayout⟩ := mem_offensesAt_iff.mp h
  · obtain ⟨_, r, hr, rfl⟩ := tableOffense_eq_some_iff.mp hTable
    obtain ⟨t, ht, hrt⟩ := mem_of_firstMatch hr
    exact hNames t ht r hrt
  · rw [Layout.rule_of_trailingWhitespace hLayout]
    simp

/-- Dropping the offense at the end of the file from a full scan leaves what is said of lines. -/
theorem filter_rule_lintFull {l : Linter} (hNames : l.LeavesEndUnnamed) (content : String) :
    (l.lintFull content).filter (fun o => decide (o.rule ≠ "missing_final_newline")) =
      (List.range (lineCount content)).flatMap (l.offensesAt content) := by
  have hEnd : (Layout.missingFinalNewline content.toList).toList.filter
      (fun o => decide (o.rule ≠ "missing_final_newline")) = [] := by
    unfold Layout.missingFinalNewline
    split <;> simp
  rw [lintFull_eq, List.filter_append, hEnd, List.append_nil, List.filter_eq_self]
  intro o ho
  obtain ⟨index, _, ho⟩ := List.mem_flatMap.mp ho
  simpa using rule_ne_of_mem_offensesAt hNames ho

theorem restrict_lintFull (l : Linter) (content : String) (lines : LineSet)
    (hSize : lineCount content < UInt32.size) :
    Offense.restrict (l.lintFull content) lines =
      l.lintFiltered content lines ++
        Offense.restrict (Layout.missingFinalNewline content.toList).toList lines := by
  rw [lintFull_eq, lintFiltered_eq, ← filter_line_flatMap_offensesAt l content _ hSize]
  exact List.filter_append ..

theorem lintFiltered_eq_filter {l : Linter} (hNames : l.LeavesEndUnnamed) (content : String)
    (lines : LineSet) (hSize : lineCount content < UInt32.size) :
    l.lintFiltered content lines =
      (Offense.restrict (l.lintFull content) lines).filter
        fun o => decide (o.rule ≠ "missing_final_newline") := by
  rw [Offense.restrict, List.filter_comm, filter_rule_lintFull hNames, lintFiltered_eq,
    ← filter_line_flatMap_offensesAt l content _ hSize]

/-- A filtered scan is the full scan restricted to the set, in the same order and without the
offense at the end of the file: a restricted full scan ends with that offense or is the filtered
scan. Where no rule borrows its name, the builtin linters included, it is told by the name of its
rule. -/
theorem lintFiltered_eq_restrict (content : String) (lines : LineSet)
    (hSize : lineCount content < UInt32.size) :
    (∀ l : Linter, Offense.restrict (l.lintFull content) lines =
      l.lintFiltered content lines ++
        Offense.restrict (Layout.missingFinalNewline content.toList).toList lines) ∧
    (∀ l : Linter, l.LeavesEndUnnamed → l.lintFiltered content lines =
      (Offense.restrict (l.lintFull content) lines).filter
        fun o => decide (o.rule ≠ "missing_final_newline")) ∧
    ∀ l ∈ builtin, l.lintFiltered content lines =
      (Offense.restrict (l.lintFull content) lines).filter
        fun o => decide (o.rule ≠ "missing_final_newline") := by
  refine ⟨?_, ?_, ?_⟩
  · intro l
    exact restrict_lintFull l content lines hSize
  · intro l hNames
    exact lintFiltered_eq_filter hNames content lines hSize
  · intro l hl
    exact lintFiltered_eq_filter (leavesEndUnnamed_of_mem_builtin hl) content lines hSize

/-- The set holds 0 and a number past the end, and the last line lacks its newline. -/
theorem lintFiltered_eq_restrict_unterminated :
    lineCount "<%if x %> \n<p>" < UInt32.size ∧
      Template.linter.lintFiltered "<%if x %> \n<p>" (.ofList [7, 0, 2, 1]) =
        (Offense.restrict (Template.linter.lintFull "<%if x %> \n<p>")
          (.ofList [7, 0, 2, 1])).filter fun o => decide (o.rule ≠ "missing_final_newline") := by
  have hSize : lineCount "<%if x %> \n<p>" < UInt32.size := by decide
  have hRestrict := lintFiltered_eq_restrict "<%if x %> \n<p>" (.ofList [7, 0, 2, 1]) hSize
  exact ⟨hSize, hRestrict.2.2 Template.linter (by simp [builtin])⟩

example : (Template.linter.lintFiltered "<%if x %> \n<p>" (.ofList [7, 0, 2, 1])).map
    (fun o => (o.rule, o.line)) = [("bad_spacing", 1), ("trailing_whitespace", 1)] := by cbv

end Linter

end TouchedLines
