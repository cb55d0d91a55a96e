import TouchedLines.Proofs.Scan
import TouchedLines.Sample

/-! # What a scan reports

A scan follows the lines of a content. It says at most two things of each, the offense of the first
rule that meets the line and a trailing space, and a full scan ends with the end of the file.
-/

namespace TouchedLines

open Text

/-- The rule is meant for lines like this one, meets it, and the line is not exempt from it. -/
structure Rule.Meets (r : Rule) (v : LineView) : Prop where
  onBlankLines : r.onBlankLines = v.isBlank
  holds : r.criterion.holds v = true
  exempts : r.exempts v = false

theorem Rule.applies_eq_true_iff {r : Rule} {v : LineView} : r.applies v = true ↔ r.Meets v := by
  rw [applies, fires, Bool.and_eq_true, Bool.and_eq_true, beq_iff_eq, Bool.not_eq_true']
  constructor
  · rintro ⟨hBlank, hHolds, hExempts⟩
    exact ⟨hBlank, hHolds, hExempts⟩
  · rintro ⟨hBlank, hHolds, hExempts⟩
    exact ⟨hBlank, hHolds, hExempts⟩

/-- Across the tables in their order, no rule before this one meets the line. -/
def MeetsFirst (tables : List RuleTable) (v : LineView) (r : Rule) : Prop :=
  ∃ earlier later, tables.flatMap RuleTable.rules = earlier ++ r :: later ∧ r.Meets v ∧
    ∀ e ∈ earlier, ¬e.Meets v

theorem firstMatch_eq_some_iff {tables : List RuleTable} {v : LineView} {r : Rule} :
    firstMatch tables v = some r ↔ MeetsFirst tables v r := by
  rw [firstMatch, List.find?_eq_some_iff_append, MeetsFirst]
  simp only [Bool.not_eq_true', ← Bool.not_eq_true, Rule.applies_eq_true_iff]
  constructor
  · rintro ⟨hMeets, earlier, later, hRules, hEarlier⟩
    exact ⟨earlier, later, hRules, hMeets, hEarlier⟩
  · rintro ⟨earlier, later, hRules, hMeets, hEarlier⟩
    exact ⟨hMeets, earlier, later, hRules, hEarlier⟩

namespace Linter

/-- Whether a scan looks at the line with a number. -/
def isChosen : Option LineSet → LineNumber → Bool
  | none, _ => true
  | some lines, n => decide (n ∈ lines)

/-- What a scan says of the end of a content. -/
def endOffense (content : String) : Option LineSet → Option Offense
  | none => Layout.missingFinalNewline content.toList
  | some _ => none

/-- What a scan says of lines. -/
def ofLines (l : Linter) (content : String) (lines : Option LineSet) : List Offense :=
  ((List.range (lineCount content)).flatMap (l.offensesAt content)).filter
    fun o => isChosen lines o.line

theorem lint_eq (l : Linter) (content : String) (lines : Option LineSet)
    (hSize : lineCount content < UInt32.size) :
    l.lint content lines = l.ofLines content lines ++ (endOffense content lines).toList := by
  cases lines with
  | none =>
    have hAll : ∀ o ∈ (List.range (lineCount content)).flatMap (l.offensesAt content),
        isChosen none o.line = true := fun _ _ => rfl
    rw [ofLines, List.filter_eq_self.mpr hAll]
    exact lintFull_eq l content
  | some lines =>
    rw [endOffense, Option.toList_none, List.append_nil]
    exact (lintFiltered_eq l content lines).trans
      (filter_line_flatMap_offensesAt l content _ hSize).symm

theorem mem_ofLines {l : Linter} {content : String} {lines : Option LineSet} {o : Offense}
    (h : o ∈ l.ofLines content lines) : isChosen lines o.line = true ∧
      ∃ index, index < lineCount content ∧ o ∈ l.offensesAt content index := by
  obtain ⟨hScan, hChosen⟩ := List.mem_filter.mp h
  obtain ⟨index, hIndex, ho⟩ := List.mem_flatMap.mp hScan
  exact ⟨hChosen, index, List.mem_range.mp hIndex, ho⟩

section

variable {l : Linter} {content : String} {lines : Option LineSet}
  (hSize : lineCount content < UInt32.size)

include hSize

theorem toNat_line_of_mem_offensesAt {index : Nat} {o : Offense}
    (hIndex : index < lineCount content) (h : o ∈ l.offensesAt content index) :
    o.line.toNat = index + 1 := by
  rw [line_of_mem_offensesAt h, UInt32.toNat_ofNat_of_lt' (by omega)]

theorem pairwise_line_offensesAt :
    ((List.range (lineCount content)).flatMap (l.offensesAt content)).Pairwise
      fun o o' => o.line ≤ o'.line := by
  rw [List.pairwise_flatMap]
  constructor
  · intro index _
    refine List.pairwise_of_forall_mem_list ?_
    intro o ho o' ho'
    rw [line_of_mem_offensesAt ho, line_of_mem_offensesAt ho']
    exact UInt32.le_refl _
  · refine List.pairwise_lt_range.imp_of_mem ?_
    intro i j hi hj hij o ho o' ho'
    rw [UInt32.le_iff_toNat_le,
      toNat_line_of_mem_offensesAt hSize (List.mem_range.mp hi) ho,
      toNat_line_of_mem_offensesAt hSize (List.mem_range.mp hj) ho']
    omega

/-- The number of a line picks out what is said of it. -/
theorem filter_line_eq {index : Nat} {n : LineNumber} (hIndex : index < lineCount content)
    (hn : n.toNat = index + 1) :
    ((List.range (lineCount content)).flatMap (l.offensesAt content)).filter
        (fun o => decide (o.line = n)) = l.offensesAt content index := by
  have hOnly : indexesWhere content (fun m => decide (m = n)) = [index] := by
    refine List.Pairwise.eq_of_mem_iff (r := (· < ·)) (pairwise_indexesWhere _ _)
      (List.pairwise_singleton _ _) ?_
    intro i
    rw [mem_indexesWhere, List.mem_singleton]
    simp only [decide_eq_true_eq, LineNumber.index?_eq_some_iff]
    constructor
    · rintro ⟨-, m, hm, rfl⟩
      omega
    · rintro rfl
      exact ⟨hIndex, n, hn, rfl⟩
  have hFilter := filter_line_flatMap_offensesAt l content (fun m => decide (m = n)) hSize
  rw [hFilter, hOnly, List.flatMap_singleton]

end

/-- What is said of the line `v` with number `n`: `table` by the tables, then `trailing`. -/
structure IsLineReport (l : Linter) (n : LineNumber) (v : LineView)
    (table trailing : Option Offense) : Prop where
  isSome_table_iff : table.isSome ↔
    l.skips v = false ∧ ∃ r ∈ l.tables.flatMap RuleTable.rules, r.Meets v
  first : ∀ o, table = some o → ∃ r, MeetsFirst l.tables v r ∧ o = r.offense n v.line
  table_ne : ∀ o, table = some o → o.rule ≠ "trailing_whitespace"
  isSome_trailing_iff : trailing.isSome ↔ v.line.getLast? = some ' '
  trailing_eq : ∀ o, trailing = some o → o.rule = "trailing_whitespace"

/-- The report of a scan of a content, in full or along a set of lines. -/
structure IsReport (l : Linter) (content : String) (lines : Option LineSet)
    (found : List Offense) : Prop where
  ascending : found.Pairwise fun o o' => o.line ≤ o'.line
  located : ∀ o ∈ found, o.location.column = 1 ∧ o.location.length = 0 ∧ 1 ≤ o.line.toNat ∧
    o.line.toNat ≤ lineCount content
  shown : ∀ o ∈ found, o.rule ≠ "missing_final_newline" → ∃ line,
    (splitLines content.toList)[o.line.toNat - 1]? = some line ∧ o.lineContent = String.ofList line
  chosen : ∀ o ∈ found, o.rule ≠ "missing_final_newline" → isChosen lines o.line = true
  ofLine : ∀ index v n, (LineView.views (splitLines content.toList))[index]? = some v →
    n.toNat = index + 1 → isChosen lines n = true → ∃ table trailing,
      IsLineReport l n v table trailing ∧
        found.filter (fun o => decide (o.rule ≠ "missing_final_newline") && decide (o.line = n)) =
          table.toList ++ trailing.toList
  ending : ∃ ofLines last, found = ofLines ++ Option.toList last ∧
    (∀ o ∈ ofLines, o.rule ≠ "missing_final_newline") ∧
    (∀ o, last = some o → o.rule = "missing_final_newline" ∧ o.line.toNat = lineCount content) ∧
    (last.isSome ↔ lines = none ∧ content.toList ≠ [] ∧ content.toList.getLast? ≠ some '\n')

theorem trailing_ne_of_mem_builtin {l : Linter} (h : l ∈ builtin) :
    ∀ r ∈ l.tables.flatMap RuleTable.rules, r.id ≠ "trailing_whitespace" := by
  have hAll : ∀ l ∈ builtin, ∀ r ∈ l.tables.flatMap RuleTable.rules,
      r.id ≠ "trailing_whitespace" := by decide
  exact hAll l h

theorem isLineReport {l : Linter} (hl : l ∈ builtin) (n : LineNumber) (v : LineView) :
    IsLineReport l n v (l.tableOffense n v) (Layout.trailingWhitespace n v.line) := by
  constructor
  · rw [tableOffense]
    split
    · rename_i hSkips
      simp [hSkips]
    · rename_i hSkips
      rw [Option.isSome_map, firstMatch, List.find?_isSome]
      simp [hSkips, Rule.applies_eq_true_iff]
  · intro o ho
    obtain ⟨-, r, hFirst, rfl⟩ := tableOffense_eq_some_iff.mp ho
    exact ⟨r, firstMatch_eq_some_iff.mp hFirst, rfl⟩
  · intro o ho
    obtain ⟨-, r, hFirst, rfl⟩ := tableOffense_eq_some_iff.mp ho
    exact trailing_ne_of_mem_builtin hl r (List.mem_of_find?_eq_some hFirst)
  · rw [Layout.trailingWhitespace]
    split <;> simp_all
  · intro o ho
    exact Layout.rule_of_trailingWhitespace ho

/-- An offense of a line is placed at its start and shows its text. -/
theorem of_mem_offensesAt {l : Linter} {content : String} {index : Nat} {o : Offense}
    (h : o ∈ l.offensesAt content index) : o.location = .lineStart o.line ∧
      ∃ line, (splitLines content.toList)[index]? = some line ∧
        o.lineContent = String.ofList line := by
  obtain ⟨v, hView, hFound⟩ := mem_offensesAt_iff.mp h
  have hLine := (LineView.of_getElem?_viewsFrom hView).1
  rcases hFound with hTable | hLayout
  · obtain ⟨-, r, -, rfl⟩ := tableOffense_eq_some_iff.mp hTable
    exact ⟨rfl, v.line, hLine, rfl⟩
  · obtain ⟨-, hOffense⟩ := Option.ite_none_right_eq_some.mp hLayout
    obtain rfl := Option.some.inj hOffense
    exact ⟨rfl, v.line, hLine, rfl⟩

theorem lt_lineCount_of_mem_offensesAt {l : Linter} {content : String} {index : Nat} {o : Offense}
    (h : o ∈ l.offensesAt content index) : index < lineCount content := by
  obtain ⟨-, line, hLine, -⟩ := of_mem_offensesAt h
  exact (List.getElem?_eq_some_iff.mp hLine).1

theorem offensesAt_eq {l : Linter} {content : String} {index : Nat} {v : LineView}
    (h : (LineView.views (splitLines content.toList))[index]? = some v) :
    l.offensesAt content index = l.inspect (UInt32.ofNat (index + 1)) v := by
  rw [offensesAt, h]

theorem of_endOffense {content : String} {lines : Option LineSet} {o : Offense}
    (hSize : lineCount content < UInt32.size) (h : endOffense content lines = some o) :
    o.rule = "missing_final_newline" ∧ o.location = .lineStart o.line ∧
      o.line.toNat = lineCount content ∧ 1 ≤ lineCount content := by
  cases lines with
  | some lines => cases h
  | none =>
    obtain ⟨hEnd, hOffense⟩ := Option.ite_none_left_eq_some.mp h
    obtain rfl := Option.some.inj hOffense
    refine ⟨rfl, rfl, UInt32.toNat_ofNat_of_lt' hSize, ?_⟩
    rw [lineCount, Nat.one_le_iff_ne_zero, Ne, List.length_eq_zero_iff, splitLines_eq_nil_iff]
    intro hNil
    simp [hNil] at hEnd

theorem toNat_line_le_of_mem_lint {l : Linter} {content : String} {lines : Option LineSet}
    {o : Offense} (hSize : lineCount content < UInt32.size) (h : o ∈ l.lint content lines) :
    o.line.toNat ≤ lineCount content := by
  obtain ⟨index, hAt⟩ | hEnd := mem_lint_cases h
  · have hIndex := lt_lineCount_of_mem_offensesAt hAt
    rw [toNat_line_of_mem_offensesAt hSize hIndex hAt]
    exact hIndex
  · have hOffense : endOffense content none = some o := hEnd
    exact Nat.le_of_eq (of_endOffense hSize hOffense).2.2.1

theorem filter_endOffense {content : String} {lines : Option LineSet}
    (hSize : lineCount content < UInt32.size) (n : LineNumber) :
    (endOffense content lines).toList.filter
      (fun o => decide (o.rule ≠ "missing_final_newline") && decide (o.line = n)) = [] := by
  rw [List.filter_eq_nil_iff]
  intro o ho
  simp [(of_endOffense hSize (Option.mem_toList.mp ho)).1]

/-- Of a line that a scan looks at, it says what the line's inspection says. -/
theorem filter_ofLines {l : Linter} (hNames : l.LeavesEndUnnamed) {content : String}
    {lines : Option LineSet} (hSize : lineCount content < UInt32.size) {index : Nat}
    {v : LineView} {n : LineNumber}
    (hView : (LineView.views (splitLines content.toList))[index]? = some v)
    (hn : n.toNat = index + 1) (hChosen : isChosen lines n = true) :
    (l.ofLines content lines).filter
      (fun o => decide (o.rule ≠ "missing_final_newline") && decide (o.line = n)) =
        l.inspect n v := by
  have hIndex : index < lineCount content := by
    rw [← length_views]
    exact (List.getElem?_eq_some_iff.mp hView).1
  have hNumber : n = UInt32.ofNat (index + 1) := by rw [← hn, UInt32.ofNat_toNat]
  calc (l.ofLines content lines).filter
        (fun o => decide (o.rule ≠ "missing_final_newline") && decide (o.line = n))
      = ((List.range (lineCount content)).flatMap (l.offensesAt content)).filter
          fun o => decide (o.line = n) := by
        rw [ofLines, List.filter_filter]
        refine List.filter_congr ?_
        intro o ho
        obtain ⟨i, -, hAt⟩ := List.mem_flatMap.mp ho
        rw [decide_eq_true (rule_ne_of_mem_offensesAt hNames hAt), Bool.true_and]
        by_cases hLine : o.line = n
        · rw [hLine, hChosen, Bool.and_true]
        · rw [decide_eq_false hLine, Bool.false_and]
    _ = l.offensesAt content index := filter_line_eq hSize hIndex hn
    _ = l.inspect n v := by rw [offensesAt_eq hView, ← hNumber]

theorem isSome_endOffense_iff {content : String} {lines : Option LineSet} :
    (endOffense content lines).isSome ↔
      lines = none ∧ content.toList ≠ [] ∧ content.toList.getLast? ≠ some '\n' := by
  cases lines with
  | some lines => simp [endOffense]
  | none =>
    rw [endOffense, Layout.missingFinalNewline]
    split
    · rename_i hEnd
      simp only [Bool.or_eq_true, List.isEmpty_iff, decide_eq_true_eq] at hEnd
      rcases hEnd with hEmpty | hNewline
      · simp [hEmpty]
      · simp [hNewline]
    · rename_i hEnd
      simpa using hEnd

/-- Every scan of a builtin linter reports, line after line, the first rule that meets a line it
looks at and a trailing space, and nothing else but the end of the file. -/
theorem isReport_lint {l : Linter} (hl : l ∈ builtin) (content : String)
    (hSize : lineCount content < UInt32.size) (lines : Option LineSet) :
    IsReport l content lines (l.lint content lines) := by
  rw [lint_eq l content lines hSize]
  have hRule : ∀ o ∈ l.ofLines content lines, o.rule ≠ "missing_final_newline" := by
    intro o ho
    obtain ⟨-, index, -, hAt⟩ := mem_ofLines ho
    exact rule_ne_of_mem_offensesAt (leavesEndUnnamed_of_mem_builtin hl) hAt
  have hOfLines : ∀ o ∈ l.ofLines content lines ++ (endOffense content lines).toList,
      o.rule ≠ "missing_final_newline" → o ∈ l.ofLines content lines := by
    intro o ho hNot
    rcases List.mem_append.mp ho with ho | ho
    · exact ho
    · exact absurd (of_endOffense hSize (Option.mem_toList.mp ho)).1 hNot
  constructor
  · rw [List.pairwise_append]
    refine ⟨(pairwise_line_offensesAt hSize).filter _, ?_, ?_⟩
    · cases endOffense content lines with
      | none => exact List.Pairwise.nil
      | some o => exact List.pairwise_singleton _ o
    · intro o ho o' ho'
      obtain ⟨-, index, hIndex, hAt⟩ := mem_ofLines ho
      obtain ⟨-, -, hLast, -⟩ := of_endOffense hSize (Option.mem_toList.mp ho')
      rw [UInt32.le_iff_toNat_le, toNat_line_of_mem_offensesAt hSize hIndex hAt, hLast]
      omega
  · intro o ho
    rcases List.mem_append.mp ho with ho | ho
    · obtain ⟨-, index, hIndex, hAt⟩ := mem_ofLines ho
      rw [toNat_line_of_mem_offensesAt hSize hIndex hAt, (of_mem_offensesAt hAt).1]
      exact ⟨rfl, rfl, by omega, by omega⟩
    · obtain ⟨-, hLocation, hLast, hPos⟩ := of_endOffense hSize (Option.mem_toList.mp ho)
      rw [hLast, hLocation]
      exact ⟨rfl, rfl, hPos, Nat.le_refl _⟩
  · intro o ho hNot
    obtain ⟨-, index, hIndex, hAt⟩ := mem_ofLines (hOfLines o ho hNot)
    rw [toNat_line_of_mem_offensesAt hSize hIndex hAt]
    exact (of_mem_offensesAt hAt).2
  · intro o ho hNot
    exact (mem_ofLines (hOfLines o ho hNot)).1
  · intro index v n hView hn hChosen
    refine ⟨_, _, isLineReport hl n v, ?_⟩
    rw [List.filter_append, filter_endOffense hSize, List.append_nil,
      filter_ofLines (leavesEndUnnamed_of_mem_builtin hl) hSize hView hn hChosen]
    rfl
  · refine ⟨_, _, rfl, hRule, ?_, isSome_endOffense_iff⟩
    intro o ho
    obtain ⟨hEnd, -, hLast, -⟩ := of_endOffense hSize ho
    exact ⟨hEnd, hLast⟩

/-- The third line meets a rule of each table, and the last line, which lacks its newline, is not in
the set. -/
theorem isReport_lint_unterminated :
    Script.linter ∈ builtin ∧ lineCount "\n\nlet x = 1 \ny();" < UInt32.size ∧
      IsReport Script.linter "\n\nlet x = 1 \ny();" (some (.ofList [9, 3, 0, 2]))
        (Script.linter.lint "\n\nlet x = 1 \ny();" (some (.ofList [9, 3, 0, 2]))) := by
  have hLinter : Script.linter ∈ builtin := by simp [builtin]
  have hSize : lineCount "\n\nlet x = 1 \ny();" < UInt32.size := by decide
  exact ⟨hLinter, hSize, isReport_lint hLinter _ hSize _⟩

example : (Script.linter.lint Sample.offendingScript (some (.ofList [9, 4, 0, 1, 5]))).map
    (fun o => (o.rule, o.line)) = [("const_let", 1), ("eval_usage", 4)] := by
  rw [lint, lintFiltered, Sample.offendingScript, String.toList_join]
  decide +kernel

end Linter

end TouchedLines
