import TouchedLines.FileTree
import TouchedLines.Proofs.Checking
import TouchedLines.Proofs.Resolution
import TouchedLines.Proofs.Scan

/-! # What a run reports

From the two diffs of a run to the offenses of its outcomes: a new file is reported on in full, and
of a modified one exactly what is found on the lines that the patch touches.
-/

namespace TouchedLines.Checker

theorem lintFiltered_touched (l : Linter) (content patch path : String) :
    l.lintFiltered content ((LineTable.ofPatch patch).linesOf path) =
      (indexesWhere content fun n => decide (Touches patch path n)).flatMap
        (l.offensesAt content) := by
  simp only [Linter.lintFiltered_eq, mem_linesOf_ofPatch]

theorem restrict_touched (found : List Offense) (patch path : String) :
    Offense.restrict found ((LineTable.ofPatch patch).linesOf path) =
      found.filter fun x => decide (Touches patch path x.line) := by
  simp only [Offense.restrict, mem_linesOf_ofPatch]

/-- The number of a chosen index is chosen. -/
theorem chosen_of_mem_scan {l : Linter} {content : String} {chosen : LineNumber → Bool}
    {o : Offense} (h : o ∈ (indexesWhere content chosen).flatMap (l.offensesAt content)) :
    chosen o.line = true := by
  obtain ⟨index, hIndex, ho⟩ := List.mem_flatMap.mp h
  obtain ⟨_, n, hn, hChosen⟩ := mem_indexesWhere.mp hIndex
  rwa [Linter.line_of_mem_offensesAt ho, ← LineNumber.eq_ofNat_of_index? hn]

/-- The lines on which a file with the last report `e` is checked. -/
structure IsScope (e : StatusEntry) (patch path : String) (lines : Option LineSet) : Prop where
  added : e.code = .added → lines = none
  modified : e.code = .modified ∨ e.code = .renamed →
    lines = some ((LineTable.ofPatch patch).linesOf path)

theorem isScope_of_mem_resolve {vcs : Vcs} {base? : Option String} {onlyStaged : Bool} {c : Change}
    (hc : c ∈ (ChangeSet.resolve vcs base? onlyStaged).value.changes) :
    ∃ e, StatusEntry.deciding? (vcs.diffs base? onlyStaged).entries c.path = some e ∧
      IsScope e (vcs.diffs base? onlyStaged).patch c.path (scopeOf c) := by
  obtain ⟨e, hDecides, ⟨hCode, hKind, _⟩ | ⟨hCode, hKind, hLines⟩⟩ :=
    (ChangeSet.describes_resolve vcs base? onlyStaged).decided c hc
  · refine ⟨e, hDecides, ⟨?_, ?_⟩⟩
    · intro _
      rw [scopeOf, hKind]
    · intro hModified
      simp [hCode] at hModified
  · refine ⟨e, hDecides, ⟨?_, ?_⟩⟩
    · intro hAdded
      simp [hAdded] at hCode
    · intro _
      rw [scopeOf, hKind]
      exact hLines

/-- What is reported of a file after the full analysis `found` of its content by an analyzer. -/
structure ReportsAnalysis (e : StatusEntry) (patch : String) (o : Outcome) (found : List Offense) :
    Prop where
  added : e.code = .added → o.offenses = found
  modified : e.code = .modified ∨ e.code = .renamed →
    o.offenses = found.filter fun x => decide (Touches patch o.path x.line)

/-- What is reported of a file that a linter checks. Of a modified file it is the part of the full
scan (`Linter.lintFull_eq`) that belongs to touched lines; as long as there are enough line numbers,
so that an offense tells its line, this is the full scan filtered by rule and line. -/
structure ReportsScan (e : StatusEntry) (patch : String) (o : Outcome) (l : Linter) : Prop where
  added : e.code = .added → o.offenses = l.lintFull o.source
  modified : e.code = .modified ∨ e.code = .renamed →
    o.offenses = (indexesWhere o.source fun n => decide (Touches patch o.path n)).flatMap
      (l.offensesAt o.source)
  restricted : e.code = .modified ∨ e.code = .renamed → lineCount o.source < UInt32.size →
    o.offenses = ((l.lintFull o.source).filter
      fun x => decide (x.rule ≠ "missing_final_newline")).filter
        fun x => decide (Touches patch o.path x.line)

theorem reportsAnalysis_outcomeOf {e : StatusEntry} {patch path : String} {lines : Option LineSet}
    (hScope : IsScope e patch path lines) (source : String) (found : List Offense) :
    ReportsAnalysis e patch (outcomeOf path source lines (.ok found)) found := by
  refine ⟨?_, ?_⟩
  · intro hAdded
    rw [hScope.added hAdded]
    rfl
  · intro hModified
    rw [hScope.modified hModified]
    exact restrict_touched found patch path

theorem reportsScan_of_lint {e : StatusEntry} {patch : String} {o : Outcome} {l : Linter}
    {category : Category} {lines : Option LineSet} (hScope : IsScope e patch o.path lines)
    (hLinter : Linter.ofCategory? category = some l)
    (hOffenses : o.offenses = l.lint o.source lines) :
    ReportsScan e patch o l := by
  have hTouched : e.code = .modified ∨ e.code = .renamed →
      o.offenses = (indexesWhere o.source fun n => decide (Touches patch o.path n)).flatMap
        (l.offensesAt o.source) := by
    intro hModified
    rw [hOffenses, hScope.modified hModified]
    exact lintFiltered_touched l o.source patch o.path
  refine ⟨?_, hTouched, ?_⟩
  · intro hAdded
    rw [hOffenses, hScope.added hAdded]
    rfl
  · intro hModified hSize
    have hNames :=
      Linter.leavesEndUnnamed_of_mem_builtin (Linter.mem_builtin_of_ofCategory? hLinter)
    rw [hTouched hModified, Linter.filter_rule_lintFull hNames]
    exact (Linter.filter_line_flatMap_offensesAt l o.source _ hSize).symm

/-- Every outcome of a run is decided by the last report of its file in the listing. If that is an
addition, the outcome reports everything that is found in the file; if it is a modification or a
rename, it reports exactly what is found on the lines that the patch touches, in the same order, and
nothing on any other line. -/
theorem offenses_of_mem_run (k : Checker) (vcs : Vcs) (base? : Option String) (onlyStaged : Bool)
    (o : Outcome)
    (h : o ∈ (k.run (ChangeSet.resolve vcs base? onlyStaged).value).value.outcomes) :
    ∃ e category,
      StatusEntry.deciding? (vcs.diffs base? onlyStaged).entries o.path = some e ∧
      (e.code = .added ∨ e.code = .modified ∨ e.code = .renamed) ∧
      Category.ofPath? o.path = some category ∧
      k.files.readText? o.path = some o.source ∧
      (∀ l, Linter.ofCategory? category = some l →
        ReportsScan e (vcs.diffs base? onlyStaged).patch o l) ∧
      (category = .ruby → ∃ analyzer, k.analyzer = some analyzer ∧
        ∀ found, analyzer ⟨o.path, o.source⟩ = .ok found →
          ReportsAnalysis e (vcs.diffs base? onlyStaged).patch o found) ∧
      (e.code = .modified ∨ e.code = .renamed →
        ∀ x ∈ o.offenses, Touches (vcs.diffs base? onlyStaged).patch o.path x.line) := by
  obtain ⟨c, hc, hChecks⟩ := exists_checks_of_mem_run h
  obtain ⟨e, hDecides, hScope⟩ := isScope_of_mem_resolve hc
  have hCategory := (ChangeSet.describes_resolve vcs base? onlyStaged).category c hc
  rw [← hChecks.path] at hDecides hCategory hScope
  have hSource := hChecks.source
  rw [← hChecks.path] at hSource
  refine ⟨e, c.category, hDecides, (StatusEntry.of_deciding? hDecides).2.1.2, hCategory,
    hSource, ?_⟩
  obtain ⟨l, hLinter, hOffenses, _⟩ | ⟨hRuby, analyzer, hAnalyzer, hOutcome⟩ := hChecks.found
  · have hScan := reportsScan_of_lint hScope hLinter hOffenses
    refine ⟨?_, ?_, ?_⟩
    · intro l' hLinter'
      obtain rfl := Option.some.inj (hLinter.symm.trans hLinter')
      exact hScan
    · intro hRuby
      rw [ofCategory?_eq_none_iff.mpr hRuby] at hLinter
      cases hLinter
    · intro hModified x hx
      rw [hScan.modified hModified] at hx
      simpa using chosen_of_mem_scan hx
  · rw [← hChecks.path] at hOutcome
    have hReports : ∀ found, analyzer ⟨o.path, o.source⟩ = .ok found →
        ReportsAnalysis e (vcs.diffs base? onlyStaged).patch o found := by
      intro found hAnswer
      have hFound := reportsAnalysis_outcomeOf hScope o.source found
      rwa [← hAnswer, ← hOutcome] at hFound
    -- a failed analyzer reports no offenses, so that only its answers are of interest
    refine ⟨?_, fun _ => ⟨analyzer, hAnalyzer, hReports⟩, ?_⟩
    · intro l hLinter
      rw [ofCategory?_eq_none_iff.mpr hRuby] at hLinter
      cases hLinter
    · intro hModified x hx
      cases hAnswer : analyzer ⟨o.path, o.source⟩ with
      | error fault =>
        rw [hOutcome, hAnswer] at hx
        cases hx
      | ok found =>
        rw [(hReports found hAnswer).modified hModified] at hx
        simpa using (List.mem_filter.mp hx).2

/-- The listing reports an addition and then a modification, and of the two offending lines the
patch touches the second. -/
theorem offenses_of_mem_run_template :
    let vcs : Vcs := ⟨fun _ => false, fun _ _ => "A\ta.erb\nM\ta.erb\n",
      fun _ _ => "+++ b/a.erb\n@@ -2 +2 @@\n"⟩
    let k : Checker :=
      { files := (FileTree.ofList [("a.erb", "<%a %>\n<%b %>".toUTF8.toList)]).files }
    let o : Outcome := ⟨"a.erb", "<%a %>\n<%b %>", [⟨"bad_spacing",
      "<% your_code %> for better readability", .warning, "BadSpacing", "<%b %>", .lineStart 2⟩],
      none⟩
    o ∈ (k.run (ChangeSet.resolve vcs none false).value).value.outcomes ∧
      o.offenses = ((Template.linter.lintFull o.source).filter
        fun x => decide (x.rule ≠ "missing_final_newline")).filter
          fun x => decide (Touches (vcs.diffs none false).patch o.path x.line) := by
  intro vcs k o
  have hMem : o ∈ (k.run (ChangeSet.resolve vcs none false).value).value.outcomes := by
    decide +kernel
  obtain ⟨e, category, hDecides, _, hCategory, _, hScan, _⟩ :=
    offenses_of_mem_run k vcs none false o hMem
  have hEntry : StatusEntry.deciding? (vcs.diffs none false).entries "a.erb" =
      some ⟨.modified, "a.erb", none⟩ := by decide +kernel
  have hErb : Category.ofPath? "a.erb" = some .erb := by decide +kernel
  obtain rfl := Option.some.inj (hDecides.symm.trans hEntry)
  obtain rfl := Option.some.inj (hCategory.symm.trans hErb)
  exact ⟨hMem, (hScan Template.linter rfl).restricted (.inl rfl) (by decide)⟩

end TouchedLines.Checker
