import TouchedLines.Check

/-! # Outcomes and the changes they come from

A run checks each change on its own: its outcomes are those of the changes, in their order.
`Checker.Checks` states once what an outcome of a change has gone through.
-/

namespace TouchedLines.Checker

theorem value_checkAll (k : Checker) (changes : List Change) :
    (k.checkAll changes).value = changes.filterMap fun c => (k.checkChange c).value := by
  induction changes with
  | nil => rfl
  | cons c rest ih =>
    rw [checkAll, Traced.value_bind, Traced.value_bind, ih, Traced.value_pure]
    cases h : (k.checkChange c).value <;> simp [h]

theorem outcomes_run (k : Checker) (set : ChangeSet) :
    (k.run set).value.outcomes = set.changes.filterMap fun c => (k.checkChange c).value :=
  value_checkAll k set.changes

/-- The change is neither excluded nor unreadable nor empty, and the outcome is what a linter or the
analyzer makes of its content. -/
structure Checks (k : Checker) (c : Change) (o : Outcome) : Prop where
  path : o.path = c.path
  included : k.exclusion.excludes c.path = false
  source : k.files.readText? c.path = some o.source
  touched : touchesNothing c = false
  found :
    (∃ l, Linter.ofCategory? c.category = some l ∧
      o.offenses = l.lint o.source (scopeOf c) ∧ o.analyzerError = none) ∨
    (c.category = .ruby ∧ ∃ analyzer, k.analyzer = some analyzer ∧
      o = outcomeOf c.path o.source (scopeOf c) (analyzer ⟨c.path, o.source⟩))

theorem ofCategory?_eq_none_iff {category : Category} :
    Linter.ofCategory? category = none ↔ category = .ruby := by
  cases category <;> simp [Linter.ofCategory?]

theorem path_outcomeOf (path source : String) (lines : Option LineSet)
    (answer : Except AnalyzerError (List Offense)) :
    (outcomeOf path source lines answer).path = path ∧
      (outcomeOf path source lines answer).source = source := by
  cases answer <;> exact ⟨rfl, rfl⟩

theorem checks_of_checkChange {k : Checker} {c : Change} {o : Outcome}
    (h : (k.checkChange c).value = some o) : k.Checks c o := by
  unfold checkChange at h
  split at h
  · cases h
  · rename_i hIncluded
    split at h
    · cases h
    · rename_i source hSource
      split at h
      · cases h
      · rename_i hTouched
        unfold checkSource at h
        split at h
        · rename_i l hLinter
          cases h
          exact ⟨rfl, by simpa using hIncluded, hSource, by simpa using hTouched,
            .inl ⟨l, hLinter, rfl, rfl⟩⟩
        · rename_i hNone
          split at h
          · cases h
          · rename_i analyzer hAnalyzer
            have hOutcome := Option.some.inj h
            obtain ⟨hPath, hText⟩ := path_outcomeOf c.path source (scopeOf c)
              (analyzer ⟨c.path, source⟩)
            subst hOutcome
            refine ⟨hPath, by simpa using hIncluded, hSource.trans (congrArg some hText.symm),
              by simpa using hTouched,
              .inr ⟨ofCategory?_eq_none_iff.mp hNone, analyzer, hAnalyzer, ?_⟩⟩
            rw [hText]

theorem exists_checks_of_mem_run {k : Checker} {set : ChangeSet} {o : Outcome}
    (h : o ∈ (k.run set).value.outcomes) : ∃ c ∈ set.changes, k.Checks c o := by
  rw [outcomes_run] at h
  obtain ⟨c, hc, hValue⟩ := List.mem_filterMap.mp h
  exact ⟨c, hc, checks_of_checkChange hValue⟩

end TouchedLines.Checker
