import TouchedLines.Proofs.Selection
import TouchedLines.Vcs.Changes

/-! # Staged changes and the working tree

A check of staged changes has its files and lines from the version-control system and the contents
from the working tree. Edits that are not staged change nothing about which files are checked, and
nothing about the files that they leave alone; in a file with staged changes they can be seen.
-/

namespace TouchedLines.Checker

/-- The same checks in another tree of files. -/
def inTree (k : Checker) (files : Files) : Checker := { k with files }

theorem agreesOn_inTree (k : Checker) {files : Files} {c : Change}
    (h : files.readText? c.path = k.files.readText? c.path) : k.AgreesOn (k.inTree files) c where
  excluded := rfl
  text := h
  answer _ _ _ := rfl

theorem selects_inTree_iff {k : Checker} {files : Files} {c : Change}
    (h : (files c.path).isOk = (k.files c.path).isOk) :
    (k.inTree files).Selects c ↔ k.Selects c := by
  have hReadable : ((k.inTree files).files c.path).isOk = (k.files c.path).isOk := h
  rw [Selects, Selects, hReadable]
  exact Iff.rfl

theorem map_path_outcomes_run (k : Checker) (set : ChangeSet) :
    (k.run set).value.outcomes.map Outcome.path =
      (set.changes.filter fun c => decide (k.Selects c)).map Change.path := by
  have hReports := k.forall₂_reports_run set
  generalize (k.run set).value.outcomes = outcomes at hReports
  generalize set.changes.filter _ = changes at hReports
  induction hReports with
  | nil => rfl
  | cons hFirst _ ih => rw [List.map_cons, List.map_cons, hFirst.path, ih]

theorem outcomeAt?_run_eq_none (k : Checker) {set : ChangeSet} {path : String}
    (h : path ∉ set.paths) : (k.run set).value.outcomeAt? path = none := by
  rw [Summary.outcomeAt?, List.find?_eq_none]
  intro o ho
  obtain ⟨c, hc, hChecks⟩ := exists_checks_of_mem_run ho
  have hNe : o.path ≠ path := by
    rintro rfl
    exact h (hChecks.path ▸ List.mem_map_of_mem hc)
  simpa using hNe

theorem outcomeAt?_run_inTree (k : Checker) (set : ChangeSet) {files : Files} {path : String}
    (h : files.readText? path = k.files.readText? path) :
    ((k.inTree files).run set).value.outcomeAt? path = (k.run set).value.outcomeAt? path := by
  by_cases hPath : path ∈ set.paths
  · obtain ⟨c, hc, rfl⟩ := List.mem_map.mp hPath
    rw [outcomeAt?_run _ hc, outcomeAt?_run _ hc, (k.agreesOn_inTree h).checkChange_eq]
  · rw [outcomeAt?_run_eq_none _ hPath, outcomeAt?_run_eq_none _ hPath]

/-- The contents of the checked files are all that a run sees of its tree. -/
theorem value_run_inTree_eq_iff (k : Checker) (set : ChangeSet) {files : Files}
    (hReadable : ∀ path, (files path).isOk = (k.files path).isOk) :
    ((k.inTree files).run set).value = (k.run set).value ↔
      ∀ o ∈ (k.run set).value.outcomes, files.readText? o.path = some o.source := by
  constructor
  · intro hSame o ho
    rw [← hSame] at ho
    obtain ⟨c, _, hChecks⟩ := exists_checks_of_mem_run ho
    rw [hChecks.path]
    exact hChecks.source
  · intro hContents
    have hChanges : ∀ c ∈ set.changes,
        ((k.inTree files).checkChange c).value = (k.checkChange c).value := by
      intro c hc
      obtain ⟨hSelects, hValue⟩ | ⟨o, _, hValue, hReports⟩ := k.value_checkChange_cases c
      · obtain ⟨_, hOther⟩ | ⟨_, hOther, _⟩ := (k.inTree files).value_checkChange_cases c
        · rw [hValue, hOther]
        · exact absurd ((selects_inTree_iff (hReadable c.path)).mp hOther) hSelects
      · have ho : o ∈ (k.run set).value.outcomes := by
          rw [outcomes_run]
          exact List.mem_filterMap.mpr ⟨c, hc, hValue⟩
        have hText := hContents o ho
        rw [hReports.path, ← hReports.source] at hText
        rw [(k.agreesOn_inTree hText).checkChange_eq]
    have hOutcomes : ((k.inTree files).run set).value.outcomes = (k.run set).value.outcomes := by
      rw [outcomes_run, outcomes_run]
      exact List.filterMap_congr hChanges
    exact congrArg Summary.mk hOutcomes

/-- What is not staged plays no part in which files a staged check is about, and none in what it
reports of a file whose content is the same; the whole report is the same exactly if the content of
each checked file is. -/
theorem run_staged_inTree (k : Checker) (vcs : Vcs) (base? : Option String) (files : Files)
    (hReadable : ∀ path, (files path).isOk = (k.files path).isOk) :
    let set := (ChangeSet.resolve vcs base? true).value
    ((k.inTree files).run set).value.outcomes.map Outcome.path =
      (k.run set).value.outcomes.map Outcome.path ∧
    (∀ path, files.readText? path = k.files.readText? path →
      ((k.inTree files).run set).value.outcomeAt? path = (k.run set).value.outcomeAt? path) ∧
    (((k.inTree files).run set).value = (k.run set).value ↔
      ∀ o ∈ (k.run set).value.outcomes, files.readText? o.path = some o.source) := by
  intro set
  refine ⟨?_, fun path => k.outcomeAt?_run_inTree set, k.value_run_inTree_eq_iff set hReadable⟩
  rw [map_path_outcomes_run, map_path_outcomes_run]
  simp only [selects_inTree_iff (hReadable _)]

/-- A tree with one file. -/
def single (path content : String) : Files := fun p =>
  if p = path then .ok content.toUTF8.toList else .error .notFound

theorem isOk_single (path content other : String) :
    (single path content other).isOk = decide (other = path) := by
  unfold single
  split <;> simp_all [Except.isOk, Except.toBool]

theorem run_staged_inTree_untouched :
    let vcs : Vcs :=
      ⟨fun _ => false, fun _ _ => "M\ta.erb\n", fun _ _ => "+++ b/a.erb\n@@ -1 +1 @@\n"⟩
    let tree (content : String) : Files := fun path =>
      if path = "b.erb" then .ok content.toUTF8.toList else single "a.erb" "<%a %>\n" path
    let k : Checker := { files := tree "<% b %>\n" }
    let edited := tree "<%b %>\n"
    let set := (ChangeSet.resolve vcs none true).value
    (∀ path, (edited path).isOk = (k.files path).isOk) ∧
      edited.readText? "b.erb" ≠ k.files.readText? "b.erb" ∧
      (k.run set).value.outcomes.map Outcome.path = ["a.erb"] ∧ (k.run set).value.exitCode = 1 ∧
      ((k.inTree edited).run set).value = (k.run set).value := by
  intro vcs tree k edited set
  have hReadable : ∀ path, (edited path).isOk = (k.files path).isOk := by
    intro path
    simp only [edited, k, tree]
    split <;> rfl
  have hOutcomes : (k.run set).value.outcomes = [⟨"a.erb", "<%a %>\n", [⟨"bad_spacing",
      "<% your_code %> for better readability", .warning, "BadSpacing", "<%a %>", .lineStart 1⟩],
      none⟩] := by
    decide +kernel
  refine ⟨hReadable, by decide +kernel, by rw [hOutcomes]; rfl, by decide +kernel,
    (run_staged_inTree k vcs none edited hReadable).2.2.mpr ?_⟩
  rw [hOutcomes]
  intro o ho
  obtain rfl := List.mem_singleton.mp ho
  decide +kernel

/-- In a file with staged changes an edit that is not staged is reported. -/
theorem not_run_staged_inTree :
    let vcs : Vcs :=
      ⟨fun _ => false, fun _ _ => "M\ta.erb\n", fun _ _ => "+++ b/a.erb\n@@ -1 +1 @@\n"⟩
    let k : Checker := { files := single "a.erb" "<% a %>\n" }
    let edited := k.inTree (single "a.erb" "<%a %>\n")
    let set := (ChangeSet.resolve vcs none true).value
    (∀ path, (edited.files path).isOk = (k.files path).isOk) ∧
      (k.run set).value.outcomes.map Outcome.offenses = [[]] ∧
      (edited.run set).value.outcomes.map Outcome.offenses = [[⟨"bad_spacing",
        "<% your_code %> for better readability", .warning, "BadSpacing", "<%a %>",
        .lineStart 1⟩]] ∧
      (k.run set).value.exitCode = 0 ∧ (edited.run set).value.exitCode = 1 := by
  intro vcs k edited set
  refine ⟨?_, by decide +kernel, by decide +kernel, by decide +kernel, by decide +kernel⟩
  intro path
  exact (isOk_single _ _ path).trans (isOk_single _ _ path).symm

end TouchedLines.Checker
