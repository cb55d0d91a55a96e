import TouchedLines.CommandLine.Run
import TouchedLines.Proofs.Resolution
import TouchedLines.Proofs.Staging

/-! # Files that are listed

A listed file is a new one: it is checked as a whole. Which of the listed files are checked, and in
which order, can be said without the change set that they are put into: a path counts where it is
first listed.
-/

namespace TouchedLines

theorem filter_eraseDups (p : String → Bool) (paths : List String) :
    paths.eraseDups.filter p = (paths.filter p).eraseDups := by
  induction paths using List.reverseRecOn with
  | nil => rfl
  | append_singleton paths path ih =>
    rw [eraseDups_append_singleton, List.filter_append, List.filter_singleton]
    cases hp : p path with
    | true =>
      have hMem : path ∈ paths.filter p ↔ path ∈ paths := by simp [hp]
      simp only [cond_true, eraseDups_append_singleton, hMem]
      split
      · exact ih
      · rw [List.filter_append, List.filter_singleton, hp, ih]
        rfl
    | false =>
      rw [cond_false, List.append_nil, ← ih]
      split
      · rfl
      · rw [List.filter_append, List.filter_singleton, hp, cond_false, List.append_nil]

namespace Checker

/-- The path is one of a supported file that can be read and is not excluded, and something can
check it. -/
def Lists (k : Checker) (path : String) : Prop :=
  (k.files path).isOk = true ∧ k.exclusion.excludes path = false ∧
    ∃ category, Category.ofPath? path = some category ∧
      ¬(category = .ruby ∧ k.analyzer.isNone = true)

instance (k : Checker) : DecidablePred k.Lists := fun path =>
  match h : Category.ofPath? path with
  | none => isFalse (by rintro ⟨-, -, _, hCategory, -⟩; rw [h] at hCategory; cases hCategory)
  | some category =>
    decidable_of_iff ((k.files path).isOk = true ∧ k.exclusion.excludes path = false ∧
      ¬(category = .ruby ∧ k.analyzer.isNone = true)) (by simp [Lists, h])

theorem listed?_eq_some_iff {files : Files} {path : String} {c : Change} :
    listed? files path = some c ↔
      files.isFile path = true ∧ ∃ category, Category.ofPath? path = some category ∧
        c = .newFile path category := by
  unfold listed?
  cases Category.ofPath? path with
  | none => simp
  | some category =>
    constructor
    · intro h
      obtain ⟨hFile, hChange⟩ := Option.ite_none_right_eq_some.mp h
      exact ⟨hFile, category, rfl, (Option.some.inj hChange).symm⟩
    · rintro ⟨hFile, _, hCategory, rfl⟩
      cases hCategory
      exact if_pos hFile

def listedSet (k : Checker) (paths : List String) : ChangeSet :=
  .ofList (paths.filterMap (listed? k.files))

theorem runPaths_eq (k : Checker) (paths : List String) :
    k.runPaths paths = k.run (k.listedSet paths) := rfl

theorem eq_newFile_of_mem_listedSet {k : Checker} {paths : List String} {c : Change}
    (h : c ∈ (k.listedSet paths).changes) :
    Category.ofPath? c.path = some c.category ∧ c = .newFile c.path c.category := by
  obtain ⟨path, _, hListed⟩ := List.mem_filterMap.mp (ChangeSet.mem_of_mem_changes_ofList h)
  obtain ⟨_, category, hCategory, rfl⟩ := listed?_eq_some_iff.mp hListed
  exact ⟨hCategory, rfl⟩

theorem selects_iff_lists {k : Checker} {c : Change}
    (hCategory : Category.ofPath? c.path = some c.category) (hNew : c.kind = .new) :
    k.Selects c ↔ k.Lists c.path := by
  simp [Selects, Lists, hCategory, hNew, and_left_comm]

theorem map_path_filterMap_listed? (files : Files) (paths : List String) :
    (paths.filterMap (listed? files)).map Change.path =
      paths.filter fun path => (listed? files path).isSome := by
  induction paths with
  | nil => rfl
  | cons path paths ih =>
    cases h : listed? files path with
    | none => rw [List.filterMap_cons_none h, List.filter_cons_of_neg (by simp [h]), ih]
    | some c =>
      obtain ⟨_, _, _, rfl⟩ := listed?_eq_some_iff.mp h
      rw [List.filterMap_cons_some h, List.filter_cons_of_pos (by simp [h]), List.map_cons, ih]
      rfl

theorem isSome_listed?_of_lists {k : Checker} {path : String} (h : k.Lists path) :
    (listed? k.files path).isSome = true := by
  obtain ⟨hReadable, _, category, hCategory, _⟩ := h
  have hFile : k.files.isFile path = true := by
    unfold Files.isFile
    cases hBytes : k.files path with
    | ok bytes => rfl
    | error e =>
      rw [hBytes] at hReadable
      cases hReadable
  rw [listed?_eq_some_iff.mpr ⟨hFile, category, hCategory, rfl⟩]
  rfl

/-- The outcomes of listed files are in the order in which the files are first listed. -/
theorem map_path_outcomes_runPaths (k : Checker) (paths : List String) :
    (k.runPaths paths).value.outcomes.map Outcome.path =
      (paths.filter fun path => decide (k.Lists path)).eraseDups := by
  have hSelects : ∀ c ∈ (k.listedSet paths).changes,
      decide (k.Selects c) = ((fun path => decide (k.Lists path)) ∘ Change.path) c := by
    intro c hc
    obtain ⟨hCategory, hNew⟩ := eq_newFile_of_mem_listedSet hc
    exact decide_eq_decide.mpr (selects_iff_lists hCategory (congrArg Change.kind hNew))
  calc (k.runPaths paths).value.outcomes.map Outcome.path
    _ = ((k.listedSet paths).changes.filter fun c => decide (k.Selects c)).map Change.path := by
      rw [runPaths_eq, map_path_outcomes_run]
    _ = (k.listedSet paths).paths.filter fun path => decide (k.Lists path) := by
      rw [List.filter_congr hSelects, ← List.filter_map]
      rfl
    _ = ((paths.filter fun path => (listed? k.files path).isSome).filter
          fun path => decide (k.Lists path)).eraseDups := by
      rw [listedSet, ChangeSet.paths_ofList, map_path_filterMap_listed?, filter_eraseDups]
    _ = (paths.filter fun path => decide (k.Lists path)).eraseDups := by
      rw [List.filter_filter]
      congr 1
      apply List.filter_congr
      intro path _
      by_cases hLists : k.Lists path
      · simp [hLists, isSome_listed?_of_lists hLists]
      · simp [hLists]

/-- The outcome of a file is what the analysis of its whole content finds. -/
structure ReportsInFull (k : Checker) (o : Outcome) : Prop where
  source : k.files.readText? o.path = some o.source
  linted : ∀ category l, Category.ofPath? o.path = some category →
    Linter.ofCategory? category = some l →
    o.offenses = l.lintFull o.source ∧ o.analyzerError = none
  analyzed : Category.ofPath? o.path = some .ruby → ∃ analyzer, k.analyzer = some analyzer ∧
    match analyzer ⟨o.path, o.source⟩ with
    | .ok found => o.offenses = found ∧ o.analyzerError = none
    | .error e => o.offenses = [] ∧ o.analyzerError = some e.message

theorem reportsInFull_of_checks {k : Checker} {c : Change} {o : Outcome} (h : k.Checks c o)
    (hCategory : Category.ofPath? c.path = some c.category) (hNew : c.kind = .new) :
    k.ReportsInFull o := by
  have hScope : scopeOf c = none := scopeOf_of_asksForAll (.inl hNew)
  have hFound := h.found
  rw [hScope] at hFound
  rw [← h.path] at hCategory
  refine ⟨h.path ▸ h.source, ?_, ?_⟩
  · intro category l hCategory' hLinter
    obtain rfl := Option.some.inj (hCategory.symm.trans hCategory')
    obtain ⟨l', hLinter', hOffenses, hError⟩ | ⟨hRuby, _⟩ := hFound
    · obtain rfl := Option.some.inj (hLinter.symm.trans hLinter')
      exact ⟨hOffenses, hError⟩
    · rw [ofCategory?_eq_none_iff.mpr hRuby] at hLinter
      cases hLinter
  · intro hRuby
    have hNone := ofCategory?_eq_none_iff.mpr (Option.some.inj (hCategory.symm.trans hRuby))
    obtain ⟨l, hLinter, _⟩ | ⟨_, analyzer, hAnalyzer, hOutcome⟩ := hFound
    · rw [hNone] at hLinter
      cases hLinter
    · refine ⟨analyzer, hAnalyzer, ?_⟩
      rw [← h.path] at hOutcome
      cases hAnswer : analyzer ⟨o.path, o.source⟩ with
      | ok found =>
        rw [hAnswer] at hOutcome
        exact ⟨congrArg Outcome.offenses hOutcome, congrArg Outcome.analyzerError hOutcome⟩
      | error e =>
        rw [hAnswer] at hOutcome
        exact ⟨congrArg Outcome.offenses hOutcome, congrArg Outcome.analyzerError hOutcome⟩

theorem reportsInFull_of_mem_runPaths {k : Checker} {paths : List String} {o : Outcome}
    (h : o ∈ (k.runPaths paths).value.outcomes) : k.ReportsInFull o := by
  rw [runPaths_eq] at h
  obtain ⟨c, hc, hChecks⟩ := exists_checks_of_mem_run h
  obtain ⟨hCategory, hNew⟩ := eq_newFile_of_mem_listedSet hc
  exact reportsInFull_of_checks hChecks hCategory (congrArg Change.kind hNew)

/-! ### Runs that see the same of the listed files -/

theorem checkAll_congr {k k' : Checker} {changes : List Change}
    (h : ∀ c ∈ changes, k.AgreesOn k' c) : k'.checkAll changes = k.checkAll changes := by
  induction changes with
  | nil => rfl
  | cons c changes ih =>
    rw [checkAll, checkAll, (h c List.mem_cons_self).checkChange_eq,
      ih fun c hc => h c (List.mem_cons_of_mem _ hc)]

/-- Nothing but the listed files, the exclusion and the analyzer plays a part in the checks. -/
theorem runPaths_congr {k k' : Checker} {paths : List String}
    (hFiles : ∀ path ∈ paths, k'.files path = k.files path)
    (hExclusion : k'.exclusion = k.exclusion) (hAnalyzer : k'.analyzer = k.analyzer) :
    k'.runPaths paths = k.runPaths paths := by
  have hListed : paths.filterMap (listed? k'.files) = paths.filterMap (listed? k.files) := by
    apply List.filterMap_congr
    intro path hPath
    rw [listed?, listed?, Files.isFile, Files.isFile, hFiles path hPath]
  have hAgree : ∀ c ∈ (k.listedSet paths).changes, k.AgreesOn k' c := by
    intro c hc
    obtain ⟨path, hPath, hChange⟩ := List.mem_filterMap.mp (ChangeSet.mem_of_mem_changes_ofList hc)
    obtain ⟨_, _, _, rfl⟩ := listed?_eq_some_iff.mp hChange
    refine ⟨by rw [hExclusion], ?_, fun _ _ _ => by rw [hAnalyzer]⟩
    simp only [Files.readText?, Change.newFile, hFiles path hPath]
  have hChecks := checkAll_congr hAgree
  rw [listedSet] at hChecks
  rw [runPaths, hListed, run, hChecks]
  rfl

end Checker

/-! ### The checks of a request -/

def World.checker (w : World) (config : Config) (exclusion : Exclusion) : Checker where
  files := w.files
  exclusion := exclusion
  analyzer :=
    if config.analyzer.enabled then
      some fun call => config.analyzer.command.analyzer w.programs call w.wording.report
    else none

namespace CheckRequest

theorem perform_of_files {r : CheckRequest} (h : r.files ≠ []) (w : World) (config : Config)
    (exclusion : Exclusion) :
    r.perform w config exclusion =
      ⟨[], ((w.checker config exclusion).runPaths r.files).events,
        ((w.checker config exclusion).runPaths r.files).value⟩ :=
  if_neg (by simpa using h)

def changes (r : CheckRequest) (w : World) (config : Config) : Traced Query ChangeSet :=
  ChangeSet.resolve (Git.vcs w.programs) (r.effectiveBase? w.env config)
    (r.staged || config.defaults.staged)

theorem perform_of_no_files {r : CheckRequest} (h : r.files = []) (w : World) (config : Config)
    (exclusion : Exclusion) :
    r.perform w config exclusion =
      ⟨(r.changes w config).events,
        ((w.checker config exclusion).run (r.changes w config).value).events,
        ((w.checker config exclusion).run (r.changes w config).value).value⟩ :=
  if_pos (by simpa using h)

theorem category_of_mem_changes {r : CheckRequest} {w : World} {config : Config} {c : Change}
    (h : c ∈ (r.changes w config).value.changes) : Category.ofPath? c.path = some c.category :=
  (ChangeSet.describes_resolve _ _ _).category c h

/-- Listed or changed, a file is checked by the category of its path. -/
theorem exists_checks_of_mem_perform {r : CheckRequest} {w : World} {config : Config}
    {exclusion : Exclusion} {o : Outcome}
    (h : o ∈ (r.perform w config exclusion).summary.outcomes) :
    ∃ c, Category.ofPath? c.path = some c.category ∧ (w.checker config exclusion).Checks c o := by
  by_cases hFiles : r.files = []
  · simp only [perform_of_no_files hFiles] at h
    obtain ⟨c, hc, hChecks⟩ := Checker.exists_checks_of_mem_run h
    exact ⟨c, category_of_mem_changes hc, hChecks⟩
  · simp only [perform_of_files hFiles, Checker.runPaths_eq] at h
    obtain ⟨c, hc, hChecks⟩ := Checker.exists_checks_of_mem_run h
    exact ⟨c, (Checker.eq_newFile_of_mem_listedSet hc).1, hChecks⟩

end CheckRequest

end TouchedLines
