import TouchedLines.CommandLine.Needs
import TouchedLines.Proofs.ListedFiles
import TouchedLines.Proofs.References
import TouchedLines.Proofs.ReportDocument

/-! # Runs on listed files

Where files are listed, nothing is asked about changes: the listed files and the settings of the
exclusion, the analyzer and the format say all about the run. So two runs that agree on these are
the same, whatever git answers and whatever base is given.
-/

namespace TouchedLines

/-! ## What the analyzer sees -/

namespace AnalyzerCommand

variable {c : AnalyzerCommand} {programs programs' : Programs}

theorem run_invocation_congr (h : ∀ i, i.program = c.program → programs' i = programs i)
    (call : AnalyzerCall) :
    programs'.run (c.invocation call) = programs.run (c.invocation call) := by
  simp only [Programs.run, h (c.invocation call) rfl]

theorem analyzer_congr (h : ∀ i, i.program = c.program → programs' i = programs i)
    (call : AnalyzerCall) (tell : List Char → String) :
    c.analyzer programs' call tell = c.analyzer programs call tell := by
  simp only [analyzer, run_invocation_congr h]

theorem runs_congr (h : ∀ i, i.program = c.program → programs' i = programs i)
    (calls : List AnalyzerCall) : c.runs programs' calls = c.runs programs calls := by
  apply List.filter_congr
  intro i hi
  obtain ⟨call, _, rfl⟩ := List.mem_map.mp hi
  rw [Programs.starts, Programs.starts, run_invocation_congr h]

end AnalyzerCommand

/-! ## The run -/

def World.withVariable (w : World) (name : String) (value : Option String) : World :=
  { w with env := fun other => if other = name then value else w.env other }

namespace CheckRequest

/-- Two worlds and configurations between which a run on listed files cannot tell. -/
structure SeesSame (r : CheckRequest) (w w' : World) (config config' : Config) : Prop where
  files : ∀ path ∈ r.files, w'.files path = w.files path
  programs : ∀ i, i.program = config.analyzer.command.program → w'.programs i = w.programs i
  clock : w'.clock = w.clock
  wording : w'.wording = w.wording
  exclude : config'.exclude = config.exclude
  analyzer : config'.analyzer = config.analyzer
  format : config'.defaults.format = config.defaults.format

variable {r : CheckRequest} {w w' : World} {config config' : Config} {exclusion : Exclusion}

theorem SeesSame.perform_eq (h : r.SeesSame w w' config config') (hFiles : r.files ≠ []) :
    r.perform w' config' exclusion = r.perform w config exclusion := by
  have hAnalyzer : (w'.checker config' exclusion).analyzer =
      (w.checker config exclusion).analyzer := by
    simp only [World.checker, h.analyzer, h.wording, AnalyzerCommand.analyzer_congr h.programs]
  have hChecks : (w'.checker config' exclusion).runPaths r.files =
      (w.checker config exclusion).runPaths r.files :=
    Checker.runPaths_congr h.files rfl hAnalyzer
  rw [perform_of_files hFiles, perform_of_files hFiles, hChecks]

theorem SeesSame.run_eq (h : r.SeesSame w w' config config') (hFiles : r.files ≠ [])
    (hConfig : Config.IsLoaded w.files w.env r.config config)
    (hConfig' : Config.IsLoaded w'.files w'.env r.config config')
    (hExclusion : Exclusion.ofGlobs config.exclude = .ok exclusion) : r.run w' = r.run w := by
  have hPerform : r.perform w' config' exclusion = r.perform w config exclusion :=
    h.perform_eq hFiles
  have hFormat : r.effectiveFormat config' = r.effectiveFormat config := by
    rw [effectiveFormat, effectiveFormat, h.format]
  have hReport : ∀ t : CheckTrace, t.report w' = t.report w := by
    intro t
    funext f
    cases f with
    | json => rfl
    | text => simp only [CheckTrace.report, CheckTrace.startLine, h.clock]
  have hRuns : ∀ calls summary, CheckTrace.runs ⟨[], calls, summary⟩ w' config' =
      CheckTrace.runs ⟨[], calls, summary⟩ w config := by
    intro calls summary
    simp only [CheckTrace.runs, Git.runs, List.map_nil, List.filter_nil, h.analyzer,
      AnalyzerCommand.runs_congr h.programs]
  rw [run_of_loaded hConfig' (h.exclude ▸ hExclusion), run_of_loaded hConfig hExclusion,
    hPerform, hFormat, hReport, perform_of_files hFiles, hRuns]

/-- A check of listed files starts no program but the analyzer. Its result is the same whatever
other programs there are, whatever the base and the staging in the configuration and, where the
configuration does not refer to it, whatever the base in the environment. Its report has an outcome
for each distinct listed path that can be checked, in the order in which they are first listed, with
all that the analysis of the whole content finds. -/
theorem run_of_files (hFiles : r.files ≠ [])
    (hConfig : Config.IsLoaded w.files w.env r.config config)
    (hExclusion : Exclusion.ofGlobs config.exclude = .ok exclusion) :
    let k := w.checker config exclusion
    let program := config.analyzer.command.program
    (∀ i ∈ (r.run w).runs, i.program = program) ∧
    (∀ programs, (∀ i, i.program = program → programs i = w.programs i) →
      r.run { w with programs } = r.run w) ∧
    (∀ files env base staged, (∀ path ∈ r.files, files path = w.files path) →
      Config.IsLoaded files env r.config
        { config with defaults := { config.defaults with base, staged } } →
      r.run { w with files, env } = r.run w) ∧
    (¬Config.Mentions w.files r.config baseVariable →
      ∀ value, r.run (w.withVariable baseVariable value) = r.run w) ∧
    ∃ outcomes : List Outcome,
      outcomes.map Outcome.path = (r.files.filter fun path => decide (k.Lists path)).eraseDups ∧
      (∀ o ∈ outcomes, k.ReportsInFull o) ∧
      (r.run w).failure = none ∧
      ((r.run w).exitCode = 1 ↔ ∃ o ∈ outcomes, o.offenses ≠ [] ∨ o.analyzerError ≠ none) ∧
      (r.effectiveFormat config = .text → (r.run w).output =
        CheckTrace.startLine w ++ (Summary.mk outcomes).renderText ++
          if (r.run w).exitCode = 0 then CheckTrace.allWell else "") ∧
      (r.effectiveFormat config = .json →
        (ReportDocument.ofText? (r.run w).output.toList).map ReportDocument.entries =
          some (outcomes.map Outcome.entry)) := by
  intro k program
  have hRun := run_of_loaded hConfig hExclusion
  rw [perform_of_files hFiles] at hRun
  refine ⟨?_, ?_, ?_, ?_, (k.runPaths r.files).value.outcomes,
    k.map_path_outcomes_runPaths r.files, fun o => Checker.reportsInFull_of_mem_runPaths,
    ?_, ?_, ?_, ?_⟩
  · intro i hi
    rw [hRun] at hi
    exact AnalyzerCommand.program_of_mem_runs hi
  · intro programs hPrograms
    have hSees : r.SeesSame w { w with programs } config config :=
      ⟨fun _ _ => rfl, hPrograms, rfl, rfl, rfl, rfl, rfl⟩
    exact hSees.run_eq hFiles hConfig hConfig hExclusion
  · intro files env base staged hListed hConfig'
    have hSees : r.SeesSame w { w with files, env } config
        { config with defaults := { config.defaults with base, staged } } :=
      ⟨hListed, fun _ _ => rfl, rfl, rfl, rfl, rfl, rfl⟩
    exact hSees.run_eq hFiles hConfig hConfig' hExclusion
  · intro hMentions value
    have hSees : r.SeesSame w (w.withVariable baseVariable value) config config :=
      ⟨fun _ _ => rfl, fun _ _ => rfl, rfl, rfl, rfl, rfl, rfl⟩
    refine hSees.run_eq hFiles hConfig (hConfig.congr ?_) hExclusion
    intro name hName
    refine if_neg ?_
    rintro rfl
    exact hMentions hName
  · rw [hRun]
  · rw [hRun]
    exact Summary.exitCode_eq_one_iff
  · intro hFormat
    rw [hRun, hFormat]
    rfl
  · intro hFormat
    rw [hRun, hFormat]
    have hRead := (k.runPaths r.files).value.ofText?_renderJson
    exact congrArg (Option.map ReportDocument.entries) hRead

/-- A file is listed twice, and one that cannot be checked is listed too. -/
theorem run_of_files_repeated :
    let w := World.ofParts
      [("a.erb", .ok "<% a %>\n".toUTF8.toList), ("b.js", .ok "b \n".toUTF8.toList)] []
      (fun _ => none) "now"
    let r : CheckRequest := ⟨["b.js", "a.erb", "notes.md", "b.js"], none, false, none, some .json⟩
    r.files ≠ [] ∧ Config.IsLoaded w.files w.env r.config {} ∧ Exclusion.ofGlobs [] = .ok ⟨[]⟩ ∧
      (∀ value, r.run (w.withVariable baseVariable value) = r.run w) ∧
      ∃ outcomes : List Outcome, outcomes.map Outcome.path = ["b.js", "a.erb"] ∧
        (ReportDocument.ofText? (r.run w).output.toList).map ReportDocument.entries =
          some (outcomes.map Outcome.entry) := by
  intro w r
  have hFiles : r.files ≠ [] := List.cons_ne_nil _ _
  have hSource : Config.source? w.files r.config = none := by decide +kernel
  have hConfig : Config.IsLoaded w.files w.env r.config {} := .inl ⟨hSource, rfl⟩
  have hExclusion : Exclusion.ofGlobs [] = .ok ⟨[]⟩ := rfl
  have hMentions : ¬Config.Mentions w.files r.config baseVariable := by
    rintro ⟨path, _, _, hPath, _⟩
    rw [hSource] at hPath
    cases hPath
  obtain ⟨_, _, _, hBase, outcomes, hPaths, _, _, _, _, hJson⟩ :=
    run_of_files hFiles hConfig hExclusion
  have hListed : (r.files.filter fun path =>
      decide ((w.checker {} ⟨[]⟩).Lists path)).eraseDups = ["b.js", "a.erb"] := by
    decide +kernel
  exact ⟨hFiles, hConfig, hExclusion, hBase hMentions, outcomes, hPaths.trans hListed, hJson rfl⟩

/-- An exclusion that refers to the base in the environment makes the result depend on it, and git
is started where it is named as the analyzer. -/
theorem not_run_of_files :
    (let w := World.ofParts
        [(Config.standardName, .ok "exclude=['$\x7bTOUCHLINT_BASE:-x\x7d']".toUTF8.toList),
          ("a.erb", .ok "<%a %>\n".toUTF8.toList)] [] (fun _ => none) "now"
      let w' := w.withVariable baseVariable (some "a.erb")
      let r : CheckRequest := ⟨["a.erb"], none, false, none, none⟩
      (r.run w).failure = none ∧ (r.run w').failure = none ∧
        (r.run w).exitCode = 1 ∧ (r.run w').exitCode = 0) ∧
    (let w := World.ofParts [(Config.standardName, .ok "analyzer.command='git'".toUTF8.toList),
        ("a.rb", .ok "x\n".toUTF8.toList)] []
        (fun i => if i.program = "git" then some ⟨"[]".toUTF8.toList, true⟩ else none) "now"
      let r : CheckRequest := ⟨["a.rb"], none, false, none, none⟩
      (r.run w).failure = none ∧ (r.run w).runs =
        [⟨"git", ["--format", "json", "--force-exclusion", "--stdin", "a.rb"], "x\n"⟩]) := by
  constructor
  · decide +kernel
  · decide +kernel

end CheckRequest

end TouchedLines
