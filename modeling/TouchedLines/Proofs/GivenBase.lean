import TouchedLines.CommandLine.Needs
import TouchedLines.Proofs.ListedFiles
import TouchedLines.Proofs.Questions

/-! # A base on the command line

A base on the command line comes before the one of the environment and the one of the configuration,
and all that a run then asks git for is what has changed since that base. A configuration makes two
exceptions: a run about staged changes has no use for a base, and git is asked for a report if the
configuration names it as the analyzer.
-/

namespace TouchedLines

open Text

namespace Programs

theorem starts_of_isSome {programs : Programs} {i : Invocation}
    (hProgram : (programs i).isSome = true)
    (hWords : ∀ word ∈ i.program :: i.arguments, '\x00' ∉ word.toList) :
    programs.starts i = true := by
  obtain ⟨output, hOutput⟩ := Option.isSome_iff_exists.mp hProgram
  have hNul : ¬((i.program :: i.arguments).any fun word => word.toList.contains '\x00') = true := by
    simpa using hWords
  rw [starts, run, if_neg hNul, hOutput]
  rfl

end Programs

namespace Base

theorem notMem_trimmed {c : Char} {text : String} (h : c ∉ text.toList) :
    c ∉ (trimmed text).toList := by
  rw [trimmed, String.toList_ofList]
  intro hTrim
  have hStart : c ∈ trimStart text.toList := (List.rdropWhile_prefix isBlank _).mem hTrim
  exact h ((List.dropWhile_suffix isBlank).mem hStart)

end Base

namespace Git

/-- The run that lists the supported files of a range. -/
def listingOf (range : String) : Invocation :=
  ⟨"git", ["diff", "--name-status", range, "--", "*.rb", "*.js", "*.erb"], ""⟩

def patchOf (range : String) (paths : List String) : Invocation :=
  ⟨"git", ["diff", "--unified=0", range, "--"] ++ paths, ""⟩

theorem invocation_listing (scope : Scope) :
    invocation (.listing scope Category.pathspecs) = listingOf scope.argument := by
  have hSpecs : Category.pathspecs = ["*.rb", "*.js", "*.erb"] := by decide
  rw [invocation, arguments, hSpecs]
  rfl

theorem invocation_comp_patch (scope : Scope) :
    invocation ∘ Query.patch scope = patchOf scope.argument := rfl

theorem starts_listingOf {programs : Programs} {range : String}
    (hGit : ∀ i, i.program = "git" → (programs i).isSome = true)
    (hRange : '\x00' ∉ range.toList) : programs.starts (listingOf range) = true := by
  apply Programs.starts_of_isSome (hGit _ rfl)
  simp only [listingOf, List.forall_mem_cons]
  exact ⟨by decide, by decide, by decide, hRange, by decide⟩

end Git

/-- Reports are asked of git. -/
def Config.AnalyzesWithGit (config : Config) : Prop :=
  config.analyzer.enabled = true ∧ config.analyzer.command.program = "git"

namespace CheckRequest

def givenScope (given : String) (config : Config) : Scope :=
  if config.defaults.staged then .staged else .since (Base.trimmed given)

theorem choose_given {r : CheckRequest} {given : String} (env : Environment) (config : Config)
    (vcs : Vcs) (hBase : r.base = some given) (hGiven : ¬Base.IsSilent (some given))
    (hStaged : r.staged = false) :
    Scope.choose vcs (r.effectiveBase? env config) (r.staged || config.defaults.staged) =
      pure (givenScope given config) := by
  have hEffective : r.effectiveBase? env config = some (Base.trimmed given) := by
    have hBefore : ∀ s ∈ ([] : List (Option String)), Base.IsSilent s := by simp
    rw [effectiveBase?, hBase]
    exact Base.effective?_of_first hBefore hGiven
  rw [hStaged, Bool.false_or, givenScope]
  cases config.defaults.staged with
  | true => rfl
  | false => exact Scope.choose_of_effective? vcs hEffective

theorem argument_givenScope (given : String) (config : Config) :
    (givenScope given config).argument =
      if config.defaults.staged then "--staged" else Base.trimmed given ++ "...HEAD" := by
  unfold givenScope
  cases config.defaults.staged <;> rfl

theorem notMem_argument_givenScope {given : String} (config : Config)
    (h : '\x00' ∉ given.toList) : '\x00' ∉ (givenScope given config).argument.toList := by
  rw [argument_givenScope]
  cases config.defaults.staged with
  | true =>
    rw [if_pos rfl]
    decide
  | false =>
    rw [if_neg Bool.false_ne_true, String.toList_append, List.mem_append, not_or]
    exact ⟨Base.notMem_trimmed h, by decide⟩

theorem queries_perform_given {r : CheckRequest} {given : String} (w : World) (config : Config)
    (exclusion : Exclusion) (hBase : r.base = some given) (hGiven : ¬Base.IsSilent (some given))
    (hStaged : r.staged = false) (hFiles : r.files = []) :
    ∃ patches : List (List String), patches.length ≤ 1 ∧
      (r.perform w config exclusion).queries =
        .listing (givenScope given config) Category.pathspecs ::
          patches.map (.patch (givenScope given config)) := by
  have hChoose := choose_given w.env config (Git.vcs w.programs) hBase hGiven hStaged
  have hEvents := ChangeSet.events_resolve (Git.vcs w.programs) (r.effectiveBase? w.env config)
    (r.staged || config.defaults.staged)
  have hQueries : (r.perform w config exclusion).queries = (r.changes w config).events :=
    congrArg CheckTrace.queries (perform_of_no_files hFiles w config exclusion)
  rw [hQueries, changes, hEvents, hChoose]
  split
  · exact ⟨[_], le_rfl, rfl⟩
  · exact ⟨[], Nat.zero_le 1, rfl⟩

theorem calls_perform_of_disabled {r : CheckRequest} {config : Config} (hFiles : r.files = [])
    (w : World) (exclusion : Exclusion) (h : config.analyzer.enabled = false) :
    (r.perform w config exclusion).calls = [] := by
  have hAnalyzer : (w.checker config exclusion).analyzer = none := by simp [World.checker, h]
  rw [perform_of_no_files hFiles]
  exact Checker.events_run_of_analyzer_eq_none hAnalyzer _

/-- Where the analyzer is not git, it does not start git. -/
theorem program_ne_of_mem_runs_analyzer {r : CheckRequest} {w : World} {config : Config}
    {exclusion : Exclusion} {i : Invocation} (hFiles : r.files = [])
    (hOther : ¬config.AnalyzesWithGit)
    (hi : i ∈ config.analyzer.command.runs w.programs (r.perform w config exclusion).calls) :
    i.program ≠ "git" := by
  cases hEnabled : config.analyzer.enabled with
  | false =>
    rw [calls_perform_of_disabled hFiles w exclusion hEnabled] at hi
    cases hi
  | true =>
    rw [AnalyzerCommand.program_of_mem_runs hi]
    exact fun hGit => hOther ⟨hEnabled, hGit⟩

/-- The runs of git of a check with a base on its command line: one that lists what has changed
since the base, then at most one that shows the touched lines, and no other unless git is the
analyzer. Neither the environment nor the base of the configuration plays a part; staged changes are
what both runs are about if the configuration asks for them. -/
theorem runs_given_base {r : CheckRequest} {w : World} {given : String} {config : Config}
    {exclusion : Exclusion} (hConfig : Config.load w.files w.env r.config = .ok config)
    (hExclusion : Exclusion.ofGlobs config.exclude = .ok exclusion)
    (hBase : r.base = some given) (hGiven : ¬Base.IsSilent (some given))
    (hStaged : r.staged = false) (hFiles : r.files = []) :
    let range := if config.defaults.staged then "--staged" else Base.trimmed given ++ "...HEAD"
    ∃ patches : List (List String), patches.length ≤ 1 ∧
      (r.run w).runs =
        (Git.listingOf range :: patches.map (Git.patchOf range)).filter w.programs.starts ++
          config.analyzer.command.runs w.programs (r.perform w config exclusion).calls ∧
      (¬config.AnalyzesWithGit → ∀ i ∈ (r.run w).runs, i.program = "git" →
        i = Git.listingOf range ∨ ∃ paths ∈ patches, i = Git.patchOf range paths) ∧
      ((∀ i, i.program = "git" → (w.programs i).isSome = true) → '\x00' ∉ given.toList →
        Git.listingOf range ∈ (r.run w).runs) := by
  intro range
  have hRange : (givenScope given config).argument = range := argument_givenScope given config
  obtain ⟨patches, hLength, hQueries⟩ :=
    queries_perform_given w config exclusion hBase hGiven hStaged hFiles
  have hRuns : (r.run w).runs = (Git.listingOf range ::
      patches.map (Git.patchOf range)).filter w.programs.starts ++
        config.analyzer.command.runs w.programs (r.perform w config exclusion).calls := by
    rw [run, hConfig]
    simp only [runWith, hExclusion]
    rw [CheckTrace.runs, Git.runs, hQueries, List.map_cons, List.map_map, Git.invocation_listing,
      Git.invocation_comp_patch, hRange]
  refine ⟨patches, hLength, hRuns, ?_, ?_⟩
  · intro hOther i hi hProgram
    rw [hRuns] at hi
    obtain hi | hi := List.mem_append.mp hi
    · simpa [eq_comm] using (List.mem_filter.mp hi).1
    · exact absurd hProgram (program_ne_of_mem_runs_analyzer hFiles hOther hi)
  intro hGit hNul
  have hStarts : w.programs.starts (Git.listingOf range) = true := by
    rw [← hRange]
    exact Git.starts_listingOf hGit (notMem_argument_givenScope config hNul)
  rw [hRuns]
  apply List.mem_append_left
  exact List.mem_filter.mpr ⟨List.mem_cons_self, hStarts⟩

/-- A world with some files, in which git has one answer to everything. -/
def answering (files : List (String × String)) (base answer : String) : World :=
  World.ofParts (files.map fun (path, content) => (path, .ok content.toUTF8.toList))
    [(baseVariable, base)]
    (fun i => if i.program = "git" then some ⟨answer.toUTF8.toList, true⟩ else none) "now"

theorem runs_given_base_over_others :
    let w := answering [(Config.standardName, "[defaults]\nbase = \"main\"\n")] "next" "M\ta.js\n"
    let r : CheckRequest := ⟨[], some " dev ", false, none, none⟩
    w.env baseVariable = some "next" ∧
      Config.load w.files w.env r.config = .ok { defaults := { base := some "main" } } ∧
      Git.listingOf "dev...HEAD" ∈ (r.run w).runs ∧
      ∃ patches : List (List String), ∀ i ∈ (r.run w).runs, i.program = "git" →
        i = Git.listingOf "dev...HEAD" ∨ ∃ paths ∈ patches, i = Git.patchOf "dev...HEAD" paths := by
  intro w r
  have hConfig : Config.load w.files w.env r.config =
      .ok { defaults := { base := some "main" } } := by
    decide +kernel
  have hExclusion : Exclusion.ofGlobs [] = .ok ⟨[]⟩ := rfl
  have hRange : Base.trimmed " dev " ++ "...HEAD" = "dev...HEAD" := by decide +kernel
  have hOther : ¬Config.AnalyzesWithGit { defaults := { base := some "main" } } :=
    fun h => absurd h.2 (by decide)
  obtain ⟨patches, _, _, hDiffs, hListing⟩ :=
    runs_given_base hConfig hExclusion rfl (by decide +kernel) rfl rfl
  simp only [Bool.false_eq_true, if_false, hRange] at hDiffs hListing
  refine ⟨rfl, hConfig, hListing ?_ (by decide), patches, hDiffs hOther⟩
  intro i hi
  exact congrArg Option.isSome (if_pos hi)

/-- Staged changes that the configuration asks for come before a base on the command line, and git
is started for a report where it is named as the analyzer. -/
theorem not_runs_given_base :
    (let w := answering [(Config.standardName, "[defaults]\nstaged = true\n")] "next" ""
      let r : CheckRequest := ⟨[], some "dev", false, none, none⟩
      Command.ofArguments? ["check", "--base", "dev"] = some (.check r) ∧
        (r.run w).failure = none ∧
        (r.run w).runs = [Git.listingOf "--staged"] ∧
        Git.listingOf "dev...HEAD" ∉ (r.run w).runs) ∧
    (let w := answering [(Config.standardName, "analyzer.command = 'git'\n"), ("a.rb", "x\n")]
        "next" "A\ta.rb\n"
      let r : CheckRequest := ⟨[], some "dev", false, none, none⟩
      (r.run w).failure = none ∧ (r.run w).runs =
        [Git.listingOf "dev...HEAD",
          ⟨"git", ["--format", "json", "--force-exclusion", "--stdin", "a.rb"], "x\n"⟩]) := by
  constructor
  · decide +kernel
  · decide +kernel

end CheckRequest

end TouchedLines
