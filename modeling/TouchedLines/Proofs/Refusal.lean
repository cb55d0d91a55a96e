import TouchedLines.CommandLine.Run
import TouchedLines.Proofs.Selection

/-! # Runs that do not take place

A run is refused if its configuration cannot be read or a glob in it cannot. The refusal follows
from the configuration file and the environment: nothing is written, and no program plays a part in
it. A run that is not refused checks files, and its exit code says whether one of them failed.
-/

namespace TouchedLines

open Text

namespace Config

/-- The file that holds the configuration: the one that is named, else the standard one if it is
there. -/
def source? (files : Files) : Option String → Option String
  | some path => some path
  | none => if files.exists? standardName then some standardName else none

/-- What comes of the configuration file at a path. -/
inductive Reads (files : Files) (env : Environment) (path : String) :
    Except ConfigFault Config → Prop
  | unreadable {e : FileError} (hFile : files path = .error e) :
      Reads files env path (.error (.unreadable e))
  | notText {bytes : List UInt8} (hFile : files path = .ok bytes)
      (hText : Utf8.decode? bytes = none) : Reads files env path (.error .notText)
  | expansion {bytes : List UInt8} {text : List Char} {e : ExpansionError}
      (hFile : files path = .ok bytes) (hText : Utf8.decode? bytes = some text)
      (hExpand : expand env text = .error e) : Reads files env path (.error (.expansion e))
  | notConfig {bytes : List UInt8} {text expanded : List Char}
      (hFile : files path = .ok bytes) (hText : Utf8.decode? bytes = some text)
      (hExpand : expand env text = .ok expanded) (hParse : ofText? expanded = none) :
      Reads files env path (.error .notConfig)
  | config {bytes : List UInt8} {text expanded : List Char} {config : Config}
      (hFile : files path = .ok bytes) (hText : Utf8.decode? bytes = some text)
      (hExpand : expand env text = .ok expanded) (hParse : ofText? expanded = some config) :
      Reads files env path (.ok config)

theorem Reads.ofFile_eq {files : Files} {env : Environment} {path : String}
    {answer : Except ConfigFault Config} (h : Reads files env path answer) :
    ofFile files env path = answer.mapError (ConfigError.mk path) := by
  cases h with
  | unreadable hFile => simp [ofFile, hFile, Except.mapError]
  | notText hFile hText => simp [ofFile, ofBytes, hFile, hText, Except.mapError]
  | expansion hFile hText hExpand => simp [ofFile, ofBytes, hFile, hText, hExpand, Except.mapError]
  | notConfig hFile hText hExpand hParse =>
    simp [ofFile, ofBytes, hFile, hText, hExpand, hParse, Except.mapError]
  | config hFile hText hExpand hParse =>
    simp [ofFile, ofBytes, hFile, hText, hExpand, hParse, Except.mapError]

theorem exists_reads (files : Files) (env : Environment) (path : String) :
    ∃ answer, Reads files env path answer := by
  cases hFile : files path with
  | error e => exact ⟨_, .unreadable hFile⟩
  | ok bytes =>
    cases hText : Utf8.decode? bytes with
    | none => exact ⟨_, .notText hFile hText⟩
    | some text =>
      cases hExpand : expand env text with
      | error e => exact ⟨_, .expansion hFile hText hExpand⟩
      | ok expanded =>
        cases hParse : ofText? expanded with
        | none => exact ⟨_, .notConfig hFile hText hExpand hParse⟩
        | some config => exact ⟨_, .config hFile hText hExpand hParse⟩

/-- The configuration of a run; nothing but defaults where there is no file for it. -/
def IsLoaded (files : Files) (env : Environment) (named : Option String) (config : Config) : Prop :=
  (source? files named = none ∧ config = {}) ∨
    ∃ path, source? files named = some path ∧ Reads files env path (.ok config)

theorem load_eq (files : Files) (env : Environment) (named : Option String) :
    load files env named =
      match source? files named with
      | none => .ok {}
      | some path => ofFile files env path := by
  cases named with
  | some path => rfl
  | none =>
    rw [load, source?]
    split <;> rfl

theorem IsLoaded.load_eq_ok {files : Files} {env : Environment} {named : Option String}
    {config : Config} (h : IsLoaded files env named config) :
    load files env named = .ok config := by
  rw [load_eq]
  obtain ⟨hNone, rfl⟩ | ⟨path, hPath, hReads⟩ := h
  · rw [hNone]
  · rw [hPath]
    exact hReads.ofFile_eq

end Config

namespace Exclusion

theorem readGlobs_append {before after : List String}
    (h : ∀ text ∈ before, (Glob.ofText text).isOk = true) {fault : ExclusionError}
    (hAfter : readGlobs after = .error fault) : readGlobs (before ++ after) = .error fault := by
  induction before with
  | nil => exact hAfter
  | cons text rest ih =>
    have hText := h text List.mem_cons_self
    rw [List.cons_append, readGlobs]
    cases hGlob : Glob.ofText text with
    | error e =>
      rw [hGlob] at hText
      cases hText
    | ok glob =>
      simp only [ih fun t ht => h t (List.mem_cons_of_mem _ ht)]
      rfl

theorem ofGlobs_of_first {before after : List String} {glob : String} {fault : GlobFault}
    (h : ∀ text ∈ before, (Glob.ofText text).isOk = true)
    (hGlob : Glob.ofText glob = .error fault) :
    ofGlobs (before ++ glob :: after) = .error ⟨glob, fault⟩ := by
  have hFirst : readGlobs (glob :: after) = .error ⟨glob, fault⟩ := by rw [readGlobs, hGlob]
  rw [ofGlobs, readGlobs_append h hFirst]
  rfl

/-- Either all globs can be read, or there is a first that cannot. -/
theorem readGlobs_cases (texts : List String) :
    (∃ globs, readGlobs texts = .ok globs) ∨
    ∃ before glob after fault, texts = before ++ glob :: after ∧
      (∀ text ∈ before, (Glob.ofText text).isOk = true) ∧ Glob.ofText glob = .error fault := by
  induction texts with
  | nil => exact .inl ⟨[], rfl⟩
  | cons text rest ih =>
    cases hGlob : Glob.ofText text with
    | error fault => exact .inr ⟨[], text, rest, fault, rfl, by simp, hGlob⟩
    | ok glob =>
      obtain ⟨globs, hGlobs⟩ | ⟨before, bad, after, fault, rfl, hBefore, hBad⟩ := ih
      · refine .inl ⟨glob :: globs, ?_⟩
        rw [readGlobs, hGlob, hGlobs]
        rfl
      · refine .inr ⟨text :: before, bad, after, fault, rfl, ?_, hBad⟩
        rintro t (_ | ⟨_, ht⟩)
        · rw [hGlob]
          rfl
        · exact hBefore t ht

end Exclusion

namespace Summary

end Summary

namespace CheckRequest

/-- What stands in the way of a run: the configuration, or the first bad glob in it. -/
inductive Refuses (r : CheckRequest) (w : World) : Failure → Prop
  | config {path : String} {fault : ConfigFault}
      (hSource : Config.source? w.files r.config = some path)
      (hReads : Config.Reads w.files w.env path (.error fault)) :
      Refuses r w (.config ⟨path, fault⟩)
  | exclusion {config : Config} {before after : List String} {glob : String} {fault : GlobFault}
      (hConfig : Config.IsLoaded w.files w.env r.config config)
      (hGlobs : config.exclude = before ++ glob :: after)
      (hBefore : ∀ text ∈ before, (Glob.ofText text).isOk = true)
      (hGlob : Glob.ofText glob = .error fault) :
      Refuses r w (.exclusion ⟨glob, fault⟩)

theorem Refuses.run_eq {r : CheckRequest} {w : World} {f : Failure} (h : r.Refuses w f) :
    r.run w = .failed f := by
  cases h with
  | config hSource hReads =>
    rw [run, Config.load_eq, hSource]
    simp only [hReads.ofFile_eq, Except.mapError]
  | exclusion hConfig hGlobs hBefore hGlob =>
    rw [run, hConfig.load_eq_ok]
    simp only [runWith, hGlobs, Exclusion.ofGlobs_of_first hBefore hGlob]

theorem run_of_loaded {r : CheckRequest} {w : World} {config : Config} {exclusion : Exclusion}
    (hConfig : Config.IsLoaded w.files w.env r.config config)
    (hExclusion : Exclusion.ofGlobs config.exclude = .ok exclusion) :
    r.run w =
      { exitCode := (r.perform w config exclusion).summary.exitCode
        output := (r.perform w config exclusion).report w (r.effectiveFormat config)
        failure := none
        runs := (r.perform w config exclusion).runs w config } := by
  rw [run, hConfig.load_eq_ok]
  simp only [runWith, hExclusion]

/-- A run that is not refused ends with the exit code of its check. -/
theorem run_cases (r : CheckRequest) (w : World) :
    (∃ f, r.Refuses w f) ∨
    ∃ config exclusion, Config.IsLoaded w.files w.env r.config config ∧
      Exclusion.ofGlobs config.exclude = .ok exclusion ∧
      (r.run w).exitCode = (r.perform w config exclusion).summary.exitCode := by
  have hLoaded : (∃ f, r.Refuses w f) ∨
      ∃ config, Config.IsLoaded w.files w.env r.config config := by
    cases hSource : Config.source? w.files r.config with
    | none => exact .inr ⟨{}, .inl ⟨hSource, rfl⟩⟩
    | some path =>
      obtain ⟨fault | config, hReads⟩ := Config.exists_reads w.files w.env path
      · exact .inl ⟨_, .config hSource hReads⟩
      · exact .inr ⟨config, .inr ⟨path, hSource, hReads⟩⟩
  obtain hRefused | ⟨config, hConfig⟩ := hLoaded
  · exact .inl hRefused
  obtain ⟨globs, hGlobs⟩ | ⟨before, glob, after, fault, hSplit, hBefore, hGlob⟩ :=
    Exclusion.readGlobs_cases config.exclude
  · have hExclusion : Exclusion.ofGlobs config.exclude = .ok ⟨globs⟩ := by
      rw [Exclusion.ofGlobs, hGlobs]
      rfl
    refine .inr ⟨config, ⟨globs⟩, hConfig, hExclusion, ?_⟩
    rw [run_of_loaded hConfig hExclusion]
  · exact .inl ⟨_, .exclusion hConfig hSplit hBefore hGlob⟩

end CheckRequest

end TouchedLines
