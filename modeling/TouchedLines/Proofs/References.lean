import TouchedLines.Proofs.ReferenceGrammar
import TouchedLines.Proofs.Refusal

/-! # Variables that a configuration refers to

The environment is looked at only where the text of the configuration has a reference. So variables
that it does not refer to leave the configuration as it is.
-/

namespace TouchedLines

open Text

/-- Every variable that the text refers to is among its names. -/
theorem Expansion.Refers.mem_names {text name : List Char}
    (h : Refers (Segment.ofText text) name) : String.ofList name ∈ names text := by
  obtain ⟨body, hBody, hName, -⟩ := h
  refine List.mem_filterMap.mpr ⟨.reference body, hBody, ?_⟩
  rw [segmentName?, hasName_iff.mp hName]

theorem expand_congr {env env' : Environment} {text : List Char}
    (h : ∀ name ∈ Expansion.names text, env' name = env name) :
    expand env' text = expand env text :=
  Expansion.expandFrom_congr (fun _ hRefers => h _ hRefers.mem_names) 0

namespace Config

/-- The text of the configuration file refers to the variable. -/
def Mentions (files : Files) (named : Option String) (name : String) : Prop :=
  ∃ path bytes text, source? files named = some path ∧ files path = .ok bytes ∧
    Utf8.decode? bytes = some text ∧ name ∈ Expansion.names text

theorem Reads.congr {files : Files} {env env' : Environment} {path : String}
    {answer : Except ConfigFault Config} (h : Reads files env path answer)
    (hEnv : ∀ bytes text, files path = .ok bytes → Utf8.decode? bytes = some text →
      ∀ name ∈ Expansion.names text, env' name = env name) :
    Reads files env' path answer := by
  cases h with
  | unreadable hFile => exact .unreadable hFile
  | notText hFile hText => exact .notText hFile hText
  | expansion hFile hText hExpand =>
    exact .expansion hFile hText ((expand_congr (hEnv _ _ hFile hText)).trans hExpand)
  | notConfig hFile hText hExpand hParse =>
    exact .notConfig hFile hText ((expand_congr (hEnv _ _ hFile hText)).trans hExpand) hParse
  | config hFile hText hExpand hParse =>
    exact .config hFile hText ((expand_congr (hEnv _ _ hFile hText)).trans hExpand) hParse

theorem IsLoaded.congr {files : Files} {env env' : Environment} {named : Option String}
    {config : Config} (h : IsLoaded files env named config)
    (hEnv : ∀ name, Mentions files named name → env' name = env name) :
    IsLoaded files env' named config := by
  obtain ⟨hNone, hDefault⟩ | ⟨path, hPath, hReads⟩ := h
  · exact .inl ⟨hNone, hDefault⟩
  · refine .inr ⟨path, hPath, hReads.congr ?_⟩
    intro bytes text hFile hText name hName
    exact hEnv name ⟨path, bytes, text, hPath, hFile, hText, hName⟩

end Config

end TouchedLines
