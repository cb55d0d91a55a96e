import Mathlib.Data.List.Forall2
import TouchedLines.Exclusion
import TouchedLines.FileTree
import TouchedLines.Proofs.Checking

/-! # Which changes are checked, and on what an outcome depends

A run has one outcome for each change that it selects, in the order of the change set. What becomes
of a change follows from its own file and from the answer of the analyzer about that file. Two runs
that agree on both have the same outcome for the change, whatever else they check.
-/

namespace TouchedLines

/-- Where `f` answers exactly on `p`, its answers stand in the order of the chosen elements. -/
theorem forall₂_filter_filterMap {α β : Type} {p : α → Prop} [DecidablePred p] {R : α → β → Prop}
    {f : α → Option β} (h : ∀ x, (¬p x ∧ f x = none) ∨ ∃ y, p x ∧ f x = some y ∧ R x y)
    (xs : List α) : List.Forall₂ R (xs.filter fun x => decide (p x)) (xs.filterMap f) := by
  induction xs with
  | nil => exact .nil
  | cons x rest ih =>
    obtain ⟨hp, hf⟩ | ⟨y, hp, hf, hR⟩ := h x
    · rw [List.filter_cons_of_neg (by simpa using hp), List.filterMap_cons_none hf]
      exact ih
    · rw [List.filter_cons_of_pos (by simpa using hp), List.filterMap_cons_some hf]
      exact .cons hR ih

theorem find?_filterMap_of_nodup {α β : Type} {f : α → Option β} {key : α → String}
    {found : β → String} (hKey : ∀ x y, f x = some y → found y = key x) {xs : List α}
    (hNodup : (xs.map key).Nodup) {x : α} (hx : x ∈ xs) :
    (xs.filterMap f).find? (fun y => decide (found y = key x)) = f x := by
  induction xs with
  | nil => cases hx
  | cons first rest ih =>
    obtain ⟨hFirst, hRest⟩ := List.nodup_cons.mp hNodup
    rcases List.mem_cons.mp hx with rfl | hx
    · cases hf : f x with
      | some y => rw [List.filterMap_cons_some hf, List.find?_cons_of_pos (by simp [hKey x y hf])]
      | none =>
        -- an answer with this key would come from a second element with it
        rw [List.filterMap_cons_none hf, List.find?_eq_none]
        intro y hy
        obtain ⟨other, hOther, hAnswer⟩ := List.mem_filterMap.mp hy
        have hNe : key other ≠ key x := by
          intro hEq
          exact hFirst (hEq ▸ List.mem_map_of_mem hOther)
        simpa [hKey other y hAnswer] using hNe
    · have hNe : key first ≠ key x := by
        intro hEq
        exact hFirst (hEq ▸ List.mem_map_of_mem hx)
      cases hf : f first with
      | none =>
        rw [List.filterMap_cons_none hf]
        exact ih hRest hx
      | some y =>
        rw [List.filterMap_cons_some hf,
          List.find?_cons_of_neg (by simpa [hKey first y hf] using hNe)]
        exact ih hRest hx

theorem Files.isSome_readText?_iff {files : Files} {path : String} :
    (files.readText? path).isSome = true ↔ (files path).isOk = true := by
  unfold readText?
  cases files path with
  | error e => exact iff_of_false Bool.false_ne_true Bool.false_ne_true
  | ok bytes => exact iff_of_true rfl rfl

namespace Summary

def outcomeAt? (s : Summary) (path : String) : Option Outcome :=
  s.outcomes.find? fun o => decide (o.path = path)

theorem failed_eq_zero_iff {s : Summary} :
    s.failed = 0 ↔ ∀ o ∈ s.outcomes, o.offenses = [] ∧ o.analyzerError = none := by
  rw [failed, List.length_eq_zero_iff, List.filter_eq_nil_iff]
  apply forall₂_congr
  intro o _
  simp [Outcome.failed]

theorem exitCode_eq_zero_iff {s : Summary} :
    s.exitCode = 0 ↔ ∀ o ∈ s.outcomes, o.offenses = [] ∧ o.analyzerError = none := by
  rw [← failed_eq_zero_iff, exitCode]
  split <;> simp_all

theorem exitCode_eq_one_iff {s : Summary} :
    s.exitCode = 1 ↔ ∃ o ∈ s.outcomes, o.offenses ≠ [] ∨ o.analyzerError ≠ none := by
  have hCodes : s.exitCode = 1 ↔ ¬s.exitCode = 0 := by
    rw [exitCode]
    split <;> simp
  rw [hCodes, exitCode_eq_zero_iff]
  push Not
  apply exists_congr
  intro o
  apply and_congr_right
  intro _
  rw [imp_iff_not_or, not_ne_iff.symm.not]
  simp

end Summary

namespace Checker

/-- The file of the change is neither excluded nor unreadable nor left untouched, and something can
check it. -/
def Selects (k : Checker) (c : Change) : Prop :=
  k.exclusion.excludes c.path = false ∧ (k.files c.path).isOk = true ∧
    ¬(c.kind = .modified ∧ c.lines = some ∅) ∧ ¬(c.category = .ruby ∧ k.analyzer.isNone = true)

instance (k : Checker) : DecidablePred k.Selects := fun _ => inferInstanceAs (Decidable (_ ∧ _))

theorem touchesNothing_eq_true_iff {c : Change} :
    touchesNothing c = true ↔ c.kind = .modified ∧ c.lines = some ∅ := by
  obtain ⟨path, kind, lines, category⟩ := c
  cases kind with
  | new => simp [touchesNothing, scopeOf]
  | modified =>
    cases lines with
    | none => simp [touchesNothing, scopeOf]
    | some lines =>
      simp [touchesNothing, scopeOf, LineSet.isEmpty, ← LineSet.toList_inj, LineSet.empty,
        EmptyCollection.emptyCollection]

/-- Everything that can become of a change. -/
theorem checkChange_cases (k : Checker) (c : Change) :
    (¬k.Selects c ∧ k.checkChange c = pure none) ∨
    ∃ source, k.Selects c ∧ k.files.readText? c.path = some source ∧
      ((∃ l, Linter.ofCategory? c.category = some l ∧
          k.checkChange c = pure (some ⟨c.path, source, l.lint source (scopeOf c), none⟩)) ∨
        (c.category = .ruby ∧ ∃ analyzer, k.analyzer = some analyzer ∧
          k.checkChange c = .one ⟨c.path, source⟩
            (some (outcomeOf c.path source (scopeOf c) (analyzer ⟨c.path, source⟩))))) := by
  by_cases hExcluded : k.exclusion.excludes c.path = true
  · refine .inl ⟨?_, if_pos hExcluded⟩
    intro h
    rw [h.1] at hExcluded
    cases hExcluded
  have hIncluded : k.exclusion.excludes c.path = false := by simpa using hExcluded
  rw [checkChange, if_neg hExcluded]
  cases hText : k.files.readText? c.path with
  | none =>
    refine .inl ⟨?_, rfl⟩
    intro h
    have hSome := Files.isSome_readText?_iff.mpr h.2.1
    rw [hText] at hSome
    cases hSome
  | some source =>
    have hReadable : (k.files c.path).isOk = true := by
      rw [← Files.isSome_readText?_iff, hText]
      rfl
    by_cases hNothing : touchesNothing c = true
    · refine .inl ⟨?_, if_pos hNothing⟩
      intro h
      exact h.2.2.1 (touchesNothing_eq_true_iff.mp hNothing)
    have hTouched := touchesNothing_eq_true_iff.not.mp hNothing
    simp only [if_neg hNothing]
    unfold checkSource
    cases hLinter : Linter.ofCategory? c.category with
    | some l =>
      have hLinted : ¬(c.category = .ruby ∧ k.analyzer.isNone = true) := by
        rintro ⟨hRuby, _⟩
        rw [ofCategory?_eq_none_iff.mpr hRuby] at hLinter
        cases hLinter
      exact .inr ⟨source, ⟨hIncluded, hReadable, hTouched, hLinted⟩, rfl, .inl ⟨l, rfl, rfl⟩⟩
    | none =>
      have hRuby := ofCategory?_eq_none_iff.mp hLinter
      cases hAnalyzer : k.analyzer with
      | none =>
        refine .inl ⟨?_, rfl⟩
        intro h
        exact h.2.2.2 ⟨hRuby, by rw [hAnalyzer]; rfl⟩
      | some analyzer =>
        have hAnalyzed : ¬(c.category = .ruby ∧ k.analyzer.isNone = true) := by
          rintro ⟨_, hNone⟩
          rw [hAnalyzer] at hNone
          cases hNone
        exact .inr ⟨source, ⟨hIncluded, hReadable, hTouched, hAnalyzed⟩, rfl,
          .inr ⟨hRuby, analyzer, rfl, rfl⟩⟩

/-! ### What is reported of a change -/

/-- A new file is asked for as a whole, even if the change bears lines. -/
def AsksForAll (c : Change) : Prop := c.kind = .new ∨ c.lines = none

/-- The outcome says of the change what its linter or the analyzer finds. -/
structure Reports (k : Checker) (c : Change) (o : Outcome) : Prop where
  path : o.path = c.path
  source : k.files.readText? c.path = some o.source
  linted : ∀ l, Linter.ofCategory? c.category = some l → o.analyzerError = none ∧
    (AsksForAll c → o.offenses = l.lintFull o.source) ∧
    ∀ lines, c.kind = .modified → c.lines = some lines →
      o.offenses = l.lintFiltered o.source lines
  analyzed : ∀ analyzer found, c.category = .ruby → k.analyzer = some analyzer →
    analyzer ⟨c.path, o.source⟩ = .ok found → o.analyzerError = none ∧
    (AsksForAll c → o.offenses = found) ∧
    ∀ lines, c.kind = .modified → c.lines = some lines →
      o.offenses = found.filter fun x => decide (x.line ∈ lines)
  failed : ∀ analyzer e, c.category = .ruby → k.analyzer = some analyzer →
    analyzer ⟨c.path, o.source⟩ = .error e → o.offenses = [] ∧ o.analyzerError = some e.message

theorem scopeOf_of_asksForAll {c : Change} (h : AsksForAll c) : scopeOf c = none := by
  unfold scopeOf
  rcases h with hNew | hNone
  · rw [hNew]
  · split
    · rfl
    · exact hNone

theorem scopeOf_of_modified {c : Change} {lines : LineSet} (hKind : c.kind = .modified)
    (hLines : c.lines = some lines) : scopeOf c = some lines := by
  rw [scopeOf, hKind, hLines]

theorem reports_of_lint {k : Checker} {c : Change} {source : String} {l : Linter}
    (hText : k.files.readText? c.path = some source)
    (hLinter : Linter.ofCategory? c.category = some l) :
    k.Reports c ⟨c.path, source, l.lint source (scopeOf c), none⟩ := by
  have hRuby : c.category ≠ .ruby := by
    intro hRuby
    rw [ofCategory?_eq_none_iff.mpr hRuby] at hLinter
    cases hLinter
  refine ⟨rfl, hText, ?_, fun _ _ h => absurd h hRuby, fun _ _ h => absurd h hRuby⟩
  intro l' hLinter'
  obtain rfl := Option.some.inj (hLinter.symm.trans hLinter')
  refine ⟨rfl, ?_, ?_⟩
  · intro hAll
    rw [scopeOf_of_asksForAll hAll]
    rfl
  · intro lines hKind hLines
    rw [scopeOf_of_modified hKind hLines]
    rfl

theorem reports_of_analyzer {k : Checker} {c : Change} {source : String} {analyzer : Analyzer}
    (hText : k.files.readText? c.path = some source) (hRuby : c.category = .ruby)
    (hAnalyzer : k.analyzer = some analyzer) :
    k.Reports c (outcomeOf c.path source (scopeOf c) (analyzer ⟨c.path, source⟩)) := by
  cases hAnswer : analyzer ⟨c.path, source⟩ with
  | error e =>
    refine ⟨rfl, hText, ?_, ?_, ?_⟩
    · intro l hLinter
      rw [ofCategory?_eq_none_iff.mpr hRuby] at hLinter
      cases hLinter
    · intro analyzer' found _ hAnalyzer' hFound
      obtain rfl := Option.some.inj (hAnalyzer.symm.trans hAnalyzer')
      cases hAnswer.symm.trans hFound
    · intro analyzer' e' _ hAnalyzer' hError
      obtain rfl := Option.some.inj (hAnalyzer.symm.trans hAnalyzer')
      obtain rfl := Except.error.inj (hAnswer.symm.trans hError)
      exact ⟨rfl, rfl⟩
  | ok found =>
    refine ⟨rfl, hText, ?_, ?_, ?_⟩
    · intro l hLinter
      rw [ofCategory?_eq_none_iff.mpr hRuby] at hLinter
      cases hLinter
    · intro analyzer' found' _ hAnalyzer' hFound
      obtain rfl := Option.some.inj (hAnalyzer.symm.trans hAnalyzer')
      obtain rfl := Except.ok.inj (hAnswer.symm.trans hFound)
      refine ⟨rfl, ?_, ?_⟩
      · intro hAll
        rw [scopeOf_of_asksForAll hAll]
        rfl
      · intro lines hKind hLines
        rw [scopeOf_of_modified hKind hLines]
        rfl
    · intro analyzer' e _ hAnalyzer' hError
      obtain rfl := Option.some.inj (hAnalyzer.symm.trans hAnalyzer')
      cases hAnswer.symm.trans hError

theorem value_checkChange_cases (k : Checker) (c : Change) :
    (¬k.Selects c ∧ (k.checkChange c).value = none) ∨
      ∃ o, k.Selects c ∧ (k.checkChange c).value = some o ∧ k.Reports c o := by
  obtain ⟨hSelects, h⟩ |
      ⟨source, hSelects, hText, ⟨l, hLinter, h⟩ | ⟨hRuby, analyzer, hAnalyzer, h⟩⟩ :=
    k.checkChange_cases c
  · exact .inl ⟨hSelects, by rw [h]; rfl⟩
  · exact .inr ⟨_, hSelects, by rw [h]; rfl, reports_of_lint hText hLinter⟩
  · exact .inr ⟨_, hSelects, by rw [h]; rfl, reports_of_analyzer hText hRuby hAnalyzer⟩

theorem forall₂_reports_run (k : Checker) (set : ChangeSet) :
    List.Forall₂ k.Reports (set.changes.filter fun c => decide (k.Selects c))
      (k.run set).value.outcomes := by
  rw [outcomes_run]
  exact forall₂_filter_filterMap k.value_checkChange_cases set.changes

/-! ### Questions to the analyzer -/

/-- The question about the file of the change. -/
structure AsksAbout (k : Checker) (c : Change) (call : AnalyzerCall) : Prop where
  path : call.path = c.path
  content : k.files.readText? c.path = some call.content

theorem events_checkChange_cases (k : Checker) (c : Change) :
    (¬(k.Selects c ∧ c.category = .ruby) ∧ (k.checkChange c).events = []) ∨
      ∃ call, (k.Selects c ∧ c.category = .ruby) ∧ (k.checkChange c).events = [call] ∧
        k.AsksAbout c call := by
  obtain ⟨hSelects, h⟩ |
      ⟨source, hSelects, hText, ⟨l, hLinter, h⟩ | ⟨hRuby, analyzer, hAnalyzer, h⟩⟩ :=
    k.checkChange_cases c
  · exact .inl ⟨fun hBoth => hSelects hBoth.1, by rw [h]; rfl⟩
  · refine .inl ⟨?_, by rw [h]; rfl⟩
    rintro ⟨_, hRuby⟩
    rw [ofCategory?_eq_none_iff.mpr hRuby] at hLinter
    cases hLinter
  · exact .inr ⟨_, ⟨hSelects, hRuby⟩, by rw [h]; rfl, ⟨rfl, hText⟩⟩

theorem events_checkAll (k : Checker) (changes : List Change) :
    (k.checkAll changes).events = changes.filterMap fun c => (k.checkChange c).events.head? := by
  induction changes with
  | nil => rfl
  | cons c rest ih =>
    rw [checkAll, Traced.events_bind, Traced.events_bind, Traced.events_pure, List.append_nil, ih]
    obtain ⟨_, h⟩ | ⟨call, _, h, _⟩ := k.events_checkChange_cases c
    · rw [h, List.filterMap_cons_none (by rw [h]; rfl)]
      rfl
    · rw [h, List.filterMap_cons_some (by rw [h]; rfl)]
      rfl

theorem events_run (k : Checker) (set : ChangeSet) :
    (k.run set).events = set.changes.filterMap fun c => (k.checkChange c).events.head? := by
  rw [run, Traced.events_bind, Traced.events_pure, List.append_nil]
  exact events_checkAll k set.changes

theorem events_run_of_analyzer_eq_none {k : Checker} (h : k.analyzer = none) (set : ChangeSet) :
    (k.run set).events = [] := by
  rw [events_run, List.filterMap_eq_nil_iff]
  intro c _
  obtain ⟨_, hEvents⟩ | ⟨_, ⟨hSelects, hRuby⟩, _⟩ := k.events_checkChange_cases c
  · rw [hEvents]
    rfl
  · exact absurd ⟨hRuby, Option.isNone_iff_eq_none.mpr h⟩ hSelects.2.2.2

/-! ### Runs that agree on a change -/

/-- For the checks of a change both are the same. -/
structure AgreesOn (k k' : Checker) (c : Change) : Prop where
  excluded : k'.exclusion.excludes c.path = k.exclusion.excludes c.path
  text : k'.files.readText? c.path = k.files.readText? c.path
  answer : c.category = .ruby → ∀ content, k.files.readText? c.path = some content →
    k'.analyzer.map (· ⟨c.path, content⟩) = k.analyzer.map (· ⟨c.path, content⟩)

theorem AgreesOn.checkChange_eq {k k' : Checker} {c : Change} (h : k.AgreesOn k' c) :
    k'.checkChange c = k.checkChange c := by
  rw [checkChange, checkChange, h.excluded, h.text]
  split
  · rfl
  · cases hText : k.files.readText? c.path with
    | none => rfl
    | some source =>
      have hSource : k'.checkSource c.path source c.category (scopeOf c) =
          k.checkSource c.path source c.category (scopeOf c) := by
        unfold checkSource
        cases hLinter : Linter.ofCategory? c.category with
        | some l => rfl
        | none =>
          have hAnswer := h.answer (ofCategory?_eq_none_iff.mp hLinter) source hText
          cases hOther : k'.analyzer with
          | none =>
            cases hOwn : k.analyzer with
            | none => rfl
            | some analyzer =>
              rw [hOther, hOwn] at hAnswer
              cases hAnswer
          | some other =>
            cases hOwn : k.analyzer with
            | none =>
              rw [hOther, hOwn] at hAnswer
              cases hAnswer
            | some analyzer =>
              rw [hOther, hOwn, Option.map_some, Option.map_some, Option.some.injEq] at hAnswer
              simp only [hAnswer]
      simp only [hSource]

theorem outcomeAt?_run (k : Checker) {set : ChangeSet} {c : Change} (hc : c ∈ set.changes) :
    (k.run set).value.outcomeAt? c.path = (k.checkChange c).value := by
  rw [Summary.outcomeAt?, outcomes_run]
  refine find?_filterMap_of_nodup (f := fun c => (k.checkChange c).value) ?_ set.nodup hc
  intro c' o hValue
  exact (checks_of_checkChange hValue).path

/-- With something else in the file at a path, and other answers about it. -/
def disturbed (k : Checker) (path : String) (content : Except FileError (List UInt8))
    (answers : Analyzer) : Checker where
  files p := if p = path then content else k.files p
  exclusion := k.exclusion
  analyzer := k.analyzer.map fun analyzer call =>
    if call.path = path then answers call else analyzer call

theorem agreesOn_disturbed (k : Checker) {c : Change} {path : String} (h : c.path ≠ path)
    (content : Except FileError (List UInt8)) (answers : Analyzer) :
    k.AgreesOn (k.disturbed path content answers) c where
  excluded := rfl
  text := by
    have hFile : (k.disturbed path content answers).files c.path = k.files c.path := if_neg h
    rw [Files.readText?, Files.readText?, hFile]
  answer := by
    intro _ text _
    cases hAnalyzer : k.analyzer with
    | none => rw [disturbed, hAnalyzer]; rfl
    | some analyzer =>
      rw [disturbed, hAnalyzer]
      exact congrArg some (if_neg h)

/-- A run selects changes by their own, and reports on each of them as if there were no other. The
analyzer is asked once about each selected Ruby file, in the order of the changes. -/
theorem run_reports_selected (k : Checker) (set : ChangeSet) :
    List.Forall₂ k.Reports (set.changes.filter fun c => decide (k.Selects c))
      (k.run set).value.outcomes ∧
    List.Forall₂ k.AsksAbout
      (set.changes.filter fun c => decide (k.Selects c ∧ c.category = .ruby))
      (k.run set).events ∧
    (∀ c ∈ set.changes,
      (((k.run set).value.outcomeAt? c.path).isSome = true ↔ k.Selects c) ∧
      (∀ (k' : Checker) (set' : ChangeSet), c ∈ set'.changes → k.AgreesOn k' c →
        (k'.run set').value.outcomeAt? c.path = (k.run set).value.outcomeAt? c.path) ∧
      ∀ path content answers, c.path ≠ path →
        ((k.disturbed path content answers).run set).value.outcomeAt? c.path =
          (k.run set).value.outcomeAt? c.path) ∧
    ((k.run set).value.exitCode = 1 ↔
      ∃ o ∈ (k.run set).value.outcomes, o.offenses ≠ [] ∨ o.analyzerError ≠ none) ∧
    ((k.run set).value.exitCode = 0 ↔
      ∀ o ∈ (k.run set).value.outcomes, o.offenses = [] ∧ o.analyzerError = none) := by
  refine ⟨k.forall₂_reports_run set, ?_, ?_, Summary.exitCode_eq_one_iff,
    Summary.exitCode_eq_zero_iff⟩
  · rw [events_run]
    refine forall₂_filter_filterMap ?_ set.changes
    intro c
    obtain ⟨hNot, hEvents⟩ | ⟨call, hRuby, hEvents, hAsks⟩ := k.events_checkChange_cases c
    · exact .inl ⟨hNot, by rw [hEvents]; rfl⟩
    · exact .inr ⟨call, hRuby, by rw [hEvents]; rfl, hAsks⟩
  · intro c hc
    have hAgree : ∀ (k' : Checker) (set' : ChangeSet), c ∈ set'.changes → k.AgreesOn k' c →
        (k'.run set').value.outcomeAt? c.path = (k.run set).value.outcomeAt? c.path := by
      intro k' set' hc' hSame
      rw [outcomeAt?_run k hc, outcomeAt?_run k' hc', hSame.checkChange_eq]
    refine ⟨?_, hAgree, ?_⟩
    · rw [outcomeAt?_run k hc]
      obtain ⟨hSelects, hValue⟩ | ⟨o, hSelects, hValue, _⟩ := k.value_checkChange_cases c
      · rw [hValue]
        exact iff_of_false Bool.false_ne_true hSelects
      · rw [hValue]
        exact iff_of_true rfl hSelects
    · intro path content answers hPath
      exact hAgree _ set hc (k.agreesOn_disturbed hPath content answers)

/-- Another file is edited, and the analyzer fails on it. -/
theorem run_reports_selected_disturbed :
    let k : Checker := {
      files := (FileTree.ofList
        [("a.rb", "x = 1\n".toUTF8.toList), ("b.erb", "<%b %>\n".toUTF8.toList)]).files
      analyzer := some fun _ => .ok [] }
    let k' := k.disturbed "a.rb" (.ok "y = 2\n".toUTF8.toList)
      fun _ => .error (.broken "rubocop" "gone")
    let c : Change := ⟨"b.erb", .new, some ∅, .erb⟩
    let set := ChangeSet.ofList [⟨"a.rb", .modified, none, .ruby⟩, c]
    c ∈ set.changes ∧ c.path ≠ "a.rb" ∧
      (k'.run set).value.outcomeAt? "b.erb" = (k.run set).value.outcomeAt? "b.erb" ∧
      ((k.run set).value.outcomeAt? "b.erb").isSome = true := by
  intro k k' c set
  have hMem : c ∈ set.changes := by decide +kernel
  have hPath : c.path ≠ "a.rb" := by decide
  have hSelects : k.Selects c := by decide +kernel
  obtain ⟨hSome, _, hDisturbed⟩ := (run_reports_selected k set).2.2.1 c hMem
  exact ⟨hMem, hPath, hDisturbed "a.rb" _ _ hPath, hSome.mpr hSelects⟩

end Checker

end TouchedLines
