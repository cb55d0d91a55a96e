import TouchedLines.Proofs.Resolution
import TouchedLines.Proofs.Trimming

/-! # The questions of a run

A run asks about references only where nothing gives it a base, and of these it asks until one
exists. Then it asks for the listing of its scope, and for the patch of the same scope if some file
is modified. What it asks follows from its sources, the references, the listing and nothing else.
-/

namespace TouchedLines

open Text

namespace Base

/-- The source gives no base: it is absent or blank. -/
def IsSilent (source : Option String) : Prop :=
  ∀ text ∈ source, ∀ c ∈ text.toList, isBlank c = true

instance : DecidablePred IsSilent := fun source =>
  decidable_of_iff ((source.all fun text => text.toList.all isBlank) = true) (by
    cases source <;> simp [IsSilent])

def trimmed (text : String) : String := String.ofList (trim text.toList)

/-- The references up to the first that exists; all of them if none does. -/
def tried (known : String → Bool) (refs : List String) : List String :=
  refs.takeWhile (fun ref => !known ref) ++ (refs.find? known).toList

theorem ofText?_eq (text : String) :
    ofText? text = if trim text.toList = [] then none else some (trimmed text) := by
  simp only [ofText?, trimmed, List.isEmpty_iff]

theorem bind_ofText?_eq_none_iff {source : Option String} :
    source.bind ofText? = none ↔ IsSilent source := by
  cases source with
  | none => exact iff_of_true rfl fun _ h => nomatch h
  | some text =>
    rw [Option.bind_some, ofText?_eq, ite_eq_left_iff, IsSilent]
    simp [trim_eq_nil_iff]

theorem ofText?_of_not_isSilent {text : String} (h : ¬IsSilent (some text)) :
    ofText? text = some (trimmed text) := by
  rw [← bind_ofText?_eq_none_iff, Option.bind_some, ofText?_eq] at h
  rw [ofText?_eq]
  split
  · rename_i hNil
    exact absurd (if_pos hNil) h
  · rfl

/-- A base that is given has no blanks around it, so that it is taken as it is. -/
theorem ofText?_of_ofText? {text base : String} (h : ofText? text = some base) :
    ofText? base = some base := by
  rw [ofText?_eq] at h
  split at h
  · cases h
  · rename_i hSome
    obtain rfl := Option.some.inj h
    rw [ofText?_eq, trimmed, trimmed, String.toList_ofList, trim_trim, if_neg hSome]

theorem effective?_eq_none_iff {sources : List (Option String)} :
    effective? sources = none ↔ ∀ s ∈ sources, IsSilent s := by
  rw [effective?, List.findSome?_eq_none_iff]
  simp only [bind_ofText?_eq_none_iff]

theorem effective?_of_first {before after : List (Option String)} {text : String}
    (hBefore : ∀ s ∈ before, IsSilent s) (hText : ¬IsSilent (some text)) :
    effective? (before ++ some text :: after) = some (trimmed text) := by
  have hNone : before.findSome? (fun source => source.bind ofText?) = none := by
    rw [← effective?, effective?_eq_none_iff]
    exact hBefore
  rw [effective?, List.findSome?_append, hNone, Option.none_or, List.findSome?_cons,
    Option.bind_some, ofText?_of_not_isSilent hText]

theorem effective?_bind_ofText? (sources : List (Option String)) :
    (effective? sources).bind ofText? = effective? sources := by
  cases h : effective? sources with
  | none => rfl
  | some base =>
    obtain ⟨source, _, hSource⟩ := List.exists_of_findSome?_eq_some h
    obtain ⟨text, _, hText⟩ := Option.bind_eq_some_iff.mp hSource
    exact ofText?_of_ofText? hText

theorem events_firstExisting (vcs : Vcs) (refs : List String) :
    (firstExisting vcs refs).events = (tried vcs.refExists refs).map Query.refExists := by
  induction refs with
  | nil => rfl
  | cons ref rest ih =>
    rw [firstExisting, Traced.events_bind, tried, List.takeWhile_cons, List.find?_cons]
    cases hRef : vcs.refExists ref with
    | true => simp [Vcs.askRef, Traced.one, hRef, Traced.events_pure]
    | false => simpa [Vcs.askRef, Traced.one, hRef, tried] using ih

theorem value_firstExisting (vcs : Vcs) (refs : List String) :
    (firstExisting vcs refs).value = (refs.find? vcs.refExists).getD fallback := by
  induction refs with
  | nil => rfl
  | cons ref rest ih =>
    rw [firstExisting, Traced.value_bind, List.find?_cons]
    cases hRef : vcs.refExists ref with
    | true => simp [Vcs.askRef, Traced.one, hRef, Traced.value_pure]
    | false => simpa [Vcs.askRef, Traced.one, hRef] using ih

end Base

namespace Scope

/-- The scope of a run whose base may come from some sources. -/
structure IsAskedFor (scope : Scope) (vcs : Vcs) (sources : List (Option String))
    (onlyStaged : Bool) : Prop where
  staged : onlyStaged = true → scope = .staged
  given : onlyStaged = false → ∀ before text after, sources = before ++ some text :: after →
    (∀ s ∈ before, Base.IsSilent s) → ¬Base.IsSilent (some text) →
      scope = .since (Base.trimmed text)
  detected : onlyStaged = false → (∀ s ∈ sources, Base.IsSilent s) →
    scope = .since ((Base.candidates.find? vcs.refExists).getD Base.fallback)

theorem choose_of_effective? {sources : List (Option String)} {base : String} (vcs : Vcs)
    (h : Base.effective? sources = some base) :
    choose vcs (Base.effective? sources) false = pure (.since base) := by
  rw [choose, Base.effective?_bind_ofText?, h]
  rfl

theorem isAskedFor_choose (vcs : Vcs) (sources : List (Option String)) (onlyStaged : Bool) :
    (choose vcs (Base.effective? sources) onlyStaged).value.IsAskedFor vcs sources onlyStaged where
  staged hStaged := by
    rw [hStaged]
    rfl
  given hStaged before text after hSources hBefore hText := by
    have hBase : Base.effective? (before ++ some text :: after) = some (Base.trimmed text) :=
      Base.effective?_of_first hBefore hText
    rw [← hSources] at hBase
    rw [hStaged, choose_of_effective? vcs hBase]
    rfl
  detected hStaged hSilent := by
    rw [hStaged, Base.effective?_eq_none_iff.mpr hSilent, ← Base.value_firstExisting]
    rfl

theorem events_choose (vcs : Vcs) (sources : List (Option String)) (onlyStaged : Bool) :
    (choose vcs (Base.effective? sources) onlyStaged).events =
      if onlyStaged = false ∧ ∀ s ∈ sources, Base.IsSilent s then
        (Base.tried vcs.refExists Base.candidates).map Query.refExists
      else [] := by
  cases onlyStaged with
  | true => rfl
  | false =>
    simp only [true_and, ← Base.effective?_eq_none_iff]
    cases hBase : Base.effective? sources with
    | none =>
      rw [if_pos rfl, ← Base.events_firstExisting]
      exact List.append_nil _
    | some base =>
      rw [if_neg (by simp), ← hBase, choose_of_effective? vcs hBase]
      rfl

end Scope

/-- The old paths of the renamed files that are supported, in the order of the entries. -/
def StatusEntry.renameSources (entries : List StatusEntry) : List String :=
  (entries.filter fun e =>
    decide (e.code = .renamed ∧ (Category.ofPath? e.path).isSome = true)).filterMap source

theorem StatusEntry.filterMap_renameSource? (entries : List StatusEntry) :
    entries.filterMap renameSource? = renameSources entries := by
  rw [renameSources, List.filterMap_filter]
  apply List.filterMap_congr
  intro e _
  unfold renameSource?
  cases Category.ofPath? e.path with
  | none => simp
  | some category => cases e.code <;> simp

/-- The patch of a scope is asked for unless its listing has no modified file. -/
theorem Scope.events_changes (vcs : Vcs) (scope : Scope) :
    let entries := StatusEntry.ofListing (vcs.listing scope Category.pathspecs)
    let paths := (ChangeSet.ofEntries entries).modifiedPaths
    (scope.changes vcs).events = .listing scope Category.pathspecs ::
      if paths = [] then [] else [.patch scope (paths ++ StatusEntry.renameSources entries)] := by
  intro entries paths
  rw [changes, Traced.events_bind, ← StatusEntry.filterMap_renameSource?]
  apply congrArg (Query.listing scope Category.pathspecs :: ·)
  change (ite (paths.isEmpty = true) _ _ : Traced Query ChangeSet).events = _
  -- what is left is the same condition on both sides, outside and inside the events
  simp only [List.isEmpty_iff]
  exact apply_ite Traced.events _ _ _

namespace ChangeSet

theorem modifiedPaths_touchTable (s : ChangeSet) (t : LineTable) :
    (s.touchTable t).modifiedPaths = s.modifiedPaths := by
  rw [modifiedPaths, modifiedPaths, changes_touchTable, List.filter_map, List.map_map]
  rfl

theorem modifiedPaths_eq_nil_iff {s : ChangeSet} :
    s.modifiedPaths = [] ↔ ¬∃ c ∈ s.changes, c.kind = .modified := by
  simp [modifiedPaths, List.filter_eq_nil_iff]

theorem modifiedPaths_resolve (vcs : Vcs) (base? : Option String) (onlyStaged : Bool) :
    (resolve vcs base? onlyStaged).value.modifiedPaths =
      (ofEntries (vcs.diffs base? onlyStaged).entries).modifiedPaths := by
  rw [value_resolve, modifiedPaths_touchTable]

theorem events_resolve (vcs : Vcs) (base? : Option String) (onlyStaged : Bool) :
    let run := resolve vcs base? onlyStaged
    let scope := (Scope.choose vcs base? onlyStaged).value
    run.events = (Scope.choose vcs base? onlyStaged).events ++
      .listing scope Category.pathspecs ::
        if ∃ c ∈ run.value.changes, c.kind = .modified then
          [.patch scope (run.value.modifiedPaths ++ StatusEntry.renameSources
            (StatusEntry.ofListing (vcs.listing scope Category.pathspecs)))]
        else [] := by
  intro run scope
  have hPaths : run.value.modifiedPaths =
      (ofEntries (StatusEntry.ofListing (vcs.listing scope Category.pathspecs))).modifiedPaths :=
    modifiedPaths_resolve vcs base? onlyStaged
  have hEvents : run.events = (Scope.choose vcs base? onlyStaged).events ++
      (scope.changes vcs).events := rfl
  rw [hEvents, scope.events_changes, ← hPaths]
  simp only [modifiedPaths_eq_nil_iff, ite_not]

/-- The questions of a run with a command line, an environment and a configuration that may give a
base: references only where none of them does and no staged changes are asked for, then one listing,
then one patch of the same scope exactly if some file is modified, for the modified paths and the
old paths of renames. -/
theorem events_resolve_effective (vcs : Vcs) (flag env config : Option String)
    (onlyStaged : Bool) :
    let sources := [flag, env, config]
    let run := resolve vcs (Base.effective? sources) onlyStaged
    ∃ scope : Scope, scope.IsAskedFor vcs sources onlyStaged ∧
      run.events =
        (if onlyStaged = false ∧ ∀ s ∈ sources, Base.IsSilent s then
          (Base.tried vcs.refExists Base.candidates).map Query.refExists
        else []) ++
        .listing scope Category.pathspecs ::
          if ∃ c ∈ run.value.changes, c.kind = .modified then
            [.patch scope (run.value.modifiedPaths ++ StatusEntry.renameSources
              (StatusEntry.ofListing (vcs.listing scope Category.pathspecs)))]
          else [] := by
  intro sources run
  refine ⟨_, Scope.isAskedFor_choose vcs sources onlyStaged, ?_⟩
  rw [← Scope.events_choose]
  exact events_resolve vcs (Base.effective? sources) onlyStaged

end ChangeSet

end TouchedLines
