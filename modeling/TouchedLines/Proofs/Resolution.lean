import TouchedLines.Proofs.Attribution
import TouchedLines.Sample
import TouchedLines.Vcs.Changes

/-! # The change set that two diffs describe

A listing decides which files a run is about and which of them are new; a patch says which lines of
the others are touched. `ChangeSet.Describes` states what the change set of a run has to say about
both, without reference to the order in which it is built, and determines the set.
-/

namespace TouchedLines

namespace StatusEntry

/-- The entry reports that a supported file was added, modified or renamed. -/
def IsChange (e : StatusEntry) : Prop :=
  (Category.ofPath? e.path).isSome = true ∧
    (e.code = .added ∨ e.code = .modified ∨ e.code = .renamed)

instance : DecidablePred IsChange := fun _ => inferInstanceAs (Decidable (_ ∧ _))

/-- The entry that decides about a path: the last that reports a change of its file. -/
def deciding? (entries : List StatusEntry) (path : String) : Option StatusEntry :=
  (entries.filter fun e => decide (e.IsChange ∧ e.path = path)).getLast?

theorem deciding?_append_singleton (entries : List StatusEntry) (e : StatusEntry) (path : String) :
    deciding? (entries ++ [e]) path =
      if e.IsChange ∧ e.path = path then some e else deciding? entries path := by
  unfold deciding?
  rw [List.filter_append, List.filter_cons, List.filter_nil]
  by_cases h : e.IsChange ∧ e.path = path
  · rw [if_pos (decide_eq_true h), if_pos h, List.getLast?_concat]
  · rw [if_neg (by simpa using h), if_neg h, List.append_nil]

theorem of_deciding? {entries : List StatusEntry} {path : String} {e : StatusEntry}
    (h : deciding? entries path = some e) : e ∈ entries ∧ e.IsChange ∧ e.path = path := by
  have hMem := List.mem_of_getLast? h
  simpa using hMem

theorem change?_eq_some_iff {e : StatusEntry} {c : Change} :
    e.change? = some c ↔ ∃ category, Category.ofPath? e.path = some category ∧
      ((e.code = .added ∧ c = .newFile e.path category) ∨
        ((e.code = .modified ∨ e.code = .renamed) ∧ c = .modified e.path category)) := by
  unfold change?
  cases Category.ofPath? e.path with
  | none => simp
  | some category => cases e.code <;> simp [eq_comm]

theorem change?_eq_none_iff {e : StatusEntry} : e.change? = none ↔ ¬e.IsChange := by
  unfold change? IsChange
  cases Category.ofPath? e.path with
  | none => simp
  | some category => cases e.code <;> simp

theorem isChange_of_change? {e : StatusEntry} {c : Change} (h : e.change? = some c) :
    e.IsChange ∧ c.path = e.path := by
  constructor
  · by_contra hNot
    rw [change?_eq_none_iff.mpr hNot] at h
    cases h
  · obtain ⟨_, _, ⟨_, rfl⟩ | ⟨_, rfl⟩⟩ := change?_eq_some_iff.mp h
    · rfl
    · rfl

theorem map_path_filterMap_change? (entries : List StatusEntry) :
    (entries.filterMap change?).map Change.path =
      (entries.filter fun e => decide e.IsChange).map path := by
  induction entries with
  | nil => rfl
  | cons e rest ih =>
    cases h : e.change? with
    | none =>
      have hNone := change?_eq_none_iff.mp h
      rw [List.filterMap_cons_none h, List.filter_cons_of_neg (by simpa using hNone), ih]
    | some c =>
      obtain ⟨hChange, hPath⟩ := isChange_of_change? h
      rw [List.filterMap_cons_some h, List.filter_cons_of_pos (by simpa using hChange),
        List.map_cons, List.map_cons, ih, hPath]

end StatusEntry

theorem eraseDups_append_singleton (paths : List String) (path : String) :
    (paths ++ [path]).eraseDups =
      if path ∈ paths then paths.eraseDups else paths.eraseDups ++ [path] := by
  rw [List.eraseDups_append]
  by_cases h : path ∈ paths
  · simp [h, List.removeAll]
  · simp [h, List.removeAll, List.eraseDups_cons]

theorem eq_of_map_eq {α β : Type} {f : α → β} {xs ys : List α} (h : xs.map f = ys.map f)
    (hEq : ∀ x ∈ xs, ∀ y ∈ ys, f x = f y → x = y) : xs = ys := by
  induction xs generalizing ys with
  | nil => simpa using h.symm
  | cons x xs ih =>
    cases ys with
    | nil => cases h
    | cons y ys =>
      rw [List.map_cons, List.map_cons, List.cons.injEq] at h
      have hHead := hEq x List.mem_cons_self y List.mem_cons_self h.1
      have hTail := ih h.2 fun a ha b hb =>
        hEq a (List.mem_cons_of_mem _ ha) b (List.mem_cons_of_mem _ hb)
      rw [hHead, hTail]

namespace ChangeSet

theorem ext_changes {s t : ChangeSet} (h : s.changes = t.changes) : s = t := by
  cases s
  cases t
  cases h
  rfl

theorem paths_insert (s : ChangeSet) (c : Change) :
    (s.insert c).paths = if c.path ∈ s.paths then s.paths else s.paths ++ [c.path] := by
  unfold insert
  split
  · exact map_path_updateList _ fun _ _ => rfl
  · simp [paths]

theorem mem_changes_insert {s : ChangeSet} {c d : Change} :
    d ∈ (s.insert c).changes ↔ d = c ∨ (d ∈ s.changes ∧ d.path ≠ c.path) := by
  unfold insert
  split
  · rename_i hMem
    simp only [updateList, List.mem_map]
    constructor
    · rintro ⟨old, hOld, rfl⟩
      by_cases hPath : old.path = c.path
      · exact .inl (if_pos hPath)
      · exact .inr (by simpa [hPath] using hOld)
    · rintro (rfl | ⟨hOld, hPath⟩)
      · obtain ⟨old, hOld, hPath⟩ := List.mem_map.mp hMem
        exact ⟨old, hOld, if_pos hPath⟩
      · exact ⟨d, hOld, if_neg hPath⟩
  · rename_i hNew
    simp only [List.mem_append, List.mem_singleton]
    constructor
    · rintro (hOld | rfl)
      · exact .inr ⟨hOld, fun hPath => hNew (hPath ▸ List.mem_map_of_mem hOld)⟩
      · exact .inl rfl
    · rintro (rfl | ⟨hOld, _⟩)
      · exact .inr rfl
      · exact .inl hOld

theorem ofList_append_singleton (changes : List Change) (c : Change) :
    ofList (changes ++ [c]) = (ofList changes).insert c :=
  List.foldl_append

/-- A change stands where its path first came up. -/
theorem paths_ofList (changes : List Change) :
    (ofList changes).paths = (changes.map Change.path).eraseDups := by
  induction changes using List.reverseRecOn with
  | nil => rfl
  | append_singleton changes c ih =>
    have hMem : c.path ∈ (ofList changes).paths ↔ c.path ∈ changes.map Change.path := by
      rw [ih, List.mem_eraseDups]
    rw [ofList_append_singleton, paths_insert, List.map_append, List.map_cons, List.map_nil,
      eraseDups_append_singleton, ← ih]
    simp only [hMem]

theorem mem_of_mem_changes_ofList {changes : List Change} {c : Change}
    (h : c ∈ (ofList changes).changes) : c ∈ changes := by
  induction changes using List.reverseRecOn with
  | nil => cases h
  | append_singleton changes last ih =>
    rw [ofList_append_singleton, mem_changes_insert] at h
    obtain rfl | ⟨hEarlier, _⟩ := h
    · exact List.mem_append_right changes List.mem_cons_self
    · exact List.mem_append_left [last] (ih hEarlier)

theorem ofEntries_append_singleton (entries : List StatusEntry) (e : StatusEntry) :
    ofEntries (entries ++ [e]) =
      match e.change? with
      | none => ofEntries entries
      | some c => (ofEntries entries).insert c := by
  unfold ofEntries ofList
  rw [List.filterMap_append, List.foldl_append]
  cases h : e.change? <;> simp [h]

/-- A file stands where its first change was reported. -/
theorem paths_ofEntries (entries : List StatusEntry) :
    (ofEntries entries).paths =
      ((entries.filter fun e => decide e.IsChange).map StatusEntry.path).eraseDups := by
  rw [ofEntries, paths_ofList, StatusEntry.map_path_filterMap_change?]

/-- A later report of a file replaces an earlier one. -/
theorem mem_changes_ofEntries {entries : List StatusEntry} {d : Change} :
    d ∈ (ofEntries entries).changes ↔
      ∃ e, StatusEntry.deciding? entries d.path = some e ∧ e.change? = some d := by
  induction entries using List.reverseRecOn with
  | nil =>
    constructor
    · intro h
      cases h
    · rintro ⟨e, h, _⟩
      cases h
  | append_singleton entries e ih =>
    rw [ofEntries_append_singleton]
    simp only [StatusEntry.deciding?_append_singleton]
    cases h : e.change? with
    | none =>
      have hNone := StatusEntry.change?_eq_none_iff.mp h
      simpa [hNone] using ih
    | some c =>
      obtain ⟨hChange, hPath⟩ := StatusEntry.isChange_of_change? h
      rw [mem_changes_insert, ih, hPath]
      by_cases hd : e.path = d.path
      · simp [hChange, hd, h, eq_comm]
      · have hNe : d ≠ c := by
          rintro rfl
          exact hd hPath.symm
        simp [hd, hNe, Ne.symm hd]

theorem changes_touch (s : ChangeSet) (path : String) (lines : LineSet) :
    (s.touch path lines).changes =
      s.changes.map fun c => if c.path = path then c.touch lines else c := rfl

theorem touch_empty (c : Change) : c.touch ∅ = c := by
  cases c with
  | mk path kind lines category => cases lines <;> simp [Change.touch]

/-- Paths do not repeat in a table, so that each change is touched once at most. -/
theorem changes_touchTable (s : ChangeSet) (t : LineTable) :
    (s.touchTable t).changes = s.changes.map fun c => c.touch (t.linesOf c.path) := by
  obtain ⟨entries, hAscending⟩ := t
  simp only [touchTable, LineTable.linesOf, LineTable.find?]
  induction entries generalizing s with
  | nil => simp [touch_empty]
  | cons entry rest ih =>
    obtain ⟨path, lines⟩ := entry
    rw [List.map_cons, List.pairwise_cons] at hAscending
    rw [List.foldl_cons, ih _ hAscending.2, changes_touch, List.map_map]
    apply List.map_congr_left
    intro c _
    by_cases hPath : c.path = path
    · subst hPath
      -- the paths of the rest lie above this one, so that they touch the change no more
      have hRest := LineTable.lookup_eq_none_of_forall_lt hAscending.1
      simp [Change.touch_path, hRest, touch_empty]
    · have hBeq : (c.path == path) = false := by simpa using hPath
      simp [hPath, List.lookup_cons, hBeq]

/-- The change set is what a listing and a table of touched lines say: the files with a reported
change in the order of their first report, and for each of them what the last report says of it. -/
structure Describes (s : ChangeSet) (entries : List StatusEntry) (t : LineTable) : Prop where
  paths : s.paths = ((entries.filter fun e => decide e.IsChange).map StatusEntry.path).eraseDups
  category : ∀ c ∈ s.changes, Category.ofPath? c.path = some c.category
  decided : ∀ c ∈ s.changes, ∃ e, StatusEntry.deciding? entries c.path = some e ∧
    ((e.code = .added ∧ c.kind = .new ∧ c.lines = none) ∨
      ((e.code = .modified ∨ e.code = .renamed) ∧ c.kind = .modified ∧
        c.lines = some ((t.find? c.path).getD ∅)))

theorem describes_touchTable (entries : List StatusEntry) (t : LineTable) :
    ((ofEntries entries).touchTable t).Describes entries t := by
  have hChanges : ∀ c ∈ ((ofEntries entries).touchTable t).changes,
      ∃ e old, StatusEntry.deciding? entries old.path = some e ∧ e.change? = some old ∧
        c = old.touch (t.linesOf old.path) := by
    intro c hc
    rw [changes_touchTable] at hc
    obtain ⟨old, hOld, rfl⟩ := List.mem_map.mp hc
    obtain ⟨e, hDecides, hChange⟩ := mem_changes_ofEntries.mp hOld
    exact ⟨e, old, hDecides, hChange, rfl⟩
  refine ⟨?_, ?_, ?_⟩
  · rw [← paths_ofEntries, ChangeSet.paths, changes_touchTable, List.map_map]
    rfl
  · intro c hc
    obtain ⟨e, old, _, hChange, rfl⟩ := hChanges c hc
    obtain ⟨category, hCategory, ⟨_, rfl⟩ | ⟨_, rfl⟩⟩ := StatusEntry.change?_eq_some_iff.mp hChange
    · exact hCategory
    · exact hCategory
  · intro c hc
    obtain ⟨e, old, hDecides, hChange, rfl⟩ := hChanges c hc
    refine ⟨e, hDecides, ?_⟩
    obtain ⟨category, _, ⟨hCode, rfl⟩ | ⟨hCode, rfl⟩⟩ := StatusEntry.change?_eq_some_iff.mp hChange
    · exact .inl ⟨hCode, rfl, rfl⟩
    · refine .inr ⟨hCode, rfl, ?_⟩
      exact congrArg some (LineSet.empty_union _)

/-- A description determines its set; what the table says of new files and of files without a
report plays no part in it. -/
theorem Describes.eq {s s' : ChangeSet} {entries : List StatusEntry} {t t' : LineTable}
    (h : s.Describes entries t) (h' : s'.Describes entries t')
    (hLines : ∀ path e, StatusEntry.deciding? entries path = some e → e.code ≠ .added →
      t.linesOf path = t'.linesOf path) : s = s' := by
  refine ext_changes (eq_of_map_eq (h.paths.trans h'.paths.symm) ?_)
  intro c hc c' hc' hPath
  have hCategory : c.category = c'.category := by
    refine Option.some.inj ?_
    rw [← h.category c hc, ← h'.category c' hc', hPath]
  obtain ⟨e, hDecides, hCase⟩ := h.decided c hc
  obtain ⟨e', hDecides', hCase'⟩ := h'.decided c' hc'
  obtain rfl : e = e' := by
    rw [← hPath] at hDecides'
    exact Option.some.inj (hDecides.symm.trans hDecides')
  have hKindLines : c.kind = c'.kind ∧ c.lines = c'.lines := by
    rcases hCase with ⟨hCode, hKind, hNone⟩ | ⟨hCode, hKind, hSome⟩ <;>
      rcases hCase' with ⟨hCode', hKind', hNone'⟩ | ⟨hCode', hKind', hSome'⟩
    · exact ⟨hKind.trans hKind'.symm, hNone.trans hNone'.symm⟩
    · simp [hCode] at hCode'
    · simp [hCode'] at hCode
    · have hAgree := hLines c.path e hDecides (by rcases hCode with hCode | hCode <;> simp [hCode])
      refine ⟨hKind.trans hKind'.symm, ?_⟩
      rw [hSome, hSome', ← hPath]
      exact congrArg some hAgree
  cases c
  cases c'
  simp_all

/-- Where no file is modified there is nothing to touch, and the patch need not be asked for. -/
theorem touchTable_of_isEmpty {entries : List StatusEntry}
    (h : (ofEntries entries).modifiedPaths.isEmpty = true) (t : LineTable) :
    (ofEntries entries).touchTable t = ofEntries entries := by
  apply ext_changes
  rw [changes_touchTable]
  conv_rhs => rw [← List.map_id (ofEntries entries).changes]
  apply List.map_congr_left
  intro c hc
  obtain ⟨e, _, hChange⟩ := mem_changes_ofEntries.mp hc
  obtain ⟨category, _, ⟨_, rfl⟩ | ⟨_, rfl⟩⟩ := StatusEntry.change?_eq_some_iff.mp hChange
  · rfl
  · have hMem : e.path ∈ (ofEntries entries).modifiedPaths :=
      List.mem_map.mpr ⟨_, List.mem_filter.mpr ⟨hc, rfl⟩, rfl⟩
    rw [List.isEmpty_iff.mp h] at hMem
    cases hMem

end ChangeSet

/-- What the two diffs of a run answer: the entries of the listing and the patch. -/
structure Diffs where
  entries : List StatusEntry
  patch : String

/-- The patch is asked for with the modified paths and the old paths of renames. -/
def Vcs.diffs (vcs : Vcs) (base? : Option String) (onlyStaged : Bool) : Diffs :=
  let scope := (Scope.choose vcs base? onlyStaged).value
  let entries := StatusEntry.ofListing (vcs.listing scope Category.pathspecs)
  ⟨entries, vcs.patch scope ((ChangeSet.ofEntries entries).modifiedPaths ++
    entries.filterMap StatusEntry.renameSource?)⟩

namespace ChangeSet

theorem value_resolve (vcs : Vcs) (base? : Option String) (onlyStaged : Bool) :
    (resolve vcs base? onlyStaged).value =
      (ofEntries (vcs.diffs base? onlyStaged).entries).touchTable
        (.ofPatch (vcs.diffs base? onlyStaged).patch) := by
  rw [resolve, Traced.value_bind, Scope.changes, Traced.value_bind]
  by_cases h : (ofEntries (vcs.diffs base? onlyStaged).entries).modifiedPaths.isEmpty = true
  · rw [touchTable_of_isEmpty h]
    exact congrArg Traced.value (if_pos h)
  · exact congrArg Traced.value (if_neg h)

theorem describes_resolve (vcs : Vcs) (base? : Option String) (onlyStaged : Bool) :
    (resolve vcs base? onlyStaged).value.Describes (vcs.diffs base? onlyStaged).entries
      (.ofPatch (vcs.diffs base? onlyStaged).patch) := by
  rw [value_resolve]
  exact describes_touchTable _ _

/-- A run resolves to the change set that its two diffs describe. Any other patch that touches the
same lines of the modified files leads to the same set, so that hunks of other files and of new ones
have no effect. -/
theorem resolve_describes (vcs : Vcs) (base? : Option String) (onlyStaged : Bool) :
    (resolve vcs base? onlyStaged).value.paths.Nodup ∧
    (resolve vcs base? onlyStaged).value.Describes (vcs.diffs base? onlyStaged).entries
      (.ofPatch (vcs.diffs base? onlyStaged).patch) ∧
    ∀ patch : Scope → List String → String,
      (∀ path e, StatusEntry.deciding? (vcs.diffs base? onlyStaged).entries path = some e →
        e.code ≠ .added → ∀ n, Touches (vcs.diffs base? onlyStaged).patch path n ↔
          Touches (Vcs.diffs { vcs with patch } base? onlyStaged).patch path n) →
      (resolve { vcs with patch } base? onlyStaged).value =
        (resolve vcs base? onlyStaged).value := by
  refine ⟨nodup _, describes_resolve vcs base? onlyStaged, ?_⟩
  intro patch hAgree
  have hOther := describes_resolve { vcs with patch } base? onlyStaged
  refine (Describes.eq (describes_resolve vcs base? onlyStaged) hOther ?_).symm
  intro path e hDecides hCode
  apply LineSet.ext
  intro n
  rw [mem_linesOf_ofPatch, mem_linesOf_ofPatch]
  exact hAgree path e hDecides hCode n

/-- Lines are taken away only, and the file is modified without a touched line. -/
example : ((ofEntries [⟨.modified, "app/views/show.html.erb", none⟩]).touchTable
    (.ofPatch Sample.deletionPatch)).changes =
      [⟨"app/views/show.html.erb", .modified, some ∅, .erb⟩] := by
  rw [LineTable.ofPatch, Sample.deletionPatch, String.toList_join]
  decide +kernel

end ChangeSet

end TouchedLines
