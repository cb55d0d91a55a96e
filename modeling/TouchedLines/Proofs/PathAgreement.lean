import TouchedLines.Proofs.FileNames
import TouchedLines.Proofs.PatchBody
import TouchedLines.Proofs.PrintedHeader
import TouchedLines.Proofs.PrintedListing
import TouchedLines.Proofs.Resolution
import TouchedLines.Proofs.Trimming

/-! # The path of a file in a listing and in a patch

The listing trims whole lines before it takes the path, the patch trims the path behind the mark of
a target line. Both read the same path where it neither begins nor ends with a blank, and a path
with a supported extension never ends with one.
-/

namespace TouchedLines

open Text

namespace Category

/-- A path that has a category ends with the extension, unless it ends with a slash or a dot. -/
theorem isBlank_of_ofPath? {path : String} {category : Category}
    (h : ofPath? path = some category) {text : List Char} {c : Char}
    (hPath : path.toList = text ++ [c]) : isBlank c = false := by
  by_cases hSlash : c = '/'
  · rw [hSlash]
    decide
  by_cases hDot : c = '.'
  · rw [hDot]
    decide
  have hLast : path.toList.getLast? = some c := by rw [hPath, List.getLast?_concat]
  have hEnd : path.toList.getLast? ≠ some '/' := by simpa [hLast] using hSlash
  have hNamed : Path.lastPart path ≠ ['.'] := by
    intro hStep
    have hPart : [c] <:+ Path.lastPart path :=
      (Path.suffix_toList_iff (by simpa using Ne.symm hSlash)).mp ⟨text, hPath.symm⟩
    rw [hStep, List.singleton_suffix_iff_getLast?_eq_some] at hPart
    exact hDot (Option.some.inj hPart).symm
  obtain ⟨⟨front, hFront⟩, -⟩ := (ofPath?_eq_some_iff_suffix hEnd hNamed category).mp h
  rw [← hFront, List.getLast?_append] at hLast
  cases category with
  | ruby => obtain rfl := Option.some.inj hLast; decide
  | javascript => obtain rfl := Option.some.inj hLast; decide
  | erb => obtain rfl := Option.some.inj hLast; decide

theorem ne_nil_of_ofPath? {path : String} {category : Category}
    (h : ofPath? path = some category) : path.toList ≠ [] := by
  intro hNil
  rw [String.toList_eq_nil_iff.mp hNil] at h
  cases h

end Category

theorem ListedChange.isPlain_modified {path : String} {category : Category}
    (hCategory : Category.ofPath? path = some category) (hTab : '\t' ∉ path.toList)
    (hNewline : '\n' ∉ path.toList) : (modified path).IsPlain where
  path := ⟨hTab, hNewline⟩
  ne_nil := Category.ne_nil_of_ofPath? hCategory
  ending := by
    intro last hLast
    obtain ⟨text, hPath⟩ := List.getLast?_eq_some_iff.mp hLast
    exact Category.isBlank_of_ofPath? hCategory hPath
  source := nofun

namespace PatchReading

/-- Nothing is read from the line. -/
def IsIgnored (line : Line) : Prop := targetOf? line = none ∧ Hunk.ofHeader? line = none

theorem foldl_read_of_isIgnored {lines : List Line} (h : ∀ line ∈ lines, IsIgnored line)
    (r : PatchReading) : lines.foldl read r = r := by
  induction lines with
  | nil => rfl
  | cons line rest ih =>
    obtain ⟨hTarget, hHeader⟩ := h line List.mem_cons_self
    rw [List.foldl_cons, read_eq_self hTarget hHeader]
    exact ih fun l hl => h l (List.mem_cons_of_mem _ hl)

theorem linesOf_foldl_read {above below : List Line} {targetLine header : Line} {target : String}
    {hunk : Hunk} (hIgnored : ∀ line ∈ above ++ below, IsIgnored line)
    (hTarget : targetOf? targetLine = some target) (hHeader : Hunk.ofHeader? header = some hunk) :
    ((above ++ targetLine :: header :: below).foldl read ⟨∅, none⟩).table.linesOf target =
      hunk.lines := by
  have hAbove := foldl_read_of_isIgnored fun line hl => hIgnored line (List.mem_append_left _ hl)
  have hBelow := foldl_read_of_isIgnored fun line hl => hIgnored line (List.mem_append_right _ hl)
  have hNone := targetOf?_eq_none_of_ofHeader? hHeader
  have hFirst : (⟨∅, none⟩ : PatchReading).read targetLine =
      ⟨LineTable.add ∅ target ∅, some target⟩ := by
    rw [read, hTarget]
  have hSecond : (⟨LineTable.add ∅ target ∅, some target⟩ : PatchReading).read header =
      ⟨(LineTable.add ∅ target ∅).add target hunk.lines, some target⟩ := by
    rw [read, hNone, hHeader]
  rw [List.foldl_append, hAbove, List.foldl_cons, List.foldl_cons, hFirst, hSecond, hBelow,
    LineTable.linesOf_add, if_pos rfl, LineTable.linesOf_add, if_pos rfl, LineSet.union_empty]
  exact LineSet.empty_union _

/-- The line that names the file of the hunks below it. -/
def targetLine (path : String) : Line := targetMark ++ path.toList

theorem targetOf?_targetLine {path : String} {category : Category}
    (hCategory : Category.ofPath? path = some category)
    (hStart : ∀ c, path.toList.head? = some c → isBlank c = false) :
    targetOf? (targetLine path) = some path := by
  apply targetOf?_append
  refine trim_eq_self_iff.mpr ⟨hStart, ?_⟩
  intro c hc
  obtain ⟨text, hPath⟩ := List.getLast?_eq_some_iff.mp hc
  exact Category.isBlank_of_ofPath? hCategory hPath

end PatchReading

namespace Text

/-- Text without line ends is one line, whether a newline follows it or not. -/
theorem splitReturnLines_of_notMem {line : Line} (hNil : line ≠ []) (hNewline : '\n' ∉ line) :
    splitReturnLines line = [line] := by
  induction line with
  | nil => exact absurd rfl hNil
  | cons c cs ih =>
    obtain ⟨hc, hcs⟩ : '\n' ≠ c ∧ '\n' ∉ cs := by simpa using hNewline
    have hHead : ¬(c = '\r' ∧ cs.head? = some '\n') := by
      rintro ⟨_, hHead⟩
      exact hcs (List.mem_of_head? hHead)
    rw [splitReturnLines_cons hHead, if_neg hc.symm]
    cases cs with
    | nil => rfl
    | cons d ds => rw [ih (List.cons_ne_nil _ _) hcs]

end Text

namespace ChangeSet

/-- A listing with one line for a modified file gives one change, with the lines that the patch
has for that path. -/
theorem changes_resolve_of_modified {vcs : Vcs} {base? : Option String} {onlyStaged : Bool}
    {path : String} {category : Category} (hCategory : Category.ofPath? path = some category)
    (hTab : '\t' ∉ path.toList) (hNewline : '\n' ∉ path.toList)
    (hListing : splitReturnLines
      (vcs.listing (Scope.choose vcs base? onlyStaged).value Category.pathspecs).toList =
        ['M' :: '\t' :: path.toList]) :
    (resolve vcs base? onlyStaged).value.changes = [⟨path, .modified,
      some ((LineTable.ofPatch (vcs.diffs base? onlyStaged).patch).linesOf path), category⟩] := by
  have hEntries : (vcs.diffs base? onlyStaged).entries = [⟨.modified, path, none⟩] := by
    have hLine : StatusEntry.ofLine? ('M' :: '\t' :: path.toList) = some ⟨.modified, path, none⟩ :=
      (ListedChange.isPlain_modified hCategory hTab hNewline).ofLine?_line
    rw [Vcs.diffs, StatusEntry.ofListing, hListing, List.filterMap_cons, hLine]
    rfl
  have hChange : StatusEntry.change? ⟨.modified, path, none⟩ = some (.modified path category) := by
    rw [StatusEntry.change?, hCategory]
  have hSet : (ofEntries [⟨.modified, path, none⟩]).changes = [.modified path category] := by
    rw [ofEntries, List.filterMap_cons, hChange]
    rfl
  rw [value_resolve, hEntries, changes_touchTable, hSet, List.map_singleton, Change.touch]
  simp [Change.modified]

/-- The header of a hunk that replaces `count` lines from `start` on by as many. -/
def rangeHeader (start count : UInt32) : Line :=
  PatchHunk.header ⟨start, count, start, count, false, []⟩

theorem ofHeader?_rangeHeader (start count : UInt32) :
    Hunk.ofHeader? (rangeHeader start count) = some ⟨start, count⟩ :=
  PatchHunk.ofHeader?_header _

theorem newline_notMem_rangeHeader (start count : UInt32) : '\n' ∉ rangeHeader start count :=
  PatchHunk.notMem_header (by decide) (by decide) _

theorem mem_lines_of_lt {start count : UInt32} (hCount : 1 ≤ count)
    (hSum : start.toNat + count.toNat < UInt32.size) (n : LineNumber) :
    n ∈ (⟨start, count⟩ : Hunk).lines ↔
      start.toNat ≤ n.toNat ∧ n.toNat ≤ start.toNat + count.toNat - 1 := by
  have hStop := Hunk.toNat_stop ⟨start, count⟩
  have hLast : LineNumber.last.toNat + 1 = UInt32.size := rfl
  have hPositive := UInt32.le_iff_toNat_le.mp hCount
  have hOne : (1 : UInt32).toNat = 1 := rfl
  rw [Hunk.mem_lines, UInt32.le_iff_toNat_le, UInt32.lt_iff_toNat_lt, hStop]
  simp only
  omega

theorem splitReturnLines_modifiedText {path : String} (hNewline : '\n' ∉ path.toList) :
    splitReturnLines ("M\t" ++ path).toList = ['M' :: '\t' :: path.toList] := by
  have hText : ("M\t" ++ path).toList = 'M' :: '\t' :: path.toList := by simp
  rw [hText]
  exact splitReturnLines_of_notMem (List.cons_ne_nil _ _) (by simpa using hNewline)

theorem splitReturnLines_hunkText {path : String} (hNewline : '\n' ∉ path.toList)
    (hReturn : '\r' ∉ path.toList) (start count : UInt32) :
    splitReturnLines (PatchReading.targetLine path ++ '\n' :: rangeHeader start count) =
      [PatchReading.targetLine path, rangeHeader start count] := by
  have hTarget : '\n' ∉ PatchReading.targetLine path :=
    List.not_mem_append (by decide) hNewline
  have hKept : '\r' ∉ PatchReading.targetLine path :=
    List.not_mem_append (by decide) hReturn
  have hHeader : rangeHeader start count ≠ [] := by simp [rangeHeader, PatchHunk.header_eq]
  rw [splitReturnLines_append_newline, readBack_eq_singleton hTarget, dropReturn_of_notMem hKept,
    splitReturnLines_of_notMem hHeader (newline_notMem_rangeHeader start count)]
  rfl

/-- Where a listing has one line, for a modified file, and a patch one hunk for that file, the run
has one change with the lines of the hunk, if the path does not begin with a blank: the listing
keeps such a blank, and the patch does not. -/
theorem changes_resolve_of_hunk {path : String} {category : Category} {start count : UInt32}
    (hCategory : Category.ofPath? path = some category)
    (hText : ∀ c ∈ path.toList, c ≠ '\t' ∧ c ≠ '\n' ∧ c ≠ '\r')
    (hBlank : ∀ c, path.toList.head? = some c → isBlank c = false)
    (hCount : 1 ≤ count) (hSum : start.toNat + count.toNat < UInt32.size) :
    ∃ lines : LineSet,
      (∀ n, n ∈ lines ↔ start.toNat ≤ n.toNat ∧ n.toNat ≤ start.toNat + count.toNat - 1) ∧
      (∀ (vcs : Vcs) (base? : Option String) (onlyStaged : Bool) (above below : List Line),
        splitReturnLines
            (vcs.listing (Scope.choose vcs base? onlyStaged).value Category.pathspecs).toList =
          ['M' :: '\t' :: path.toList] →
        splitReturnLines (vcs.diffs base? onlyStaged).patch.toList =
          above ++ PatchReading.targetLine path :: rangeHeader start count :: below →
        (∀ line ∈ above ++ below, PatchReading.IsIgnored line) →
        (resolve vcs base? onlyStaged).value.changes =
          [⟨path, .modified, some lines, category⟩]) ∧
      ∀ (refExists : String → Bool) (base? : Option String) (onlyStaged : Bool),
        (resolve ⟨refExists, fun _ _ => "M\t" ++ path, fun _ _ => String.ofList
            (PatchReading.targetLine path ++ '\n' :: rangeHeader start count)⟩
          base? onlyStaged).value.changes = [⟨path, .modified, some lines, category⟩] := by
  have hTab : '\t' ∉ path.toList := fun h => (hText _ h).1 rfl
  have hNewline : '\n' ∉ path.toList := fun h => (hText _ h).2.1 rfl
  have hReturn : '\r' ∉ path.toList := fun h => (hText _ h).2.2 rfl
  have hLines : ∀ (vcs : Vcs) (base? : Option String) (onlyStaged : Bool) (above below : List Line),
      splitReturnLines
          (vcs.listing (Scope.choose vcs base? onlyStaged).value Category.pathspecs).toList =
        ['M' :: '\t' :: path.toList] →
      splitReturnLines (vcs.diffs base? onlyStaged).patch.toList =
        above ++ PatchReading.targetLine path :: rangeHeader start count :: below →
      (∀ line ∈ above ++ below, PatchReading.IsIgnored line) →
      (resolve vcs base? onlyStaged).value.changes =
        [⟨path, .modified, some (⟨start, count⟩ : Hunk).lines, category⟩] := by
    intro vcs base? onlyStaged above below hListing hPatch hIgnored
    have hTouched := PatchReading.linesOf_foldl_read hIgnored
      (PatchReading.targetOf?_targetLine hCategory hBlank) (ofHeader?_rangeHeader start count)
    rw [changes_resolve_of_modified hCategory hTab hNewline hListing, LineTable.ofPatch, hPatch,
      hTouched]
  refine ⟨_, mem_lines_of_lt hCount hSum, hLines, ?_⟩
  intro refExists base? onlyStaged
  refine hLines _ base? onlyStaged [] [] (splitReturnLines_modifiedText hNewline) ?_ ?_
  · rw [Vcs.diffs, String.toList_ofList]
    exact splitReturnLines_hunkText hNewline hReturn start count
  · intro line hLine
    cases hLine

/-- The path holds blanks, and the hunk is as far down as a hunk can be. -/
theorem changes_resolve_of_hunk_last :
    Category.ofPath? "a b /c .js" = some .javascript ∧
      ∃ lines : LineSet, (∀ n : LineNumber, n ∈ lines ↔ n = 4294967294) ∧
        (resolve ⟨fun _ => false, fun _ _ => "M\t" ++ "a b /c .js", fun _ _ => String.ofList
            (PatchReading.targetLine "a b /c .js" ++ '\n' :: rangeHeader 4294967294 1)⟩
          none true).value.changes = [⟨"a b /c .js", .modified, some lines, .javascript⟩] := by
  have hCategory : Category.ofPath? "a b /c .js" = some .javascript := by decide +kernel
  have hText : ∀ c ∈ "a b /c .js".toList, c ≠ '\t' ∧ c ≠ '\n' ∧ c ≠ '\r' := by simp
  have hBlank : ∀ c, "a b /c .js".toList.head? = some c → isBlank c = false := by
    intro c hc
    obtain rfl : 'a' = c := by simpa using hc
    decide
  obtain ⟨lines, hMem, _, hChanges⟩ := @changes_resolve_of_hunk _ _ 4294967294 1
    hCategory hText hBlank (by decide) (by decide)
  refine ⟨hCategory, lines, ?_, hChanges (fun _ => false) none true⟩
  intro n
  rw [hMem, ← UInt32.toNat_inj]
  exact ⟨fun h => Nat.le_antisymm h.2 h.1, fun h => ⟨Nat.le_of_eq h.symm, Nat.le_of_eq h⟩⟩

/-- A blank at the start of a path separates the two readings: the change has the path as it is in
the listing, and the hunk, read for the path without its blank, touches no line of it. -/
theorem not_changes_resolve_of_hunk :
    let patch := String.ofList (PatchReading.targetLine " a.erb" ++ '\n' :: rangeHeader 1 1)
    let vcs : Vcs := ⟨fun _ => false, fun _ _ => "M\t a.erb", fun _ _ => patch⟩
    patch = "+++ b/ a.erb\n@@ -1,1 +1,1 @@" ∧
      (∀ c ∈ " a.erb".toList, c ≠ '\t' ∧ c ≠ '\n' ∧ c ≠ '\r') ∧
      Category.ofPath? " a.erb" = some .erb ∧
      (resolve vcs none true).value.changes = [⟨" a.erb", .modified, some ∅, .erb⟩] ∧
      Touches patch "a.erb" 1 := by
  intro patch vcs
  exact ⟨by decide +kernel, by simp, by decide +kernel, by decide +kernel, by decide +kernel⟩

end ChangeSet

end TouchedLines
