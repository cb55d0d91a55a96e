import Mathlib.Data.List.TakeDrop
import Mathlib.Data.List.TakeWhile
import TouchedLines.Category

/-! # Names of files and their categories

The category of a path is read off its last part: the part ends with a dot and the extension, and
something stands in front of the dot. A version-control system that is asked for a star and an
extension lists a path by its end alone, slashes and all. The two part ways at names that are an
extension with a dot and nothing else.
-/

namespace TouchedLines

open Text

namespace Text

/-- A text without the character is at the end of what follows the character, or not at the end. -/
theorem suffix_append_cons_iff {c : Char} {tail : List Char} (h : c ∉ tail)
    (front rest : List Char) : tail <:+ front ++ c :: rest ↔ tail <:+ rest := by
  constructor
  · intro hTail
    have hRest : c :: rest <:+ front ++ c :: rest := List.suffix_append front _
    rcases List.suffix_or_suffix_of_suffix hTail hRest with hShort | hLong
    · rcases List.suffix_cons_iff.mp hShort with rfl | hShort
      · exact absurd List.mem_cons_self h
      · exact hShort
    · exact absurd (hLong.subset List.mem_cons_self) h
  · intro hTail
    exact hTail.trans ((List.suffix_cons c rest).trans (List.suffix_append front _))

theorem exists_last_cut {c : Char} {text : List Char} (h : c ∈ text) :
    ∃ front last, text = front ++ c :: last ∧ c ∉ last := by
  obtain ⟨last, front, hText, hLast⟩ := List.eq_append_cons_of_mem (List.mem_reverse.mpr h)
  refine ⟨front.reverse, last.reverse, ?_, by simpa using hLast⟩
  simpa using congrArg List.reverse hText

end Text

namespace Path

/-- The part of a path behind its last slash. -/
def lastPart (path : String) : List Char := (splitOn '/' path.toList).getLastD []

theorem splitOn_eq_append_lastPart (path : String) :
    ∃ parts, splitOn '/' path.toList = parts ++ [lastPart path] := by
  have hParts : splitOn '/' path.toList ≠ [] := by
    rw [splitOn_eq_splitOn]
    exact List.splitOn_ne_nil _ _
  rcases List.eq_nil_or_concat (splitOn '/' path.toList) with hNil | ⟨parts, last, hConcat⟩
  · exact absurd hNil hParts
  · rw [List.concat_eq_append] at hConcat
    exact ⟨parts, by rw [lastPart, hConcat, List.getLastD_concat]⟩

theorem lastPart_of_notMem {path : String} (h : '/' ∉ path.toList) :
    lastPart path = path.toList := by
  rw [lastPart, splitOn_eq_splitOn, List.splitOn_eq_singleton h]
  rfl

theorem lastPart_of_eq_append {path : String} {front last : List Char}
    (hPath : path.toList = front ++ '/' :: last) (hLast : '/' ∉ last) : lastPart path = last := by
  rw [lastPart, hPath, splitOn_eq_splitOn, List.splitOn_append_cons_self,
    List.splitOn_eq_singleton hLast, List.getLastD_concat]

/-- What holds no slash is at the end of a path where it is at the end of its last part. -/
theorem suffix_toList_iff {path : String} {tail : List Char} (h : '/' ∉ tail) :
    tail <:+ path.toList ↔ tail <:+ lastPart path := by
  by_cases hSlash : '/' ∈ path.toList
  · obtain ⟨front, last, hPath, hLast⟩ := exists_last_cut hSlash
    rw [lastPart_of_eq_append hPath hLast, hPath, suffix_append_cons_iff h]
  · rw [lastPart_of_notMem hSlash]

theorem toList_eq_nil_of_lastPart {path : String} (hEnd : path.toList.getLast? ≠ some '/')
    (h : lastPart path = []) : path.toList = [] := by
  by_cases hSlash : '/' ∈ path.toList
  · obtain ⟨front, last, hPath, hLast⟩ := exists_last_cut hSlash
    obtain rfl := (lastPart_of_eq_append hPath hLast).symm.trans h
    exact absurd (by rw [hPath, List.getLast?_concat]) hEnd
  · rwa [lastPart_of_notMem hSlash] at h

/-- The name of a file is the last part of its path, where that part names a step. -/
theorem fileName?_eq {path : String} (hNil : lastPart path ≠ []) (hDot : lastPart path ≠ ['.']) :
    fileName? path = if lastPart path = ['.', '.'] then none else some (lastPart path) := by
  obtain ⟨parts, hParts⟩ := splitOn_eq_append_lastPart path
  have hNamed : ¬((lastPart path).isEmpty || lastPart path == ['.']) = true := by
    simp [hNil, hDot]
  rw [fileName?, components, hParts, List.filter_append,
    List.filter_cons_of_pos (by simpa using hNamed), List.filter_nil, List.getLast?_concat]
  simp only [beq_iff_eq]

theorem bne_dot_of_mem_reverse {text : List Char} (h : '.' ∉ text) :
    ∀ c ∈ text.reverse, (c != '.') = true := by
  intro c hc
  have hDiffer : c ≠ '.' := fun hSame => h (hSame ▸ List.mem_reverse.mp hc)
  simpa using hDiffer

theorem nameExtension?_of_notMem {name : List Char} (h : '.' ∉ name) :
    nameExtension? name = none := by
  rw [nameExtension?, List.span_eq_takeWhile_dropWhile,
    List.dropWhile_eq_nil_iff.mpr (bne_dot_of_mem_reverse h)]

/-- The extension is what follows the last dot, unless nothing stands in front of the dot. -/
theorem nameExtension?_append {extension : List Char} (h : '.' ∉ extension) (stem : List Char) :
    nameExtension? (stem ++ '.' :: extension) = if stem = [] then none else some extension := by
  have hReverse : (stem ++ '.' :: extension).reverse =
      extension.reverse ++ '.' :: stem.reverse := by simp
  rw [nameExtension?, List.span_eq_takeWhile_dropWhile, hReverse,
    List.takeWhile_append_of_pos (bne_dot_of_mem_reverse h),
    List.dropWhile_append_of_pos (bne_dot_of_mem_reverse h)]
  rcases List.eq_nil_or_concat stem with rfl | ⟨front, c, rfl⟩
  · rfl
  · simp

theorem nameExtension?_eq_some_iff {name extension : List Char} :
    nameExtension? name = some extension ↔
      ∃ stem, stem ≠ [] ∧ name = stem ++ '.' :: extension ∧ '.' ∉ extension := by
  constructor
  · intro hName
    by_cases hDot : '.' ∈ name
    · obtain ⟨stem, last, rfl, hLast⟩ := exists_last_cut hDot
      rw [nameExtension?_append hLast] at hName
      obtain ⟨hStem, hSame⟩ := Option.ite_none_left_eq_some.mp hName
      obtain rfl := Option.some.inj hSame
      exact ⟨stem, hStem, rfl, hLast⟩
    · rw [nameExtension?_of_notMem hDot] at hName
      cases hName
  · rintro ⟨stem, hStem, rfl, hDot⟩
    rw [nameExtension?_append hDot, if_neg hStem]

end Path

namespace Category

theorem mem_all (c : Category) : c ∈ all := by
  cases c <;> decide

theorem notMem_extension (c : Category) : '/' ∉ c.extension.toList ∧ '.' ∉ c.extension.toList := by
  cases c <;> decide

theorem ofPath?_eq_some_iff {path : String} {c : Category} :
    ofPath? path = some c ↔ Path.extension? path = some c.extension.toList := by
  rw [ofPath?, Option.bind_eq_some_iff]
  constructor
  · rintro ⟨extension, hExtension, hFound⟩
    have hSame : c.extension.toList = extension := by simpa using List.find?_some hFound
    rw [hSame, hExtension]
  · intro hExtension
    exact ⟨_, hExtension, by cases c <;> decide⟩

theorem ofPath?_eq_some_iff_suffix {path : String} (hEnd : path.toList.getLast? ≠ some '/')
    (hDot : Path.lastPart path ≠ ['.']) (c : Category) :
    ofPath? path = some c ↔ '.' :: c.extension.toList <:+ path.toList ∧
      Path.lastPart path ≠ '.' :: c.extension.toList := by
  obtain ⟨hSlash, hPlain⟩ := c.notMem_extension
  rw [ofPath?_eq_some_iff, Path.extension?, Path.suffix_toList_iff (by simpa using hSlash)]
  by_cases hNil : Path.lastPart path = []
  · obtain rfl := String.toList_eq_nil_iff.mp (Path.toList_eq_nil_of_lastPart hEnd hNil)
    rw [hNil]
    simp [Path.fileName?, Path.components, splitOn]
  · rw [Path.fileName?_eq hNil hDot]
    split
    · rename_i hUp
      -- a step up has no name, and none of the extensions ends with a dot
      rw [hUp]
      cases c <;> decide
    · rw [Option.bind_some, Path.nameExtension?_eq_some_iff]
      constructor
      · rintro ⟨stem, hStem, hName, -⟩
        rw [hName]
        exact ⟨List.suffix_append stem _, by simpa using hStem⟩
      · rintro ⟨⟨stem, hName⟩, hBare⟩
        refine ⟨stem, ?_, hName.symm, hPlain⟩
        rintro rfl
        exact hBare hName.symm

def isWildcard (c : Char) : Bool := ['*', '?', '[', '\\'].contains c

/-- A star in front of a plain text stands for any text, slashes included: the specification covers
the paths that end with the text. -/
def StarCoversAnyText (covers : String → String → Prop) : Prop :=
  ∀ tail path : String, tail.toList.any isWildcard = false →
    (covers ("*" ++ tail) path ↔ tail.toList <:+ path.toList)

/-- The file is named by a dot and a supported extension alone. -/
def IsBareExtension (path : String) : Prop :=
  ∃ c : Category, Path.lastPart path = '.' :: c.extension.toList

theorem covers_pathspec_iff {covers : String → String → Prop} (hStar : StarCoversAnyText covers)
    (c : Category) (path : String) :
    covers ("*." ++ c.extension) path ↔ '.' :: c.extension.toList <:+ path.toList := by
  have hSpec : "*." ++ c.extension = "*" ++ ("." ++ c.extension) := by cases c <;> rfl
  have hTail : ("." ++ c.extension).toList = '.' :: c.extension.toList := by cases c <;> rfl
  have hPlain : ("." ++ c.extension).toList.any isWildcard = false := by cases c <;> decide
  rw [hSpec, hStar _ path hPlain, hTail]

/-- Of the specifications only that of the extension itself covers a bare extension. -/
theorem lastPart_of_isBareExtension {path : String} (h : IsBareExtension path) {c : Category}
    (hSuffix : '.' :: c.extension.toList <:+ path.toList) :
    Path.lastPart path = '.' :: c.extension.toList := by
  obtain ⟨bare, hBare⟩ := h
  rw [Path.suffix_toList_iff (by simpa using c.notMem_extension.1), hBare] at hSuffix
  rcases List.suffix_cons_iff.mp hSuffix with hSame | hInside
  · rw [hBare, hSame]
  · exact absurd (hInside.subset List.mem_cons_self) bare.notMem_extension.2

theorem ofPath?_eq_some_iff_covers {path : String} (hEnd : path.toList.getLast? ≠ some '/')
    (hDot : Path.lastPart path ≠ ['.']) {covers : String → String → Prop}
    (hStar : StarCoversAnyText covers) (c : Category) :
    ofPath? path = some c ↔ covers ("*." ++ c.extension) path ∧ ¬IsBareExtension path := by
  rw [ofPath?_eq_some_iff_suffix hEnd hDot, covers_pathspec_iff hStar]
  constructor
  · rintro ⟨hSuffix, hBare⟩
    exact ⟨hSuffix, fun h => hBare (lastPart_of_isBareExtension h hSuffix)⟩
  · rintro ⟨hSuffix, hBare⟩
    exact ⟨hSuffix, fun h => hBare ⟨c, h⟩⟩

/-- A path has the category of an extension exactly if it ends with a dot and the extension and its
last part is more than that. So the paths with a category are those that the specifications cover,
each under that of its category, but for names that are an extension alone. -/
theorem ofPath?_agrees_with_pathspecs {path : String} (hEnd : path.toList.getLast? ≠ some '/')
    (hDot : Path.lastPart path ≠ ['.']) :
    (∀ c, ofPath? path = some c ↔ '.' :: c.extension.toList <:+ path.toList ∧
      Path.lastPart path ≠ '.' :: c.extension.toList) ∧
    ∀ covers, StarCoversAnyText covers →
      (∀ c, ofPath? path = some c ↔ covers ("*." ++ c.extension) path ∧ ¬IsBareExtension path) ∧
      ((ofPath? path).isSome ↔
        (∃ spec ∈ pathspecs, covers spec path) ∧ ¬IsBareExtension path) := by
  refine ⟨ofPath?_eq_some_iff_suffix hEnd hDot, ?_⟩
  intro covers hStar
  have hCovers := ofPath?_eq_some_iff_covers hEnd hDot hStar
  refine ⟨hCovers, ?_⟩
  rw [Option.isSome_iff_exists]
  constructor
  · rintro ⟨c, hc⟩
    obtain ⟨hSpec, hBare⟩ := (hCovers c).mp hc
    exact ⟨⟨_, List.mem_map_of_mem c.mem_all, hSpec⟩, hBare⟩
  · rintro ⟨⟨spec, hSpec, hPath⟩, hBare⟩
    obtain ⟨c, -, rfl⟩ := List.mem_map.mp hSpec
    exact ⟨c, (hCovers c).mpr ⟨hPath, hBare⟩⟩

example : ofPath? "app/.rb" = none := by decide

/-- The name begins with two dots, and a directory has an extension too. -/
theorem ofPath?_agrees_with_pathspecs_dotted :
    let covers := fun spec path : String =>
      ∃ tail : String, spec = "*" ++ tail ∧ tail.toList <:+ path.toList
    "v.js//..erb".toList.getLast? ≠ some '/' ∧ Path.lastPart "v.js//..erb" ≠ ['.'] ∧
      StarCoversAnyText covers ∧ ofPath? "v.js//..erb" = some .erb ∧
      ∃ spec ∈ pathspecs, covers spec "v.js//..erb" := by
  intro covers
  have hEnd : "v.js//..erb".toList.getLast? ≠ some '/' := by decide
  have hDot : Path.lastPart "v.js//..erb" ≠ ['.'] := by decide
  have hStar : StarCoversAnyText covers := by
    intro tail path _
    constructor
    · rintro ⟨other, hSame, hSuffix⟩
      obtain rfl : tail = other := by simpa using hSame
      exact hSuffix
    · exact fun hSuffix => ⟨tail, rfl, hSuffix⟩
  obtain ⟨hCategory, hCovers⟩ := ofPath?_agrees_with_pathspecs hEnd hDot
  have hErb : ofPath? "v.js//..erb" = some .erb := (hCategory .erb).mpr (by decide)
  exact ⟨hEnd, hDot, hStar, hErb, ((hCovers covers hStar).2.mp (by rw [hErb]; rfl)).1⟩

end Category

end TouchedLines
