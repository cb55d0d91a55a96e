import Mathlib.Data.List.Infix
import TouchedLines.Proofs.Trimming
import TouchedLines.Script.Comment

/-! # Block comments and their marks

A line that bears no mark of a comment itself is taken for one below a line that opens a block, as
long as no line in between ends with the closing mark. Marks inside a line do not count, so that the
walk over lines and the pairing of marks in the text agree where a closing mark ends its line. What
the walk says of a line is the same whatever the lines below it are.
-/

namespace TouchedLines

open Text

namespace Text

theorem exists_line_of_joinLines_eq {word before after : List Char} (hWord : '\n' ∉ word)
    {line : Line} {lower : List Line}
    (h : line ++ lower.flatMap ('\n' :: ·) = before ++ (word ++ after)) :
    ∃ upper left right below, line :: lower = upper ++ (left ++ (word ++ right)) :: below ∧
      after = right ++ below.flatMap ('\n' :: ·) := by
  induction lower generalizing line before with
  | nil =>
    rw [List.flatMap_nil, List.append_nil] at h
    exact ⟨[], before, after, [], by rw [h]; rfl, (List.append_nil after).symm⟩
  | cons next lower ih =>
    rw [List.flatMap_cons, List.cons_append] at h
    have hHere : ∀ rest, line = before ++ rest →
        word ++ after = rest ++ '\n' :: (next ++ lower.flatMap ('\n' :: ·)) →
        ∃ right, line = before ++ (word ++ right) ∧
          after = right ++ (next :: lower).flatMap ('\n' :: ·) := by
      rintro rest rfl hRest
      obtain ⟨right, rfl, hAfter⟩ | ⟨more, hWordEq, hMore⟩ := List.append_eq_append_iff.mp hRest
      · exact ⟨right, rfl, hAfter⟩
      · cases more with
        | nil =>
          rw [List.append_nil] at hWordEq
          exact ⟨[], by rw [hWordEq, List.append_nil], hMore.symm⟩
        | cons c more =>
          obtain rfl := (List.cons.inj hMore).1
          exact absurd (hWordEq ▸ List.mem_append_right rest List.mem_cons_self) hWord
    -- the occurrence begins in the first line, or below the newline that ends it
    obtain ⟨gap, rfl, hRest⟩ | ⟨rest, hLine, hRest⟩ := List.append_eq_append_iff.mp h
    · cases gap with
      | nil =>
        rw [List.append_nil] at hHere
        obtain ⟨right, hLine, hAfter⟩ := hHere [] (List.append_nil line).symm hRest.symm
        exact ⟨[], line, right, next :: lower, by rw [← hLine]; rfl, hAfter⟩
      | cons c gap =>
        obtain ⟨rfl, hBelow⟩ := List.cons.inj hRest
        obtain ⟨upper, left, right, below, hLines, hAfter⟩ := ih hBelow
        exact ⟨line :: upper, left, right, below, by rw [hLines]; rfl, hAfter⟩
    · obtain ⟨right, hLine, hAfter⟩ := hHere rest hLine hRest
      exact ⟨[], before, right, next :: lower, by rw [hLine]; rfl, hAfter⟩

theorem exists_last_occurrence {word : List Char} (hWord : word ≠ []) (rest : List Char) :
    ∃ inside, inside <:+ rest ∧ word ++ inside <:+ word ++ rest ∧ ¬word <:+: inside := by
  induction hLength : rest.length using Nat.strong_induction_on generalizing rest with
  | _ length ih =>
    by_cases hInfix : word <:+: rest
    · obtain ⟨before, after, hRest⟩ := hInfix
      have hShorter : after.length < length := by
        have hPos := List.length_pos_iff.mpr hWord
        rw [← hLength, ← hRest, List.length_append, List.length_append]
        omega
      obtain ⟨inside, hInside, hOccurs, hLast⟩ := ih _ hShorter after rfl
      have hSuffix : word ++ after <:+ rest := ⟨before, by rw [← List.append_assoc, hRest]⟩
      refine ⟨inside, ?_, ?_, hLast⟩
      · exact hInside.trans ((List.suffix_append word after).trans hSuffix)
      · exact hOccurs.trans (hSuffix.trans (List.suffix_append word rest))
    · exact ⟨rest, List.suffix_rfl, List.suffix_rfl, hInfix⟩

theorem trimStart_append_cons {c : Char} (h : isBlank c = false) (text rest : List Char) :
    trimStart (text ++ c :: rest) = trimStart text ++ c :: rest := by
  rw [trimStart, List.dropWhile_append, List.dropWhile_cons_of_neg (by simp [h]), trimStart]
  split
  · rename_i hEmpty
    rw [List.isEmpty_iff.mp hEmpty, List.nil_append]
  · rfl

theorem trimEnd_append_blanks {blanks : List Char} (h : ∀ c ∈ blanks, isBlank c = true)
    (text : List Char) : trimEnd (text ++ blanks) = trimEnd text := by
  have hBlanks : blanks.reverse.dropWhile isBlank = [] := by
    rw [List.dropWhile_eq_nil_iff]
    simpa using h
  rw [trimEnd, dropEndWhile, List.reverse_append, List.dropWhile_append, hBlanks]
  rfl

theorem isInfix_trim (text : List Char) : trim text <:+: text := by
  have hEnd : trimEnd (trimStart text) <+: trimStart text :=
    List.rdropWhile_prefix isBlank _
  exact hEnd.isInfix.trans (List.dropWhile_suffix isBlank).isInfix

end Text

namespace Script

theorem closesBlock_of_blanks {left right : List Char} (h : ∀ c ∈ right, isBlank c = true) :
    closesBlock (left ++ ("*/".toList ++ right)) = true := by
  have hStart : trimStart (left ++ ("*/".toList ++ right)) =
      (trimStart left ++ ['*']) ++ ['/'] ++ right := by
    simpa using trimStart_append_cons (c := '*') rfl left ('/' :: right)
  rw [closesBlock, trim, hStart, trimEnd_append_blanks h, trimEnd_append_singleton rfl,
    List.isSuffixOf_iff_suffix]
  exact ⟨trimStart left, by simp⟩

theorem exists_append_of_opensBlock {line : Line} (h : opensBlock line = true) :
    ∃ before rest, line = before ++ ("/*".toList ++ rest) := by
  rw [opensBlock, List.isPrefixOf_iff_prefix] at h
  obtain ⟨before, rest, hLine⟩ := h.isInfix.trans (isInfix_trim line)
  exact ⟨before, rest, by rw [← hLine, List.append_assoc]⟩

/-- A block is open below some lines, the nearest first, if one of them opens it and neither that
line nor a nearer one closes it. -/
theorem foldr_openBelow_eq_true_iff {above : List Line} :
    above.foldr openBelow false = true ↔ ∃ nearer opening farther,
      above = nearer ++ opening :: farther ∧ opensBlock opening = true ∧
        ∀ line ∈ nearer ++ [opening], closesBlock line = false := by
  induction above with
  | nil => simp
  | cons line above ih =>
    rw [List.foldr_cons, openBelow, Bool.and_eq_true, Bool.or_eq_true, ih, Bool.not_eq_true']
    constructor
    · rintro ⟨⟨nearer, opening, farther, rfl, hOpens, hOpen⟩ | hOpens, hCloses⟩
      · refine ⟨line :: nearer, opening, farther, rfl, hOpens, ?_⟩
        simpa [hCloses] using hOpen
      · exact ⟨[], line, above, rfl, hOpens, by simpa using hCloses⟩
    · rintro ⟨nearer, opening, farther, hAbove, hOpens, hOpen⟩
      cases nearer with
      | nil =>
        obtain ⟨rfl, rfl⟩ := List.cons.inj hAbove
        exact ⟨.inr hOpens, hOpen line (by simp)⟩
      | cons first nearer =>
        obtain ⟨rfl, rfl⟩ := List.cons.inj hAbove
        exact ⟨.inl ⟨nearer, opening, farther, rfl, hOpens, fun l hl => hOpen l (by simp_all)⟩,
          hOpen line (by simp)⟩

/-- What follows the last opening mark of a text. -/
def FollowsLastOpening (text inside : List Char) : Prop :=
  "/*".toList ++ inside <:+ text ∧ ¬"/*".toList <:+: inside

/-- The end of a text lies in a comment: no closing mark follows the last opening one. -/
def EndsInComment (text : List Char) : Prop :=
  ∃ inside, FollowsLastOpening text inside ∧ ¬"*/".toList <:+: inside

/-- After a closing mark, `after` being the rest of the lines, the line of the mark goes on with
more than blanks. -/
def GoesOn (lines : List Line) (after : List Char) : Prop :=
  ∃ upper left right below, lines = upper ++ (left ++ ("*/".toList ++ right)) :: below ∧
    after = right ++ below.flatMap ('\n' :: ·) ∧ ∃ c ∈ right, isBlank c = false

theorem goesOn_of_opensBlock {upper below : List Line} {opening : Line}
    (hOpens : opensBlock opening = true)
    (hOpen : ∀ line ∈ opening :: below, closesBlock line = false) :
    ∃ inside, FollowsLastOpening (joinLines (upper ++ opening :: below)) inside ∧
      ∀ before after, inside = before ++ ("*/".toList ++ after) →
        GoesOn (upper ++ opening :: below) after := by
  obtain ⟨start, rest, rfl⟩ := exists_append_of_opensBlock hOpens
  have hMark : "/*".toList ≠ [] := by decide
  obtain ⟨inside, ⟨gap, hGap⟩, hOccurs, hLast⟩ :=
    exists_last_occurrence hMark (rest ++ below.flatMap ('\n' :: ·))
  have hJoin : joinLines (upper ++ (start ++ ("/*".toList ++ rest)) :: below) =
      terminateLines upper ++ start ++
        ("/*".toList ++ (rest ++ below.flatMap ('\n' :: ·))) := by
    rw [joinLines_append_cons, joinLines_cons]
    simp only [List.append_assoc]
  refine ⟨inside, ⟨?_, hLast⟩, ?_⟩
  · rw [hJoin]
    exact hOccurs.trans (List.suffix_append _ _)
  · rintro before after rfl
    have hText : start ++ ("/*".toList ++ rest) ++ below.flatMap ('\n' :: ·) =
        (start ++ "/*".toList ++ gap ++ before) ++ ("*/".toList ++ after) := by
      simp only [List.append_assoc, ← hGap]
    obtain ⟨between, left, right, lower, hLines, hAfter⟩ :=
      exists_line_of_joinLines_eq (by decide) hText
    refine ⟨upper ++ between, left, right, lower, ?_, hAfter, ?_⟩
    · rw [hLines, List.append_assoc]
    · have hMem : left ++ ("*/".toList ++ right) ∈ (start ++ ("/*".toList ++ rest)) :: below := by
        rw [hLines]
        exact List.mem_append_right between List.mem_cons_self
      have hNot := hOpen _ hMem
      by_contra hNone
      push Not at hNone
      rw [closesBlock_of_blanks fun c hc => by simpa using hNone c hc] at hNot
      cases hNot

/-- A line that bears no mark of a comment itself is skipped as one only below an opening mark. Of
the closing marks behind the last opening mark, none ends its line: each of them has more than
blanks behind it, and if there is none the line stands in a block. -/
theorem goesOn_of_isComment {lines : List Line} {index : Nat} {v : LineView}
    (hView : (LineView.views lines)[index]? = some v) (hComment : isComment v = true)
    (hLine : "//".toList.isPrefixOf (trim v.line) = false) (hOpens : opensBlock v.line = false)
    (hCloses : closesBlock v.line = false) :
    ∃ inside, FollowsLastOpening (joinLines (lines.take index)) inside ∧
      ∀ before after, inside = before ++ ("*/".toList ++ after) →
        GoesOn (lines.take index) after := by
  have hOpen : v.above.foldr openBelow false = true := by
    rw [isComment, inBlockComment, hLine, hOpens, hCloses] at hComment
    simpa using hComment
  obtain ⟨nearer, opening, farther, hAbove, hOpening, hStays⟩ :=
    foldr_openBelow_eq_true_iff.mp hOpen
  have hLines : lines.take index = farther.reverse ++ opening :: nearer.reverse := by
    rw [← LineView.reverse_above hView, hAbove, List.reverse_append, List.reverse_cons,
      List.append_assoc, List.singleton_append]
  rw [hLines]
  refine goesOn_of_opensBlock hOpening ?_
  intro line hMem
  apply hStays
  simpa [or_comm] using hMem

/-- The closing mark of the second line is followed by code, so that the third line is skipped. -/
theorem goesOn_of_isComment_closed :
    let lines := ["/* a */ b(); /* c".toList, " */ d();".toList, "e();".toList]
    let v : LineView := ⟨[" */ d();".toList, "/* a */ b(); /* c".toList], "e();".toList, []⟩
    (LineView.views lines)[2]? = some v ∧ isComment v = true ∧
      ∃ inside, FollowsLastOpening (joinLines (lines.take 2)) inside ∧
        ∀ before after, inside = before ++ ("*/".toList ++ after) →
          GoesOn (lines.take 2) after := by
  intro lines v
  have hView : (LineView.views lines)[2]? = some v := by decide
  have hComment : isComment v = true := by decide
  exact ⟨hView, hComment,
    goesOn_of_isComment hView hComment (by decide) (by decide) (by decide)⟩

/-- Code below a comment that is closed inside its line is skipped, although it stands in no
block. -/
theorem not_endsInComment_of_isComment :
    let lines := ["/* header */ start();".toList, "eval(code);".toList]
    let v : LineView := ⟨["/* header */ start();".toList], "eval(code);".toList, []⟩
    (LineView.views lines)[1]? = some v ∧ isComment v = true ∧
      "//".toList.isPrefixOf (trim v.line) = false ∧ opensBlock v.line = false ∧
      closesBlock v.line = false ∧ ¬EndsInComment (joinLines (lines.take 1)) := by
  intro lines v
  refine ⟨by decide, by decide, by decide, by decide, by decide, ?_⟩
  rintro ⟨inside, ⟨hOccurs, hLast⟩, hNone⟩
  have hTails : ∀ inside ∈ (joinLines (lines.take 1)).tails,
      "/*".toList ++ inside <:+ joinLines (lines.take 1) → "*/".toList <:+: inside := by
    decide +kernel
  have hInside : inside <:+ joinLines (lines.take 1) :=
    (List.suffix_append _ inside).trans hOccurs
  exact hNone (hTails inside ((List.mem_tails _ _).mpr hInside) hOccurs)

/-! ## Blocks by the indexes of lines -/

def OpensAt (lines : List Line) (index : Nat) : Prop :=
  ∃ line, lines[index]? = some line ∧ "/*".toList <+: trim line

def ClosesAt (lines : List Line) (index : Nat) : Prop :=
  ∃ line, lines[index]? = some line ∧ "*/".toList <:+ trim line

/-- A block is opened at the index or above it, and no line from there on closes it above the
index. -/
def StandsInBlock (lines : List Line) (index : Nat) : Prop :=
  ∃ j ≤ index, OpensAt lines j ∧ ∀ k, j ≤ k → k < index → ¬ClosesAt lines k

section

variable {lines : List Line} {index : Nat}

theorem any_opensBlock_iff : lines[index]?.any opensBlock = true ↔ OpensAt lines index := by
  simp [OpensAt, opensBlock, Option.any_eq_true]

theorem any_closesBlock_iff : lines[index]?.any closesBlock = true ↔ ClosesAt lines index := by
  simp [ClosesAt, closesBlock, Option.any_eq_true]

instance : Decidable (OpensAt lines index) := decidable_of_iff _ any_opensBlock_iff

instance : Decidable (ClosesAt lines index) := decidable_of_iff _ any_closesBlock_iff

theorem opensAt_iff {line : Line} (h : lines[index]? = some line) :
    OpensAt lines index ↔ opensBlock line = true := by
  rw [← any_opensBlock_iff, h, Option.any_some]

theorem closesAt_iff {line : Line} (h : lines[index]? = some line) :
    ClosesAt lines index ↔ closesBlock line = true := by
  rw [← any_closesBlock_iff, h, Option.any_some]

theorem standsInBlock_zero : StandsInBlock lines 0 ↔ OpensAt lines 0 := by
  constructor
  · rintro ⟨j, hj, hOpens, -⟩
    rwa [Nat.le_zero.mp hj] at hOpens
  · intro hOpens
    exact ⟨0, Nat.le_refl 0, hOpens, fun k _ hk => absurd hk (Nat.not_lt_zero k)⟩

/-- A line stands in a block if the line above does and leaves it open, or if it opens one. -/
theorem standsInBlock_succ : StandsInBlock lines (index + 1) ↔
    StandsInBlock lines index ∧ ¬ClosesAt lines index ∨ OpensAt lines (index + 1) := by
  constructor
  · rintro ⟨j, hj, hOpens, hStays⟩
    rcases Nat.lt_or_eq_of_le hj with hAbove | rfl
    · refine .inl ⟨⟨j, by omega, hOpens, ?_⟩, hStays index (by omega) (by omega)⟩
      intro k hjk hk
      exact hStays k hjk (by omega)
    · exact .inr hOpens
  · rintro (⟨⟨j, hj, hOpens, hStays⟩, hLast⟩ | hOpens)
    · refine ⟨j, by omega, hOpens, ?_⟩
      intro k hjk hk
      rcases Nat.lt_or_eq_of_le (Nat.le_of_lt_succ hk) with hk | rfl
      · exact hStays k hjk hk
      · exact hLast
    · exact ⟨index + 1, Nat.le_refl _, hOpens, fun k hjk hk => absurd hk (by omega)⟩

theorem inBlockComment_iff_standsInBlock {v : LineView}
    (hView : (LineView.views lines)[index]? = some v) :
    inBlockComment v = true ↔ StandsInBlock lines index := by
  -- the lines above the next line are this line and the lines above it
  induction index generalizing v with
  | zero =>
    obtain ⟨hLine, hAbove⟩ := LineView.of_getElem?_viewsFrom hView
    rw [standsInBlock_zero, opensAt_iff hLine, inBlockComment, hAbove]
    simp
  | succ index ih =>
    obtain ⟨hLine, hAbove⟩ := LineView.of_getElem?_viewsFrom hView
    have hLength := (List.getElem?_eq_some_iff.mp hLine).1
    obtain ⟨upper, hUpper⟩ := LineView.exists_getElem?_views (Nat.lt_of_succ_lt hLength)
    obtain ⟨hUpperLine, hUpperAbove⟩ := LineView.of_getElem?_viewsFrom hUpper
    have hStep : v.above = upper.line :: upper.above := by
      rw [hAbove, hUpperAbove, List.take_add_one, hUpperLine, Option.toList_some,
        List.reverse_append, List.reverse_singleton, List.append_assoc]
      rfl
    obtain ⟨above, line, below⟩ := v
    obtain rfl : above = upper.line :: upper.above := hStep
    rw [inBlockComment_cons, standsInBlock_succ, ← ih hUpper, opensAt_iff hLine,
      closesAt_iff hUpperLine, Bool.or_eq_true, Bool.and_eq_true, Bool.not_eq_true',
      Bool.not_eq_true]
    rfl

/-- Which block a line stands in is settled by the lines down to it. -/
theorem StandsInBlock.of_same {others : List Line} (hSame : ∀ j ≤ index, others[j]? = lines[j]?)
    (h : StandsInBlock others index) : StandsInBlock lines index := by
  obtain ⟨j, hj, ⟨line, hLine, hOpens⟩, hStays⟩ := h
  refine ⟨j, hj, ⟨line, hSame j hj ▸ hLine, hOpens⟩, ?_⟩
  rintro k hjk hk ⟨closing, hClosing, hCloses⟩
  exact hStays k hjk hk ⟨closing, (hSame k (Nat.le_of_lt hk)).trans hClosing, hCloses⟩

theorem standsInBlock_congr {others : List Line}
    (h : others.take (index + 1) = lines.take (index + 1)) :
    StandsInBlock others index ↔ StandsInBlock lines index := by
  have hSame : ∀ j ≤ index, others[j]? = lines[j]? := by
    intro j hj
    rw [← List.getElem?_take_of_lt (Nat.lt_succ_of_le hj), h,
      List.getElem?_take_of_lt (Nat.lt_succ_of_le hj)]
  exact ⟨.of_same hSame, .of_same fun j hj => (hSame j hj).symm⟩

/-- A line is taken to stand in a block exactly if a line down to it opens one and no line from
there to the one above it ends with the closing mark, whatever the lines below are. -/
theorem inBlockComment_iff_opened (hIndex : index < lines.length) :
    ∃ v, (LineView.views lines)[index]? = some v ∧
      (inBlockComment v = true ↔
        ∃ j ≤ index, OpensAt lines j ∧ ∀ k, j ≤ k → k < index → ¬ClosesAt lines k) ∧
      ∀ others : List Line, others.take (index + 1) = lines.take (index + 1) →
        ∃ w, (LineView.views others)[index]? = some w ∧ inBlockComment w = inBlockComment v := by
  obtain ⟨v, hView⟩ := LineView.exists_getElem?_views hIndex
  have hStands := inBlockComment_iff_standsInBlock hView
  refine ⟨v, hView, hStands, ?_⟩
  intro others hOthers
  have hReaches : index < others.length := by
    have hLength := congrArg List.length hOthers
    rw [List.length_take, List.length_take] at hLength
    omega
  obtain ⟨w, hOther⟩ := LineView.exists_getElem?_views hReaches
  refine ⟨w, hOther, Bool.eq_iff_iff.mpr ?_⟩
  rw [hStands, inBlockComment_iff_standsInBlock hOther, standsInBlock_congr hOthers]

end

/-- The second line ends the first block, and the third opens one that its own mark does not end. -/
theorem inBlockComment_iff_opened_again :
    let lines := ["/* a".toList, "b(); /* c */".toList, "/* d */ e();".toList, "f();".toList]
    3 < lines.length ∧ OpensAt lines 0 ∧ ClosesAt lines 1 ∧
      ∃ v, (LineView.views lines)[3]? = some v ∧ inBlockComment v = true := by
  intro lines
  have hIndex : 3 < lines.length := by decide
  obtain ⟨v, hView, hOpened, -⟩ := inBlockComment_iff_opened hIndex
  have hOpen : inBlockComment v = true := hOpened.mpr ⟨2, by decide, by decide, by decide⟩
  exact ⟨hIndex, by decide, by decide, v, hView, hOpen⟩

end Script

end TouchedLines
