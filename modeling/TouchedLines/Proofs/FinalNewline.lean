import TouchedLines.Proofs.JoinedTemplates

/-! # Lines and the newline at the end

The lines of a text and its last newline give the text back, and there are as many lines as
newlines, with one more for a last line that lacks its newline. A text that lacks it has the same
lines as the text with it. Every scan reads the lines alone until it comes to the end of the
content, so that the missing newline is all that the two are told apart by.
-/

namespace TouchedLines

namespace Text

/-- The text has a last line that no newline ends. -/
def IsUnterminated (text : List Char) : Prop := text ≠ [] ∧ text.getLast? ≠ some '\n'

instance : DecidablePred IsUnterminated := fun text =>
  inferInstanceAs (Decidable (text ≠ [] ∧ text.getLast? ≠ some '\n'))

/-- The newline that a text lacks at its end. -/
def missingNewline (text : List Char) : List Char := if IsUnterminated text then ['\n'] else []

/-- The lines counted by the newlines, without splitting the text. -/
def countedLines (text : List Char) : Nat :=
  text.count '\n' + if IsUnterminated text then 1 else 0

theorem missingNewline_cons_cons (c d : Char) (text : List Char) :
    missingNewline (c :: d :: text) = missingNewline (d :: text) := by
  simp [missingNewline, IsUnterminated]

/-- Ended by a newline each, the lines of a text are the text and the newline that it lacks. -/
theorem terminateLines_splitLines (text : List Char) :
    terminateLines (splitLines text) = text ++ missingNewline text := by
  induction text with
  | nil => rfl
  | cons c rest ih =>
    rw [splitLines]
    cases rest with
    | nil =>
      split
      · rename_i hc
        rw [hc]
        rfl
      · rename_i hc
        simp [splitLines, terminateLines, missingNewline, IsUnterminated, hc]
    | cons d rest =>
      rw [missingNewline_cons_cons, List.cons_append, ← ih]
      split
      · rename_i hc
        rw [hc, terminateLines_cons, List.nil_append]
      · split
        · rename_i hNil
          exact absurd (splitLines_eq_nil_iff.mp hNil) (List.cons_ne_nil d rest)
        · rename_i line lines hLines
          rw [hLines, terminateLines_cons, terminateLines_cons, List.cons_append]

/-- The newline that a text lacks begins no line. -/
theorem splitLines_append_missingNewline (text : List Char) :
    splitLines (text ++ missingNewline text) = splitLines text := by
  rw [← terminateLines_splitLines]
  exact splitLines_terminateLines fun line hLine => newline_notMem_of_mem_splitLines hLine

theorem terminateLines_eq_joinLines_append {lines : List Line} (h : lines ≠ []) :
    terminateLines lines = joinLines lines ++ ['\n'] := by
  rcases List.eq_nil_or_concat lines with hNil | ⟨upper, line, rfl⟩
  · exact absurd hNil h
  · rw [List.concat_eq_append, joinLines_append_cons]
    simp [terminateLines, joinLines]

theorem count_terminateLines {lines : List Line} (h : ∀ line ∈ lines, '\n' ∉ line) :
    (terminateLines lines).count '\n' = lines.length := by
  induction lines with
  | nil => rfl
  | cons line lines ih =>
    have hLine : line.count '\n' = 0 := List.count_eq_zero.mpr (h line List.mem_cons_self)
    rw [terminateLines_cons, List.count_append, hLine, List.count_cons_self,
      ih fun l hl => h l (List.mem_cons_of_mem _ hl), Nat.zero_add, List.length_cons]

theorem count_append_missingNewline (text : List Char) :
    (text ++ missingNewline text).count '\n' = countedLines text := by
  rw [List.count_append, countedLines, missingNewline]
  split <;> rfl

/-- The lines of a text: none of them holds a newline, with newlines between them and the last
newline of the text they are the text, and counting newlines counts them. -/
structure AreLinesOf (lines : List Line) (text : List Char) : Prop where
  newline_notMem : ∀ line ∈ lines, '\n' ∉ line
  joined : joinLines lines ++ (if text.getLast? = some '\n' then ['\n'] else []) = text
  length : lines.length = countedLines text

theorem areLinesOf_splitLines (text : List Char) : AreLinesOf (splitLines text) text where
  newline_notMem line hLine := newline_notMem_of_mem_splitLines hLine
  joined := by
    by_cases hNil : text = []
    · rw [hNil]
      rfl
    · have hLines : splitLines text ≠ [] := fun h => hNil (splitLines_eq_nil_iff.mp h)
      have hText : joinLines (splitLines text) ++ ['\n'] = text ++ missingNewline text := by
        rw [← terminateLines_splitLines, terminateLines_eq_joinLines_append hLines]
      split
      · rename_i hLast
        rw [hText, missingNewline, if_neg fun h => h.2 hLast, List.append_nil]
      · rename_i hLast
        rw [missingNewline, if_pos ⟨hNil, hLast⟩] at hText
        rw [List.append_nil, List.append_cancel_right hText]
  length := by
    rw [← count_append_missingNewline, ← terminateLines_splitLines,
      count_terminateLines fun line hLine => newline_notMem_of_mem_splitLines hLine]

/-- No other lines have these properties. -/
theorem AreLinesOf.eq_splitLines {lines : List Line} {text : List Char}
    (h : AreLinesOf lines text) : lines = splitLines text := by
  have hText : terminateLines lines = text ++ missingNewline text := by
    have hLength : lines.length = (splitLines text).length :=
      h.length.trans (areLinesOf_splitLines text).length.symm
    by_cases hNil : text = []
    · subst hNil
      obtain rfl := List.length_eq_zero_iff.mp hLength
      rfl
    · have hLines : lines ≠ [] := by
        rintro rfl
        exact hNil (splitLines_eq_nil_iff.mp (List.length_eq_zero_iff.mp hLength.symm))
      have hJoined := h.joined
      rw [terminateLines_eq_joinLines_append hLines]
      split at hJoined
      · rename_i hLast
        rw [hJoined, missingNewline, if_neg fun hLacks => hLacks.2 hLast, List.append_nil]
      · rename_i hLast
        rw [List.append_nil] at hJoined
        rw [hJoined, missingNewline, if_pos ⟨hNil, hLast⟩]
  rw [← splitLines_append_missingNewline, ← hText, splitLines_terminateLines h.newline_notMem]

end Text

open Text

namespace Layout

theorem isSome_missingFinalNewline_iff {text : List Char} :
    (missingFinalNewline text).isSome ↔ IsUnterminated text := by
  have hEnd := @Linter.isSome_endOffense_iff (String.ofList text) none
  rw [Linter.endOffense, String.toList_ofList] at hEnd
  exact hEnd.trans (and_iff_right rfl)

theorem line_of_missingFinalNewline {text : List Char} {o : Offense}
    (h : missingFinalNewline text = some o) : o.line = UInt32.ofNat (countedLines text) := by
  obtain ⟨-, hOffense⟩ := Option.ite_none_left_eq_some.mp h
  obtain rfl := Option.some.inj hOffense
  exact congrArg UInt32.ofNat (areLinesOf_splitLines text).length

/-- Splitting a text loses nothing and gives the only lines that the text has. The end of a text is
reported exactly if a newline is missing there, at the line whose number is the count of lines by
newlines, in the 32 bits of a line number. -/
theorem missingFinalNewline_counts_lines (text : List Char) :
    AreLinesOf (splitLines text) text ∧
    (∀ lines, AreLinesOf lines text → lines = splitLines text) ∧
    ((missingFinalNewline text).isSome ↔ IsUnterminated text) ∧
    ∀ o, missingFinalNewline text = some o → o.line = UInt32.ofNat (countedLines text) ∧
      (countedLines text < UInt32.size → o.line.toNat = countedLines text) := by
  refine ⟨areLinesOf_splitLines text, ?_, isSome_missingFinalNewline_iff, ?_⟩
  · intro lines hLines
    exact hLines.eq_splitLines
  · intro o ho
    have hLine := line_of_missingFinalNewline ho
    refine ⟨hLine, ?_⟩
    intro hSize
    rw [hLine, UInt32.toNat_ofNat_of_lt' hSize]

/-- The carriage return belongs to its line, and the last line lacks its newline. -/
theorem missingFinalNewline_counts_lines_returned :
    splitLines "a\r\n\n\nb".toList = ["a\r".toList, [], [], ['b']] ∧
      countedLines "a\r\n\n\nb".toList < UInt32.size ∧
      ∃ o, missingFinalNewline "a\r\n\n\nb".toList = some o ∧ o.line.toNat = 4 := by
  have hSize : countedLines "a\r\n\n\nb".toList < UInt32.size := by decide
  have hCount : countedLines "a\r\n\n\nb".toList = 4 := by decide
  obtain ⟨-, -, hReported, hLine⟩ := missingFinalNewline_counts_lines "a\r\n\n\nb".toList
  obtain ⟨o, ho⟩ := Option.isSome_iff_exists.mp (hReported.mpr (by decide))
  exact ⟨by decide, hSize, o, ho, ((hLine o ho).2 hSize).trans hCount⟩

end Layout

namespace Linter

theorem missingFinalNewline_append_newline (content : String) :
    Layout.missingFinalNewline (content ++ "\n").toList = none := by
  refine Layout.missingFinalNewline_of_terminated ?_
  intro c hc
  rw [String.toList_append, show "\n".toList = ['\n'] from rfl, List.getLast?_concat] at hc
  exact (Option.some.inj hc).symm

section

variable (l : Linter) {content : String} (hEnd : IsUnterminated content.toList)

include hEnd

theorem splitLines_toList_append_newline :
    splitLines (content ++ "\n").toList = splitLines content.toList := by
  have hText : (content ++ "\n").toList = content.toList ++ missingNewline content.toList := by
    rw [String.toList_append, missingNewline, if_pos hEnd]
    rfl
  rw [hText, splitLines_append_missingNewline]

theorem lintFull_append_newline :
    l.lintFull content =
      l.lintFull (content ++ "\n") ++ (Layout.missingFinalNewline content.toList).toList := by
  rw [lintFull, lintFull, missingFinalNewline_append_newline,
    splitLines_toList_append_newline hEnd, Option.toList_none, List.append_nil]

theorem lintFiltered_append_newline (lines : LineSet) :
    l.lintFiltered (content ++ "\n") lines = l.lintFiltered content lines := by
  rw [lintFiltered, lintFiltered, splitLines_toList_append_newline hEnd]

end

/-- A newline at the end of a content that lacks it ends one offense, the last of the full scan.
What a scan says of the lines is the same with it and without it. -/
theorem lintFull_terminated {l : Linter} (hl : l ∈ builtin) {content : String}
    (hEnd : IsUnterminated content.toList) (hSize : lineCount content < UInt32.size) :
    (∃ o, Layout.missingFinalNewline content.toList = some o ∧ o.rule = "missing_final_newline" ∧
      o.line.toNat = lineCount content ∧
      l.lintFull content = l.lintFull (content ++ "\n") ++ [o] ∧
      ∀ other ∈ l.lintFull (content ++ "\n"), other.rule ≠ "missing_final_newline") ∧
    ∀ lines, l.lintFiltered (content ++ "\n") lines = l.lintFiltered content lines := by
  refine ⟨?_, lintFiltered_append_newline l hEnd⟩
  obtain ⟨o, ho⟩ := Option.isSome_iff_exists.mp (Layout.isSome_missingFinalNewline_iff.mpr hEnd)
  have hOffense : endOffense content none = some o := ho
  obtain ⟨hRule, -, hLine, -⟩ := of_endOffense hSize hOffense
  have hFull := lintFull_append_newline l hEnd
  rw [ho, Option.toList_some] at hFull
  refine ⟨o, ho, hRule, hLine, hFull, ?_⟩
  intro other hOther
  rcases mem_lint_cases (show other ∈ l.lint (content ++ "\n") none from hOther) with
    ⟨index, hAt⟩ | hMissing
  · exact rule_ne_of_mem_offensesAt (leavesEndUnnamed_of_mem_builtin hl) hAt
  · rw [missingFinalNewline_append_newline] at hMissing
    cases hMissing

/-- The last line stands in a comment and consists of blanks. -/
theorem lintFull_terminated_blank :
    Script.linter ∈ builtin ∧ IsUnterminated "eval(a)\n/* b\n  ".toList ∧
      lineCount "eval(a)\n/* b\n  " < UInt32.size ∧
      ∃ o, o.line.toNat = 3 ∧ Script.linter.lintFull "eval(a)\n/* b\n  " =
        Script.linter.lintFull ("eval(a)\n/* b\n  " ++ "\n") ++ [o] := by
  have hLinter : Script.linter ∈ builtin := by simp [builtin]
  have hEnd : IsUnterminated "eval(a)\n/* b\n  ".toList := by decide
  have hSize : lineCount "eval(a)\n/* b\n  " < UInt32.size := by decide
  obtain ⟨⟨o, -, -, hLine, hFull, -⟩, -⟩ := lintFull_terminated hLinter hEnd hSize
  have hCount : lineCount "eval(a)\n/* b\n  " = 3 := by decide
  exact ⟨hLinter, hEnd, hSize, o, hLine.trans hCount, hFull⟩

example : (Script.linter.lintFull Sample.scriptWithoutFinalNewline).map
    (fun o => (o.rule, o.line)) = [("missing_final_newline", 2)] := by
  decide +kernel

end Linter

end TouchedLines
