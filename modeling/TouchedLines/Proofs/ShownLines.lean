import TouchedLines.Proofs.ScanReport
import TouchedLines.Report.Text

/-! # The line under an offense

A linter numbers the lines of a content while it scans them; the text report looks a line up by its
number. Both come to the same line: the one whose text the offense shows, or the last line for the
end of the content. An offense of a linter is placed at the start of its line, so that its marker is
empty.
-/

namespace TouchedLines

open Text

namespace Offense

theorem sourceLine?_of_toNat {lines : List Line} {n : LineNumber} {index : Nat}
    (h : n.toNat = index + 1) : sourceLine? lines n = lines[index]? := by
  rw [sourceLine?, h]

/-- The line of a content that an offense is about. -/
structure IsAbout (o : Offense) (content : String) (line : Line) : Prop where
  text : o.rule ≠ "missing_final_newline" → o.lineContent = String.ofList line
  last : o.rule = "missing_final_newline" → (splitLines content.toList).getLast? = some line

theorem render_of_lineStart {o : Offense} (h : o.location = .lineStart o.line) (path : String)
    (line : Line) :
    o.render path (some line) = terminateLines [o.header path, trimEnd line, []] := by
  rw [render, h]
  rfl

end Offense

namespace Linter

theorem exists_sourceLine?_of_mem_lint {l : Linter} (hl : l ∈ builtin) {content : String}
    (hSize : lineCount content < UInt32.size) {lines : Option LineSet} {o : Offense}
    (h : o ∈ l.lint content lines) : o.location = .lineStart o.line ∧ ∃ line,
      Offense.sourceLine? (splitLines content.toList) o.line = some line ∧
        o.IsAbout content line := by
  obtain ⟨index, hAt⟩ | hEnd := mem_lint_cases h
  · have hRule := rule_ne_of_mem_offensesAt (leavesEndUnnamed_of_mem_builtin hl) hAt
    obtain ⟨hLocation, line, hLine, hContent⟩ := of_mem_offensesAt hAt
    have hNumber := toNat_line_of_mem_offensesAt hSize (lt_lineCount_of_mem_offensesAt hAt) hAt
    refine ⟨hLocation, line, (Offense.sourceLine?_of_toNat hNumber).trans hLine, ?_, ?_⟩
    · exact fun _ => hContent
    · exact fun hSame => absurd hSame hRule
  · have hOffense : endOffense content none = some o := hEnd
    obtain ⟨hRule, hLocation, hNumber, hPos⟩ := of_endOffense hSize hOffense
    have hLast : o.line.toNat = lineCount content - 1 + 1 := by omega
    have hIndex : lineCount content - 1 < (splitLines content.toList).length := by
      rw [lineCount] at hPos ⊢
      omega
    refine ⟨hLocation, _, (Offense.sourceLine?_of_toNat hLast).trans
      (List.getElem?_eq_getElem hIndex), ?_, ?_⟩
    · exact fun hNot => absurd hRule hNot
    · intro _
      rw [List.getLast?_eq_getElem?]
      exact List.getElem?_eq_getElem hIndex

end Linter

namespace Summary

theorem renderText_append (before after : List Outcome) :
    (Summary.mk (before ++ after)).renderText =
      (Summary.mk before).renderText ++ (Summary.mk after).renderText := by
  rw [renderText, renderText, renderText, List.flatMap_append, String.ofList_append]

theorem toList_renderText_cons (o : Outcome) (after : List Outcome) :
    (Summary.mk (o :: after)).renderText.toList =
      renderOutcome o ++ (Summary.mk after).renderText.toList := by
  rw [renderText, renderText, List.flatMap_cons, String.toList_ofList, String.toList_ofList]

end Summary

namespace Linter

/-- The text report of a file that a linter has scanned, in full or along a set of lines, has for
each offense in its order a header, the line that the offense is about without the blanks at its
end, and an empty marker. That line is the one that the report finds by the number of the
offense. -/
theorem renderText_shows_lines {l : Linter} (hl : l ∈ builtin) (content : String)
    (hSize : lineCount content < UInt32.size) (lines : Option LineSet) :
    ∃ shown : Offense → Line,
      (∀ o ∈ l.lint content lines,
        Offense.sourceLine? (splitLines content.toList) o.line = some (shown o) ∧
          o.IsAbout content (shown o)) ∧
      ∀ (path : String) (error : Option String) (before after : List Outcome),
        (Summary.mk (before ++
            ⟨path, content, l.lint content lines, error⟩ :: after)).renderText.toList =
          (Summary.mk before).renderText.toList ++
            (l.lint content lines).flatMap
              (fun o => terminateLines [o.header path, trimEnd (shown o), []]) ++
            (Summary.mk after).renderText.toList := by
  let found := l.lint content lines
  let shown (o : Offense) : Line :=
    (Offense.sourceLine? (splitLines content.toList) o.line).getD []
  have hShown : ∀ o ∈ found,
      Offense.sourceLine? (splitLines content.toList) o.line = some (shown o) ∧
        o.IsAbout content (shown o) := by
    intro o ho
    obtain ⟨-, line, hLine, hAbout⟩ := exists_sourceLine?_of_mem_lint hl hSize ho
    have hSame : shown o = line := by simp only [shown, hLine, Option.getD_some]
    rw [hSame]
    exact ⟨hLine, hAbout⟩
  refine ⟨shown, hShown, ?_⟩
  intro path error before after
  have hBlocks : Summary.renderOutcome ⟨path, content, found, error⟩ =
      found.flatMap fun o => terminateLines [o.header path, trimEnd (shown o), []] := by
    refine List.flatMap_congr ?_
    intro o ho
    obtain ⟨hLocation, -⟩ := exists_sourceLine?_of_mem_lint hl hSize ho
    rw [(hShown o ho).1, Offense.render_of_lineStart hLocation]
  rw [Summary.renderText_append, String.toList_append, Summary.toList_renderText_cons, hBlocks,
    List.append_assoc]

/-- The content has blanks and a carriage return at the ends of lines, empty lines and no newline at
its end. -/
theorem renderText_shows_lines_unterminated :
    let content := "eval(x); \r\n\n\ny() "
    let found := Script.linter.lint content none
    Script.linter ∈ builtin ∧ lineCount content < UInt32.size ∧
      found.map (fun o => (o.rule, o.line)) = [("eval_usage", 1), ("multiple_empty_lines", 3),
        ("missing_semicolon", 4), ("trailing_whitespace", 4), ("missing_final_newline", 4)] ∧
      ∃ shown : Offense → Line,
        (∀ o ∈ found, Offense.sourceLine? (splitLines content.toList) o.line = some (shown o) ∧
          o.IsAbout content (shown o)) ∧
        (Summary.mk [⟨"a.js", content, found, none⟩]).renderText.toList =
          found.flatMap fun o => terminateLines [o.header "a.js", trimEnd (shown o), []] := by
  intro content found
  have hLinter : Script.linter ∈ builtin := by simp [builtin]
  have hSize : lineCount content < UInt32.size := by decide
  obtain ⟨shown, hShown, hText⟩ := renderText_shows_lines hLinter content hSize none
  refine ⟨hLinter, hSize, by decide +kernel, shown, hShown, ?_⟩
  exact (hText "a.js" none [] []).trans (List.append_nil _)

example : (Summary.mk [⟨"a.erb", "<p>\n<%a %> \r",
    Template.linter.lint "<p>\n<%a %> \r" (some (.singleton 2)), none⟩]).renderText =
      "a.erb:2:1: W: BadSpacing: <% your_code %> for better readability\n<%a %>\n\n" := by
  decide +kernel

end Linter

end TouchedLines
