import Mathlib.Data.List.Find
import Mathlib.Tactic.FinCases
import TouchedLines.Proofs.ScanReport

/-! # Templates one after another

No rule for templates looks beyond its line. A linter of that kind says of two contents in a row
what it says of each, the lines of the second counted on from the first, if the first ends its last
line.
-/

namespace TouchedLines

open Text

/-- The same offense `count` lines further down. -/
def Offense.movedDown (count : Nat) (o : Offense) : Offense :=
  { o with location := { o.location with line := o.location.line + UInt32.ofNat count } }

namespace Layout

theorem trailingWhitespace_add (n : LineNumber) (count : Nat) (line : Line) :
    trailingWhitespace (n + UInt32.ofNat count) line =
      (trailingWhitespace n line).map (Offense.movedDown count) := by
  unfold trailingWhitespace
  split <;> rfl

theorem missingFinalNewline_of_terminated {text : List Char}
    (hEnd : ∀ c, text.getLast? = some c → c = '\n') : missingFinalNewline text = none := by
  rw [missingFinalNewline, if_pos]
  cases hLast : text.getLast? with
  | none => simp [List.getLast?_eq_none_iff.mp hLast]
  | some c => simp [hEnd c hLast]

theorem missingFinalNewline_append {upper : List Char}
    (hEnd : ∀ c, upper.getLast? = some c → c = '\n') (lower : List Char) :
    missingFinalNewline (upper ++ lower) =
      (missingFinalNewline lower).map (Offense.movedDown (splitLines upper).length) := by
  cases lower with
  | nil =>
    rw [List.append_nil, missingFinalNewline_of_terminated hEnd]
    rfl
  | cons c rest =>
    have hLast : (upper ++ c :: rest).getLast? = (c :: rest).getLast? :=
      List.getLast?_append_of_ne_nil upper (List.cons_ne_nil c rest)
    have hNumber : lastLine (upper ++ c :: rest) =
        lastLine (c :: rest) + UInt32.ofNat (splitLines upper).length := by
      rw [lastLine, lastLine, splitLines_append hEnd, List.length_append, Nat.add_comm,
        UInt32.ofNat_add]
    have hEmpty : (upper ++ c :: rest).isEmpty = (c :: rest).isEmpty := by simp
    rw [missingFinalNewline, missingFinalNewline, hLast, hEmpty, hNumber]
    split <;> rfl

end Layout

namespace Linter

theorem inspect_add (l : Linter) (n : LineNumber) (count : Nat) (v : LineView) :
    l.inspect (n + UInt32.ofNat count) v = (l.inspect n v).map (Offense.movedDown count) := by
  have hTable : l.tableOffense (n + UInt32.ofNat count) v =
      (l.tableOffense n v).map (Offense.movedDown count) := by
    unfold tableOffense
    split
    · rfl
    · rw [Option.map_map]
      rfl
  rw [inspect, inspect, hTable, Layout.trailingWhitespace_add, List.map_append,
    Option.toList_map, Option.toList_map]

/-- Views that are counted on from further down give the same offenses further down. -/
theorem scanAll_add (l : Linter) (index count : Nat) (views : List LineView) :
    l.scanAll (index + count) views = (l.scanAll index views).map (Offense.movedDown count) := by
  induction views generalizing index with
  | nil => rfl
  | cons v views ih =>
    have hNumber : UInt32.ofNat (index + count + 1) =
        UInt32.ofNat (index + 1) + UInt32.ofNat count := by
      rw [← UInt32.ofNat_add, Nat.add_right_comm]
    rw [scanAll, scanAll, List.map_append, hNumber, inspect_add, Nat.add_right_comm, ih]

theorem scanAll_append (l : Linter) (index : Nat) (upper lower : List LineView) :
    l.scanAll index (upper ++ lower) =
      l.scanAll index upper ++ l.scanAll (index + upper.length) lower := by
  induction upper generalizing index with
  | nil => rfl
  | cons v upper ih =>
    rw [List.cons_append, scanAll, scanAll, ih, List.length_cons, List.append_assoc,
      Nat.add_right_comm, Nat.add_assoc index upper.length 1]

/-- What the linter says of a line it says of the line alone. -/
structure IsLocal (l : Linter) : Prop where
  skips : ∀ v w : LineView, v.line = w.line → l.skips v = l.skips w
  applies : ∀ r ∈ l.tables.flatMap RuleTable.rules, ∀ v w : LineView, v.line = w.line →
    r.applies v = r.applies w

namespace IsLocal

variable {l : Linter} (hl : l.IsLocal)

include hl

theorem inspect_eq (n : LineNumber) {v w : LineView} (hLine : v.line = w.line) :
    l.inspect n v = l.inspect n w := by
  have hFirst : firstMatch l.tables v = firstMatch l.tables w :=
    List.find?_congr fun r hr => hl.applies r hr v w hLine
  rw [inspect, inspect, tableOffense, tableOffense, hl.skips v w hLine, hFirst, hLine]

theorem scanAll_eq (index : Nat) {views others : List LineView}
    (h : views.map LineView.line = others.map LineView.line) :
    l.scanAll index views = l.scanAll index others := by
  induction views generalizing index others with
  | nil =>
    obtain rfl := List.map_eq_nil_iff.mp h.symm
    rfl
  | cons v views ih =>
    obtain ⟨w, rest, rfl, hLine, hLines⟩ := List.map_eq_cons_iff.mp h.symm
    rw [scanAll, scanAll, hl.inspect_eq _ hLine.symm, ih (index + 1) hLines.symm]

theorem scanAll_views_append (upper lower : List Line) :
    l.scanAll 0 (LineView.views (upper ++ lower)) =
      l.scanAll 0 (LineView.views upper) ++
        (l.scanAll 0 (LineView.views lower)).map (Offense.movedDown upper.length) := by
  have hViews : l.scanAll 0 (LineView.views (upper ++ lower)) =
      l.scanAll 0 (LineView.views upper ++ LineView.views lower) := by
    refine hl.scanAll_eq 0 ?_
    simp only [LineView.views, List.map_append, LineView.map_line_viewsFrom]
  have hLength : (LineView.views upper).length = upper.length := LineView.length_viewsFrom [] upper
  rw [hViews, scanAll_append, scanAll_add, hLength]

/-- Of two contents in a row a linter says what it says of each. -/
theorem lintFull_eq_append {upper : String} (hEnd : ∀ c, upper.toList.getLast? = some c → c = '\n')
    (lower : String) : l.lintFull (upper ++ lower) =
      l.lintFull upper ++ (l.lintFull lower).map (Offense.movedDown (lineCount upper)) := by
  rw [lintFull, lintFull, lintFull, String.toList_append, splitLines_append hEnd,
    hl.scanAll_views_append, Layout.missingFinalNewline_append hEnd,
    Layout.missingFinalNewline_of_terminated hEnd, Option.toList_none, List.append_nil,
    List.map_append, List.append_assoc, Option.toList_map, lineCount]

end IsLocal

end Linter

namespace Template

theorem isLocal : linter.IsLocal where
  skips _ _ _ := rfl
  applies := by
    rintro r hr ⟨above, line, below⟩ ⟨above', line', below'⟩ hLine
    obtain rfl : line = line' := hLine
    fin_cases hr <;> rfl

/-- What is found in two templates in a row is found in each of them, if the first is empty or ends
its last line: the lines of the second follow those of the first. -/
theorem lintFull_append_movedDown {upper : String}
    (hEnd : ∀ c, upper.toList.getLast? = some c → c = '\n') (lower : String)
    (hSize : lineCount (upper ++ lower) < UInt32.size) :
    linter.lintFull (upper ++ lower) =
      linter.lintFull upper ++ (linter.lintFull lower).map (Offense.movedDown (lineCount upper)) ∧
    ∀ o ∈ linter.lintFull lower,
      (o.movedDown (lineCount upper)).line.toNat = o.line.toNat + lineCount upper := by
  refine ⟨isLocal.lintFull_eq_append hEnd lower, ?_⟩
  intro o ho
  have hCount : lineCount (upper ++ lower) = lineCount upper + lineCount lower := by
    rw [lineCount, String.toList_append, splitLines_append hEnd, List.length_append]
    rfl
  have hBound : o.line.toNat ≤ lineCount lower :=
    Linter.toNat_line_le_of_mem_lint (by omega) (show o ∈ linter.lint lower none from ho)
  have hMoved : (o.movedDown (lineCount upper)).line =
      o.line + UInt32.ofNat (lineCount upper) := rfl
  have hFits : o.line.toNat + lineCount upper < 2 ^ 32 := by
    rw [hCount] at hSize
    exact Nat.lt_of_le_of_lt (by omega) hSize
  rw [hMoved, UInt32.toNat_add, UInt32.toNat_ofNat_of_lt' (by omega), Nat.mod_eq_of_lt hFits]

/-- The second template has a trailing space and lacks its last newline. -/
theorem lintFull_append_movedDown_unterminated :
    (∀ c, "<%a %>\n\n".toList.getLast? = some c → c = '\n') ∧
      lineCount ("<%a %>\n\n" ++ "<%=b %> \n<p>") < UInt32.size ∧
      linter.lintFull ("<%a %>\n\n" ++ "<%=b %> \n<p>") =
        linter.lintFull "<%a %>\n\n" ++
          (linter.lintFull "<%=b %> \n<p>").map (Offense.movedDown 2) ∧
      (linter.lintFull ("<%a %>\n\n" ++ "<%=b %> \n<p>")).map (fun o => (o.rule, o.line)) =
        [("bad_spacing", 1), ("bad_output_spacing", 3), ("trailing_whitespace", 3),
          ("missing_final_newline", 4)] := by
  have hEnd : ∀ c, "<%a %>\n\n".toList.getLast? = some c → c = '\n' := by
    rintro c hc
    exact (Option.some.inj hc).symm
  have hSize : lineCount ("<%a %>\n\n" ++ "<%=b %> \n<p>") < UInt32.size := by decide
  refine ⟨hEnd, hSize, (lintFull_append_movedDown hEnd "<%=b %> \n<p>" hSize).1, ?_⟩
  decide +kernel

example : (linter.lintFull (Sample.cleanTemplate ++ "<%x %>\n")).map
    (fun o => (o.rule, o.line)) = [("bad_spacing", 5)] := by
  rw [Linter.lintFull, String.toList_append, Sample.cleanTemplate, String.toList_join]
  decide +kernel

end Template

end TouchedLines
