import TouchedLines.Proofs.Matching
import TouchedLines.Proofs.ScanReport
import TouchedLines.Proofs.Trimming

/-! # Rules that others stand in front of

Of the rules that apply to a line the first is reported. Where a rule matches only lines that an
earlier rule applies to, it is listed and never reported. For scripts this is so of rest parameters,
which are written with the dots of a spread operator.
-/

namespace TouchedLines

open Text

/-- Behind a rule that applies to a line no other rule is the first to apply to it. -/
theorem mem_of_firstMatch_of_applies {tables : List RuleTable} {earlier later : List Rule}
    (hRules : tables.flatMap RuleTable.rules = earlier ++ later) {e r : Rule} {v : LineView}
    (he : e ∈ earlier) (hApplies : e.applies v = true) (h : firstMatch tables v = some r) :
    r ∈ earlier := by
  rw [firstMatch, hRules, List.find?_append] at h
  cases hEarlier : earlier.find? (·.applies v) with
  | none => exact absurd hApplies (List.find?_eq_none.mp hEarlier e he)
  | some first =>
    rw [hEarlier, Option.some_or] at h
    exact Option.some.inj h ▸ List.mem_of_find?_eq_some hEarlier

/-- A rule that looks for a word, without exemption, applies wherever the word stands. -/
theorem Rule.applies_of_isInfix {r : Rule} {word : String}
    (hCriterion : r.criterion = .pattern (.text word)) (hExempts : ∀ v, r.exempts v = false)
    (hBlank : r.onBlankLines = false) {c : Char} (hc : c ∈ word.toList)
    (hInk : Text.isBlank c = false) {v : LineView} (h : word.toList <:+: v.line) :
    r.applies v = true := by
  rw [Rule.applies_eq_true_iff]
  constructor
  · exact hBlank.trans (isBlankLine_eq_false_of_mem (h.subset hc) hInk).symm
  · rw [hCriterion]
    exact Pattern.isMatch_text_iff.mpr h
  · exact hExempts v

namespace Script

/-- The rules in front of the one on spread operators. -/
def rulesAbove : List Rule := [arrowFunctions, constLet, templateLiterals, destructuring]

/-- The rules between the one on spread operators and the one on default parameters. -/
def rulesBetween : List Rule := [classes, modules]

theorem rules_eq_append : linter.tables.flatMap RuleTable.rules =
    (rulesAbove ++ [spreadOperator]) ++
      (rulesBetween ++ defaultParameters :: restParameters :: qualityTable.rules) := rfl

theorem arrowFunctions_applies {v : LineView} (h : "=>".toList <:+: v.line) :
    arrowFunctions.applies v = true := by
  have hMark : '=' ∈ "=>".toList := by decide
  exact Rule.applies_of_isInfix rfl (fun _ => rfl) rfl hMark (by decide) h

theorem spreadOperator_applies {v : LineView} (h : "...".toList <:+: v.line) :
    spreadOperator.applies v = true := by
  have hMark : '.' ∈ "...".toList := by decide
  exact Rule.applies_of_isInfix rfl (fun _ => rfl) rfl hMark (by decide) h

theorem isInfix_of_restParameters {v : LineView} (h : restParameters.criterion.holds v = true) :
    "...".toList <:+: v.line := by
  obtain ⟨before, _, after, _, hLine, hText⟩ := Pattern.isMatch_iff.mp h
  obtain ⟨_, right, _, _, rfl, -, hDots, -⟩ := Pattern.spans_append.mp hText
  obtain ⟨rfl, -⟩ := Pattern.spans_text.mp hDots
  refine ⟨before, right ++ after, ?_⟩
  rw [hLine, List.append_assoc, List.append_assoc]

theorem isInfix_of_arrowDefaults {line : Line} (h : arrowDefaults.isMatch line = true) :
    "=>".toList <:+: line := by
  obtain ⟨before, _, after, _, rfl, hText⟩ := Pattern.isMatch_iff.mp h
  -- the arrow is the last part of the pattern
  obtain ⟨left₁, _, _, _, rfl, -, -, hText⟩ := Pattern.spans_append.mp hText
  obtain ⟨left₂, _, _, _, rfl, -, -, hText⟩ := Pattern.spans_append.mp hText
  obtain ⟨left₃, _, _, _, rfl, -, -, hText⟩ := Pattern.spans_append.mp hText
  obtain ⟨left₄, arrow, _, _, rfl, -, -, hArrow⟩ := Pattern.spans_append.mp hText
  obtain ⟨rfl, -⟩ := Pattern.spans_text.mp hArrow
  refine ⟨before ++ (left₁ ++ (left₂ ++ (left₃ ++ left₄))), after, ?_⟩
  simp only [List.append_assoc]

/-- A line whose offense is one of the two last rules on syntax holds neither an arrow nor dots. -/
theorem not_isInfix_of_tableOffense {n : LineNumber} {v : LineView} {o : Offense}
    (h : linter.tableOffense n v = some o)
    (hRule : o.rule = "default_parameters" ∨ o.rule = "rest_parameters") :
    ¬"=>".toList <:+: v.line ∧ ¬"...".toList <:+: v.line := by
  obtain ⟨-, r, hFirst, rfl⟩ := Linter.tableOffense_eq_some_iff.mp h
  have hNone : ∀ e ∈ rulesAbove ++ [spreadOperator], e.applies v ≠ true := by
    intro e he hApplies
    have hIds : ∀ r ∈ rulesAbove ++ [spreadOperator],
        r.id ≠ "default_parameters" ∧ r.id ≠ "rest_parameters" := by decide
    obtain ⟨hDefault, hRest⟩ :=
      hIds r (mem_of_firstMatch_of_applies rules_eq_append he hApplies hFirst)
    exact hRule.elim hDefault hRest
  constructor
  · intro hArrow
    exact hNone arrowFunctions (by simp [rulesAbove]) (arrowFunctions_applies hArrow)
  · intro hDots
    exact hNone spreadOperator (by simp) (spreadOperator_applies hDots)

theorem rule_ne_of_tableOffense {n : LineNumber} {v : LineView} {o : Offense}
    (h : linter.tableOffense n v = some o) : o.rule ≠ "rest_parameters" := by
  intro hRule
  have hListed : restParameters ∈ linter.tables.flatMap RuleTable.rules := by
    simp [rules_eq_append]
  have hFirst := Linter.firstMatch_of_rule_eq (by simp [Linter.builtin]) h hListed hRule
  have hHolds := (Rule.applies_eq_true_iff.mp (applies_of_firstMatch hFirst)).holds
  exact (not_isInfix_of_tableOffense h (.inr hRule)).2 (isInfix_of_restParameters hHolds)

/-- Rest parameters are listed as a rule and never reported, since the rule on spread operators
applies first to every line that has them. Default parameters are reported only on lines without an
arrow and without dots, since those lines are reported for their arrows or their dots. -/
theorem lint_reports_unshadowed :
    linter.tables.flatMap RuleTable.rules = (rulesAbove ++ [spreadOperator]) ++
      (rulesBetween ++ defaultParameters :: restParameters :: qualityTable.rules) ∧
    arrowFunctions ∈ rulesAbove ∧
    (∀ v, restParameters.criterion.holds v = true → spreadOperator.applies v = true) ∧
    (∀ v, arrowDefaults.isMatch v.line = true → arrowFunctions.applies v = true) ∧
    ∀ content lines, ∀ o ∈ linter.lint content lines, o.rule ≠ "rest_parameters" ∧
      (o.rule = "default_parameters" → ∃ index line,
        (splitLines content.toList)[index]? = some line ∧ o.line = UInt32.ofNat (index + 1) ∧
          o.lineContent = String.ofList line ∧
          ¬"=>".toList <:+: line ∧ ¬"...".toList <:+: line) := by
  refine ⟨rules_eq_append, by simp [rulesAbove], ?_, ?_, ?_⟩
  · intro v hHolds
    exact spreadOperator_applies (isInfix_of_restParameters hHolds)
  · intro v hMatch
    exact arrowFunctions_applies (isInfix_of_arrowDefaults hMatch)
  · intro content lines o ho
    rcases Linter.mem_lint_cases ho with ⟨index, hAt⟩ | hEnd
    · obtain ⟨-, line, hLine, hShown⟩ := Linter.of_mem_offensesAt hAt
      have hNumber := Linter.line_of_mem_offensesAt hAt
      obtain ⟨v, hView, hTable | hLayout⟩ := Linter.mem_offensesAt_iff.mp hAt
      · obtain rfl : v.line = line :=
          Option.some.inj ((LineView.of_getElem?_viewsFrom hView).1.symm.trans hLine)
        refine ⟨rule_ne_of_tableOffense hTable, ?_⟩
        intro hRule
        exact ⟨index, v.line, hLine, hNumber, hShown,
          not_isInfix_of_tableOffense hTable (.inl hRule)⟩
      · rw [Layout.rule_of_trailingWhitespace hLayout]
        simp
    · rw [Layout.rule_of_missingFinalNewline hEnd]
      simp

/-- Both parameters have defaults, and the arrow stands on the next line. -/
theorem lint_reports_unshadowed_defaults :
    ∃ o ∈ linter.lint "function f(a = 1, b = 2)\n=> (...c)" (some (.ofList [1, 2])),
      o.rule = "default_parameters" ∧ ∃ index line,
        (splitLines "function f(a = 1, b = 2)\n=> (...c)".toList)[index]? = some line ∧
          o.line = UInt32.ofNat (index + 1) ∧ o.lineContent = String.ofList line ∧
          ¬"=>".toList <:+: line ∧ ¬"...".toList <:+: line := by
  have hFound : defaultParameters.offense 1 "function f(a = 1, b = 2)".toList ∈
      linter.lint "function f(a = 1, b = 2)\n=> (...c)" (some (.ofList [1, 2])) := by
    decide +kernel
  obtain ⟨-, hDefault⟩ := lint_reports_unshadowed.2.2.2.2 _ _ _ hFound
  exact ⟨_, hFound, rfl, hDefault rfl⟩

end Script

end TouchedLines
