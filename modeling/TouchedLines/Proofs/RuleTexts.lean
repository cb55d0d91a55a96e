import Mathlib.Tactic.FinCases
import TouchedLines.Proofs.Checking
import TouchedLines.Proofs.Scan

/-! # What linters say is one line

An offense that a linter reports comes from a rule of its tables or from a layout check. None of
them has a newline in its name or its message, so that only an analyzer can report a text that
breaks a line.
-/

namespace TouchedLines

/-- Neither the cop nor the message breaks a line. -/
def Offense.OneLine (o : Offense) : Prop := '\n' ∉ o.cop.toList ∧ '\n' ∉ o.message.toList

def Rule.OneLine (r : Rule) : Prop := '\n' ∉ r.cop.toList ∧ '\n' ∉ r.message.toList

theorem Rule.oneLine_of_eq_ofList {r : Rule} {cop message : List Char}
    (hCop : r.cop = String.ofList cop) (hMessage : r.message = String.ofList message)
    (hTexts : '\n' ∉ cop ∧ '\n' ∉ message) : r.OneLine := by
  rw [OneLine, hCop, hMessage, String.toList_ofList, String.toList_ofList]
  exact hTexts

namespace Layout

theorem oneLine_of_trailingWhitespace {n : LineNumber} {line : Text.Line} {o : Offense}
    (h : trailingWhitespace n line = some o) : o.OneLine := by
  obtain ⟨_, hOffense⟩ := Option.ite_none_right_eq_some.mp h
  obtain rfl := Option.some.inj hOffense
  have hTexts : '\n' ∉ "TrailingWhitespace".toList ∧
      '\n' ∉ "Remove trailing whitespace".toList := by
    rw [String.toList_ofList, String.toList_ofList]
    decide
  exact hTexts

theorem oneLine_of_missingFinalNewline {text : List Char} {o : Offense}
    (h : missingFinalNewline text = some o) : o.OneLine := by
  obtain ⟨_, hOffense⟩ := Option.ite_none_left_eq_some.mp h
  obtain rfl := Option.some.inj hOffense
  have hTexts : '\n' ∉ "MissingFinalNewline".toList ∧
      '\n' ∉ "Add final newline at end of file".toList := by
    rw [String.toList_ofList, String.toList_ofList]
    decide
  exact hTexts

end Layout

namespace Linter

theorem oneLine_of_mem_rules {l : Linter} (hl : l ∈ builtin) {table : RuleTable}
    (hTable : table ∈ l.tables) {r : Rule} (hr : r ∈ table.rules) : r.OneLine := by
  fin_cases hl
  · fin_cases hTable
    · fin_cases hr <;> exact Rule.oneLine_of_eq_ofList rfl rfl (by decide)
    · fin_cases hr <;> exact Rule.oneLine_of_eq_ofList rfl rfl (by decide)
  · fin_cases hTable
    fin_cases hr <;> exact Rule.oneLine_of_eq_ofList rfl rfl (by decide)

theorem oneLine_of_mem_offensesAt {l : Linter} (hl : l ∈ builtin) {content : String} {index : Nat}
    {o : Offense} (h : o ∈ l.offensesAt content index) : o.OneLine := by
  obtain ⟨v, -, hTable | hLayout⟩ := mem_offensesAt_iff.mp h
  · obtain ⟨_, r, hMatch, rfl⟩ := tableOffense_eq_some_iff.mp hTable
    obtain ⟨table, hTable, hr⟩ := mem_of_firstMatch hMatch
    exact oneLine_of_mem_rules hl hTable hr
  · exact Layout.oneLine_of_trailingWhitespace hLayout

theorem oneLine_of_mem_lint {l : Linter} (hl : l ∈ builtin) {content : String}
    {lines : Option LineSet} {o : Offense} (h : o ∈ l.lint content lines) : o.OneLine := by
  rcases mem_lint_cases h with ⟨_, ho⟩ | hEnd
  · exact oneLine_of_mem_offensesAt hl ho
  · exact Layout.oneLine_of_missingFinalNewline hEnd

end Linter

/-- What is not left to the analyzer is reported on one line. -/
theorem Checker.Checks.oneLine {k : Checker} {c : Change} {o : Outcome} (h : k.Checks c o)
    (hCategory : c.category ≠ .ruby) {offense : Offense} (hOffense : offense ∈ o.offenses) :
    offense.OneLine := by
  obtain ⟨l, hLinter, hOffenses, _⟩ | ⟨hRuby, _⟩ := h.found
  · rw [hOffenses] at hOffense
    exact Linter.oneLine_of_mem_lint (Linter.mem_builtin_of_ofCategory? hLinter) hOffense
  · exact absurd hRuby hCategory

end TouchedLines
