import TouchedLines.Offense

/-! # Layout checks

Two checks that every linter shares: a line must not end with a space, and a file that is not empty
must end with a newline.
-/

namespace TouchedLines.Layout

open Text

def trailingWhitespace (n : LineNumber) (line : Line) : Option Offense :=
  if line.getLast? = some ' ' then
    some {
      rule := "trailing_whitespace"
      message := "Remove trailing whitespace"
      severity := .warning
      cop := "TrailingWhitespace"
      lineContent := String.ofList line
      location := .lineStart n }
  else none

def lastLine (text : List Char) : LineNumber := UInt32.ofNat (splitLines text).length

/-- The offense is reported at the last line and shows no line of the file. -/
def missingFinalNewline (text : List Char) : Option Offense :=
  if text.isEmpty || text.getLast? = some '\n' then none
  else
    some {
      rule := "missing_final_newline"
      message := "Add final newline at end of file"
      severity := .warning
      cop := "MissingFinalNewline"
      lineContent := "End of file"
      location := .lineStart (lastLine text) }

theorem line_of_trailingWhitespace {n : LineNumber} {line : Line} {o : Offense}
    (h : trailingWhitespace n line = some o) : o.line = n := by
  unfold trailingWhitespace at h
  split at h
  · obtain rfl := Option.some.inj h
    rfl
  · simp at h

theorem rule_of_trailingWhitespace {n : LineNumber} {line : Line} {o : Offense}
    (h : trailingWhitespace n line = some o) : o.rule = "trailing_whitespace" := by
  obtain ⟨-, hOffense⟩ := Option.ite_none_right_eq_some.mp h
  obtain rfl := Option.some.inj hOffense
  rfl

theorem rule_of_missingFinalNewline {text : List Char} {o : Offense}
    (h : missingFinalNewline text = some o) : o.rule = "missing_final_newline" := by
  obtain ⟨-, hOffense⟩ := Option.ite_none_left_eq_some.mp h
  obtain rfl := Option.some.inj hOffense
  rfl

end TouchedLines.Layout
