import TouchedLines.Offense
import TouchedLines.Pattern.Match

/-! # Rules

A rule looks at a line together with the lines above and below it. Tables of rules are ordered:
the first rule that applies to a line is the one that is reported.
-/

namespace TouchedLines

open Text

structure LineView where
  /-- The lines above, the nearest first. -/
  above : List Line
  line : Line
  below : List Line
  deriving Repr, DecidableEq

namespace LineView

def viewsFrom (above : List Line) : List Line → List LineView
  | [] => []
  | line :: below => ⟨above, line, below⟩ :: viewsFrom (line :: above) below

/-- The views of all lines of a file, from the top. -/
def views (lines : List Line) : List LineView := viewsFrom [] lines

def isBlank (v : LineView) : Bool := isBlankLine v.line

theorem length_viewsFrom (above lines : List Line) :
    (viewsFrom above lines).length = lines.length := by
  induction lines generalizing above with
  | nil => rfl
  | cons line below ih => simp [viewsFrom, ih]

theorem map_line_viewsFrom (above lines : List Line) :
    (viewsFrom above lines).map LineView.line = lines := by
  induction lines generalizing above with
  | nil => rfl
  | cons line below ih => simp [viewsFrom, ih]

theorem map_line_getElem?_views (lines : List Line) (index : Nat) :
    (views lines)[index]?.map LineView.line = lines[index]? := by
  rw [← List.getElem?_map, views, map_line_viewsFrom]

theorem exists_getElem?_views {lines : List Line} {index : Nat} (h : index < lines.length) :
    ∃ v, (views lines)[index]? = some v := by
  have hLength : index < (views lines).length := by rwa [views, length_viewsFrom]
  exact ⟨_, List.getElem?_eq_getElem hLength⟩

theorem viewsFrom_append (above upper lower : List Line) :
    viewsFrom above (upper ++ lower) =
      (viewsFrom above upper).map (fun v => { v with below := v.below ++ lower }) ++
        viewsFrom (upper.reverse ++ above) lower := by
  induction upper generalizing above with
  | nil => rfl
  | cons line upper ih => simp [viewsFrom, ih]

theorem of_getElem?_viewsFrom {above lines : List Line} {index : Nat} {v : LineView}
    (h : (viewsFrom above lines)[index]? = some v) :
    lines[index]? = some v.line ∧ v.above = (lines.take index).reverse ++ above := by
  induction lines generalizing above index with
  | nil => simp [viewsFrom] at h
  | cons line below ih =>
    cases index with
    | zero =>
      obtain rfl : (⟨above, line, below⟩ : LineView) = v := by simpa [viewsFrom] using h
      exact ⟨rfl, rfl⟩
    | succ index =>
      rw [viewsFrom, List.getElem?_cons_succ] at h
      obtain ⟨hLine, hAbove⟩ := ih h
      refine ⟨hLine, ?_⟩
      rw [hAbove, List.take_succ_cons, List.reverse_cons, List.append_assoc]
      rfl

theorem reverse_above {lines : List Line} {index : Nat} {v : LineView}
    (h : (views lines)[index]? = some v) : v.above.reverse = lines.take index := by
  rw [(of_getElem?_viewsFrom h).2, List.append_nil, List.reverse_reverse]

end LineView

inductive Criterion where
  | pattern (p : Pattern)
  /-- A condition that no pattern expresses, with its description. -/
  | condition (description : String) (holds : LineView → Bool)

namespace Criterion

def holds : Criterion → LineView → Bool
  | pattern p, v => p.isMatch v.line
  | condition _ holds, v => holds v

def describe : Criterion → String
  | pattern p => String.ofList p.render
  | condition description _ => description

end Criterion

structure Rule where
  id : String
  cop : String
  severity : Severity
  criterion : Criterion
  message : String
  /-- A line that meets the criterion is passed over where this holds. -/
  exempts : LineView → Bool := fun _ => false
  /-- A rule looks at blank lines only or at the others only. -/
  onBlankLines : Bool := false

namespace Rule

/-- The rule meets a line that is not exempt from it. -/
def fires (r : Rule) (v : LineView) : Bool := r.criterion.holds v && !r.exempts v

/-- The rule is meant for lines like this one and fires. -/
def applies (r : Rule) (v : LineView) : Bool := r.onBlankLines == v.isBlank && r.fires v

def offense (r : Rule) (n : LineNumber) (line : Line) : Offense where
  rule := r.id
  message := r.message
  severity := r.severity
  cop := r.cop
  lineContent := String.ofList line
  location := .lineStart n

end Rule

structure RuleTable where
  name : String
  rules : List Rule

/-- The first rule that applies to a line, the tables and the rules of each in their order. -/
def firstMatch (tables : List RuleTable) (v : LineView) : Option Rule :=
  (tables.flatMap RuleTable.rules).find? (·.applies v)

theorem applies_of_firstMatch {tables : List RuleTable} {v : LineView} {r : Rule}
    (h : firstMatch tables v = some r) : r.applies v = true := by
  have holds := List.find?_some h
  exact holds

end TouchedLines
