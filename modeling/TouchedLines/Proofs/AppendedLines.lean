import Mathlib.Data.List.Find
import Mathlib.Tactic.FinCases
import TouchedLines.Proofs.ScanReport

/-! # Lines appended to a script

Every rule for scripts but one looks at a line and the lines above it. The rule on unused variables
looks for a use below, so that lines appended to a file can only end its offenses; the line is then
left to the rules that come after it.
-/

namespace TouchedLines

open Text

/-- The same line with more lines below. -/
def LineView.over (v : LineView) (lower : List Line) : LineView :=
  { v with below := v.below ++ lower }

theorem LineView.getElem?_views_append {upper : List Line} {index : Nat} {v : LineView}
    (h : (views upper)[index]? = some v) (lower : List Line) :
    (views (upper ++ lower))[index]? = some (v.over lower) := by
  have hLength : index < ((views upper).map fun v => v.over lower).length := by
    rw [List.length_map]
    exact (List.getElem?_eq_some_iff.mp h).1
  have hViews : views (upper ++ lower) =
      (views upper).map (fun v => v.over lower) ++ viewsFrom (upper.reverse ++ []) lower :=
    viewsFrom_append [] upper lower
  rw [hViews, List.getElem?_append_left hLength, List.getElem?_map, h]
  rfl

namespace Linter

/-- What the tables say of the line at an index. -/
def tableOffenseAt (l : Linter) (content : String) (index : Nat) : Option Offense :=
  (LineView.views (splitLines content.toList))[index]?.bind
    (l.tableOffense (UInt32.ofNat (index + 1)))

theorem tableOffenseAt_eq {l : Linter} {content : String} {index : Nat} {v : LineView}
    (h : (LineView.views (splitLines content.toList))[index]? = some v) :
    l.tableOffenseAt content index = l.tableOffense (UInt32.ofNat (index + 1)) v := by
  rw [tableOffenseAt, h]
  rfl

def trailingAt (content : String) (index : Nat) : Option Offense :=
  (splitLines content.toList)[index]?.bind
    (Layout.trailingWhitespace (UInt32.ofNat (index + 1)))

theorem offensesAt_eq_append (l : Linter) (content : String) (index : Nat) :
    l.offensesAt content index =
      (l.tableOffenseAt content index).toList ++ (trailingAt content index).toList := by
  cases hView : (LineView.views (splitLines content.toList))[index]? with
  | none =>
    have hLine : (splitLines content.toList)[index]? = none := by
      rw [List.getElem?_eq_none_iff] at hView ⊢
      rwa [length_views] at hView
    rw [offensesAt, tableOffenseAt, trailingAt, hView, hLine]
    rfl
  | some v =>
    rw [offensesAt_eq hView, tableOffenseAt_eq hView, trailingAt,
      (LineView.of_getElem?_viewsFrom hView).1]
    rfl

/-- A full scan lists what the tables and then the layout say of one line after another. -/
theorem lintFull_eq_flatMap (l : Linter) (content : String) :
    l.lintFull content =
      ((List.range (lineCount content)).flatMap fun index =>
        (l.tableOffenseAt content index).toList ++ (trailingAt content index).toList) ++
        (Layout.missingFinalNewline content.toList).toList := by
  rw [lintFull_eq]
  congr 1
  refine List.flatMap_congr ?_
  intro index _
  exact offensesAt_eq_append l content index

end Linter

namespace Script

/-- The rules in front of the one on unused variables. -/
def rulesBefore : List Rule :=
  syntaxTable.rules ++ qualityTable.rules.takeWhile (·.id != "unused_variables")

/-- The rules of its table behind the one on unused variables. -/
def rulesBehind : List Rule := (qualityTable.rules.dropWhile (·.id != "unused_variables")).tail

theorem rules_eq :
    linter.tables.flatMap RuleTable.rules = rulesBefore ++ unusedVariables :: rulesBehind := rfl

theorem applies_over {r : Rule} (hr : r ∈ rulesBefore ++ rulesBehind) (v : LineView)
    (lower : List Line) : r.applies (v.over lower) = r.applies v := by
  fin_cases hr <;> rfl

theorem isComment_over (v : LineView) (lower : List Line) :
    isComment (v.over lower) = isComment v := rfl

theorem onBlankLines_of_mem_rulesBehind {r : Rule} (hr : r ∈ rulesBehind) :
    r.onBlankLines = false := by
  fin_cases hr <;> rfl

/-- A variable that is used below stays used. -/
theorem unusedVariables_applies_of_over {v : LineView} {lower : List Line}
    (h : unusedVariables.applies (v.over lower) = true) : unusedVariables.applies v = true := by
  rw [Rule.applies_eq_true_iff] at h ⊢
  refine ⟨h.onBlankLines, h.holds, ?_⟩
  have hExempts : isUsedBelow (v.over lower) = false := h.exempts
  change isUsedBelow v = false
  rw [isUsedBelow, Option.any_eq_false_iff_get] at hExempts ⊢
  intro hName
  have hBelow : (v.below ++ lower).any _ = false := hExempts hName
  rw [List.any_append, Bool.or_eq_false_iff] at hBelow
  exact hBelow.1

/-- The rules before the one on unused variables have the same to say of a line over more lines. If
none applies, that one may cease to, and then the rules behind it have their say. -/
theorem firstMatch_over (v : LineView) (lower : List Line) :
    firstMatch linter.tables (v.over lower) = firstMatch linter.tables v ∨
      firstMatch linter.tables v = some unusedVariables ∧
        firstMatch linter.tables (v.over lower) =
          rulesBehind.find? (·.fires (v.over lower)) := by
  have hBefore : rulesBefore.find? (·.applies (v.over lower)) =
      rulesBefore.find? (·.applies v) := by
    refine List.find?_congr ?_
    intro r hr
    exact applies_over (List.mem_append_left _ hr) v lower
  have hBehind : rulesBehind.find? (·.applies (v.over lower)) =
      rulesBehind.find? (·.applies v) := by
    refine List.find?_congr ?_
    intro r hr
    exact applies_over (List.mem_append_right _ hr) v lower
  simp only [firstMatch, rules_eq, List.find?_append, hBefore]
  cases rulesBefore.find? (·.applies v) with
  | some r => exact Or.inl rfl
  | none =>
    simp only [Option.none_or, List.find?_cons]
    cases hOver : unusedVariables.applies (v.over lower) with
    | true =>
      rw [unusedVariables_applies_of_over hOver]
      exact Or.inl rfl
    | false =>
      cases hAlone : unusedVariables.applies v with
      | false => exact Or.inl hBehind
      | true =>
        refine Or.inr ⟨rfl, ?_⟩
        refine List.find?_congr ?_
        intro r hr
        have hBlank : r.onBlankLines = v.isBlank :=
          (onBlankLines_of_mem_rulesBehind hr).trans
            (Rule.applies_eq_true_iff.mp hAlone).onBlankLines
        rw [Rule.applies]
        change (r.onBlankLines == v.isBlank && _) = _
        rw [hBlank, beq_self_eq_true, Bool.true_and]

/-- What a full scan says of a line of `upper` once `lower` follows. -/
structure IsExtended (upper lower : String) (index : Nat) : Prop where
  trailing : Linter.trailingAt (upper ++ lower) index = Linter.trailingAt upper index
  kept : (∀ o, linter.tableOffenseAt upper index = some o → o.rule ≠ "unused_variables") →
    linter.tableOffenseAt (upper ++ lower) index = linter.tableOffenseAt upper index
  ended : ∀ o, linter.tableOffenseAt upper index = some o → o.rule = "unused_variables" →
    linter.tableOffenseAt (upper ++ lower) index = some o ∨
      ∃ v, (LineView.views (splitLines (upper ++ lower).toList))[index]? = some v ∧
        linter.tableOffenseAt (upper ++ lower) index =
          (rulesBehind.find? (·.fires v)).map (·.offense (UInt32.ofNat (index + 1)) v.line)

theorem tableOffense_over (n : LineNumber) (v : LineView) (lower : List Line) :
    linter.tableOffense n (v.over lower) = linter.tableOffense n v ∨
      (∃ o, linter.tableOffense n v = some o ∧ o.rule = "unused_variables") ∧
        linter.tableOffense n (v.over lower) =
          (rulesBehind.find? (·.fires (v.over lower))).map (·.offense n v.line) := by
  have hSkips : linter.skips (v.over lower) = linter.skips v := isComment_over v lower
  rw [Linter.tableOffense, Linter.tableOffense, hSkips]
  cases linter.skips v with
  | true => exact Or.inl rfl
  | false =>
    rcases firstMatch_over v lower with hSame | ⟨hAlone, hOver⟩
    · rw [hSame]
      exact Or.inl rfl
    · rw [hAlone, hOver]
      exact Or.inr ⟨⟨_, rfl, rfl⟩, rfl⟩

theorem isExtended {upper : String} (hEnd : ∀ c, upper.toList.getLast? = some c → c = '\n')
    (lower : String) {index : Nat} (hIndex : index < lineCount upper) :
    IsExtended upper lower index := by
  have hLines : splitLines (upper ++ lower).toList =
      splitLines upper.toList ++ splitLines lower.toList := by
    rw [String.toList_append, splitLines_append hEnd]
  obtain ⟨v, hView⟩ := LineView.exists_getElem?_views hIndex
  have hOver : (LineView.views (splitLines (upper ++ lower).toList))[index]? =
      some (v.over (splitLines lower.toList)) := by
    rw [hLines]
    exact LineView.getElem?_views_append hView (splitLines lower.toList)
  constructor
  · rw [Linter.trailingAt, Linter.trailingAt, hLines, List.getElem?_append_left hIndex]
  · intro hOther
    rw [Linter.tableOffenseAt_eq hView] at hOther ⊢
    rw [Linter.tableOffenseAt_eq hOver]
    rcases tableOffense_over _ v _ with hSame | ⟨⟨o, ho, hRule⟩, -⟩
    · exact hSame
    · exact absurd hRule (hOther o ho)
  · intro o ho hRule
    rw [Linter.tableOffenseAt_eq hView] at ho
    rw [Linter.tableOffenseAt_eq hOver]
    rcases tableOffense_over _ v _ with hSame | ⟨-, hBehind⟩
    · exact Or.inl (hSame.trans ho)
    · exact Or.inr ⟨v.over (splitLines lower.toList), hOver, hBehind⟩

/-- Lines appended to a script leave all that a full scan says of the lines above them as it is, but
for a variable that is used at last. -/
theorem lintFull_append {upper : String} (hEnd : ∀ c, upper.toList.getLast? = some c → c = '\n')
    (lower : String) :
    (∀ content, linter.lintFull content =
      ((List.range (lineCount content)).flatMap fun index =>
        (linter.tableOffenseAt content index).toList ++
          (Linter.trailingAt content index).toList) ++
        (Layout.missingFinalNewline content.toList).toList) ∧
    lineCount (upper ++ lower) = lineCount upper + lineCount lower ∧
    ∀ index, index < lineCount upper → IsExtended upper lower index := by
  refine ⟨linter.lintFull_eq_flatMap, ?_, ?_⟩
  · rw [lineCount, String.toList_append, splitLines_append hEnd, List.length_append]
    rfl
  · intro index hIndex
    exact isExtended hEnd lower hIndex

/-- The variable is used below, and the line is left to the rule on semicolons. -/
theorem lintFull_append_used :
    (∀ c, "var a = 1 \n".toList.getLast? = some c → c = '\n') ∧
      IsExtended "var a = 1 \n" "b(a)\n" 0 ∧
      (linter.tableOffenseAt "var a = 1 \n" 0).map (·.rule) = some "unused_variables" ∧
      (linter.tableOffenseAt ("var a = 1 \n" ++ "b(a)\n") 0).map (·.rule) =
        some "missing_semicolon" := by
  have hEnd : ∀ c, "var a = 1 \n".toList.getLast? = some c → c = '\n' := by
    rintro c hc
    exact (Option.some.inj hc).symm
  refine ⟨hEnd, (lintFull_append hEnd "b(a)\n").2.2 0 (by decide), ?_, ?_⟩
  · decide +kernel
  · decide +kernel

example :
    (linter.lintFull Sample.redeclaredVariable).map (fun o => (o.rule, o.line)) =
      [("missing_semicolon", 1), ("unused_variables", 2)] ∧
    (linter.lintFull (Sample.redeclaredVariable ++ "use(x);\n")).map (fun o => (o.rule, o.line)) =
      [("missing_semicolon", 1)] := by
  rw [Linter.lintFull, Linter.lintFull, String.toList_append]
  decide +kernel

end Script

end TouchedLines
