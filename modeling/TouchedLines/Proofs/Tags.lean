import TouchedLines.Proofs.AppendedLines
import TouchedLines.Proofs.Matching
import TouchedLines.Proofs.Trimming

/-! # Tags that are written too tightly

The rules for templates read off the text of a line. Each looks for an opening mark with something
behind it that should stand further off, and takes the mark for a tag only if the next percent sign
closes it.
-/

namespace TouchedLines.Template

open Text Pattern

/-- What may be wrong behind the opening mark of a tag. -/
inductive TagFault where
  | oldComment
  | tightCode
  | tightOutput
  | tightComment
  deriving Repr, DecidableEq

namespace TagFault

/-- The name under which the fault is reported. -/
def id : TagFault → String
  | oldComment => "bad_comment_format"
  | tightCode => "bad_spacing"
  | tightOutput => "bad_output_spacing"
  | tightComment => "bad_comment_spacing"

def rule : TagFault → Rule
  | oldComment => badCommentFormat
  | tightCode => badSpacing
  | tightOutput => badOutputSpacing
  | tightComment => badCommentSpacing

def inOrder : List TagFault := [oldComment, tightCode, tightOutput, tightComment]

/-- The text behind an opening mark begins with the fault, and `inside` is what follows. -/
def Begins : TagFault → List Char → List Char → Prop
  | oldComment, text, inside =>
    ∃ blanks, blanks ≠ [] ∧ (∀ c ∈ blanks, isBlank c = true) ∧ text = blanks ++ '#' :: inside
  | tightCode, text, inside =>
    ∃ c, isBlank c = false ∧ c ≠ '#' ∧ c ≠ '=' ∧ text = c :: inside
  | tightOutput, text, inside => ∃ c, isBlank c = false ∧ text = '=' :: c :: inside
  | tightComment, text, inside => ∃ c, isBlank c = false ∧ text = '#' :: c :: inside

end TagFault

/-- The text holds a percent sign, and the first one is directly followed by `>`. -/
def ClosesTag (text : List Char) : Prop :=
  ∃ inside behind, text = inside ++ '%' :: '>' :: behind ∧ '%' ∉ inside

namespace TagFault

/-- Behind some opening mark of the line stands the fault, in a tag that is closed. -/
def OccursIn (f : TagFault) (line : Line) : Prop :=
  ∃ before text inside, line = before ++ '<' :: '%' :: text ∧ f.Begins text inside ∧
    ClosesTag inside

/-- The fault occurs in the line and none that is reported rather than it does. -/
def OccursFirstIn (f : TagFault) (line : Line) : Prop :=
  f.OccursIn line ∧ ∃ earlier later, inOrder = earlier ++ f :: later ∧
    ∀ e ∈ earlier, ¬e.OccursIn line

end TagFault

theorem matchesAt_tagRest {before rest : List Char} :
    tagRest.MatchesAt before rest ↔ ClosesTag rest := by
  rw [tagRest, matchesAt_many_append]
  constructor
  · rintro ⟨inside, right, rfl, hInside, hMark⟩
    obtain ⟨behind, rfl⟩ := matchesAt_text.mp hMark
    refine ⟨inside, behind, rfl, ?_⟩
    intro hPercent
    exact absurd (hInside _ hPercent) (by decide)
  · rintro ⟨inside, behind, rfl, hInside⟩
    refine ⟨inside, '%' :: '>' :: behind, rfl, ?_, matchesAt_text.mpr ⟨behind, rfl⟩⟩
    intro c hc
    have hDiffer : c ≠ '%' := fun h => hInside (h ▸ hc)
    simp [CharClass.contains, ClassItem.contains, hDiffer]

theorem holds_badCommentFormat {v : LineView} :
    badCommentFormat.criterion.holds v = true ↔ TagFault.oldComment.OccursIn v.line := by
  simp only [badCommentFormat, Criterion.holds, isMatch_iff_matchesAt, matchesAt_text_append,
    matchesAt_atLeastOne_append, matchesAt_tagRest]
  constructor
  · rintro ⟨before, _, hLine, _, rfl, blanks, _, rfl, hNil, hBlanks, inside, rfl, hCloses⟩
    exact ⟨before, blanks ++ '#' :: inside, inside, hLine, ⟨blanks, hNil, hBlanks, rfl⟩, hCloses⟩
  · rintro ⟨before, _, inside, hLine, ⟨blanks, hNil, hBlanks, rfl⟩, hCloses⟩
    exact ⟨before, _, hLine, _, rfl, blanks, _, rfl, hNil, hBlanks, inside, rfl, hCloses⟩

theorem holds_badSpacing {v : LineView} :
    badSpacing.criterion.holds v = true ↔ TagFault.tightCode.OccursIn v.line := by
  have hClass : ∀ c, CharClass.contains (.noneOf [.blank, .char '#', .char '=']) c = true ↔
      isBlank c = false ∧ c ≠ '#' ∧ c ≠ '=' := by
    intro c
    simp [CharClass.contains, ClassItem.contains]
  simp only [badSpacing, Criterion.holds, isMatch_iff_matchesAt, matchesAt_text_append,
    matchesAt_one_append, matchesAt_tagRest, hClass]
  constructor
  · rintro ⟨before, _, hLine, _, rfl, c, inside, rfl, ⟨hBlank, hHash, hEquals⟩, hCloses⟩
    exact ⟨before, c :: inside, inside, hLine, ⟨c, hBlank, hHash, hEquals, rfl⟩, hCloses⟩
  · rintro ⟨before, _, inside, hLine, ⟨c, hBlank, hHash, hEquals, rfl⟩, hCloses⟩
    exact ⟨before, _, hLine, _, rfl, c, inside, rfl, ⟨hBlank, hHash, hEquals⟩, hCloses⟩

theorem isMatch_text_nonBlank {mark : String} {line : Line} :
    (text mark ++ (one .nonBlank ++ tagRest)).isMatch line = true ↔ ∃ before c inside,
      line = before ++ (mark.toList ++ c :: inside) ∧ isBlank c = false ∧ ClosesTag inside := by
  have hClass : ∀ c, CharClass.contains .nonBlank c = true ↔ isBlank c = false := by
    intro c
    simp [CharClass.contains]
  simp only [isMatch_iff_matchesAt, matchesAt_text_append, matchesAt_one_append, matchesAt_tagRest,
    hClass]
  constructor
  · rintro ⟨before, _, hLine, _, rfl, c, inside, rfl, hBlank, hCloses⟩
    exact ⟨before, c, inside, hLine, hBlank, hCloses⟩
  · rintro ⟨before, c, inside, hLine, hBlank, hCloses⟩
    exact ⟨before, _, hLine, _, rfl, c, inside, rfl, hBlank, hCloses⟩

theorem holds_badOutputSpacing {v : LineView} :
    badOutputSpacing.criterion.holds v = true ↔ TagFault.tightOutput.OccursIn v.line := by
  refine isMatch_text_nonBlank.trans ?_
  constructor
  · rintro ⟨before, c, inside, hLine, hBlank, hCloses⟩
    exact ⟨before, '=' :: c :: inside, inside, hLine, ⟨c, hBlank, rfl⟩, hCloses⟩
  · rintro ⟨before, _, inside, hLine, ⟨c, hBlank, rfl⟩, hCloses⟩
    exact ⟨before, c, inside, hLine, hBlank, hCloses⟩

theorem holds_badCommentSpacing {v : LineView} :
    badCommentSpacing.criterion.holds v = true ↔ TagFault.tightComment.OccursIn v.line := by
  refine isMatch_text_nonBlank.trans ?_
  constructor
  · rintro ⟨before, c, inside, hLine, hBlank, hCloses⟩
    exact ⟨before, '#' :: c :: inside, inside, hLine, ⟨c, hBlank, rfl⟩, hCloses⟩
  · rintro ⟨before, _, inside, hLine, ⟨c, hBlank, rfl⟩, hCloses⟩
    exact ⟨before, c, inside, hLine, hBlank, hCloses⟩

namespace TagFault

theorem rule_id (f : TagFault) : f.rule.id = f.id := by
  cases f <;> rfl

theorem holds_rule_iff {f : TagFault} {v : LineView} :
    f.rule.criterion.holds v = true ↔ f.OccursIn v.line := by
  cases f with
  | oldComment => exact holds_badCommentFormat
  | tightCode => exact holds_badSpacing
  | tightOutput => exact holds_badOutputSpacing
  | tightComment => exact holds_badCommentSpacing

theorem OccursIn.isBlankLine_eq_false {f : TagFault} {line : Line} (h : f.OccursIn line) :
    isBlankLine line = false := by
  obtain ⟨before, text, _, rfl, -, -⟩ := h
  have hMark : '<' ∈ before ++ '<' :: '%' :: text := by simp
  exact isBlankLine_eq_false_of_mem hMark (by decide)

theorem applies_rule_iff {f : TagFault} {v : LineView} :
    f.rule.applies v = true ↔ f.OccursIn v.line := by
  have hBlank : f.rule.onBlankLines = false := by cases f <;> rfl
  have hExempts : f.rule.exempts v = false := by cases f <;> rfl
  rw [Rule.applies_eq_true_iff]
  constructor
  · intro hMeets
    exact holds_rule_iff.mp hMeets.holds
  · intro hOccurs
    exact ⟨hBlank.trans hOccurs.isBlankLine_eq_false.symm, holds_rule_iff.mpr hOccurs, hExempts⟩

end TagFault

theorem rules_eq_map : linter.tables.flatMap RuleTable.rules =
    TagFault.inOrder.map TagFault.rule := rfl

theorem firstMatch_eq_map (v : LineView) :
    firstMatch linter.tables v =
      (TagFault.inOrder.find? fun f => f.rule.applies v).map TagFault.rule := by
  rw [firstMatch, rules_eq_map, List.find?_map]
  rfl

theorem firstMatch_eq_some_iff_occursFirstIn {v : LineView} {r : Rule} :
    firstMatch linter.tables v = some r ↔ ∃ f : TagFault, f.OccursFirstIn v.line ∧ r = f.rule := by
  have hFirst : ∀ f, (TagFault.inOrder.find? fun f => f.rule.applies v) = some f ↔
      f.OccursFirstIn v.line := by
    intro f
    rw [List.find?_eq_some_iff_append, TagFault.applies_rule_iff, TagFault.OccursFirstIn]
    simp only [Bool.not_eq_true', ← Bool.not_eq_true, TagFault.applies_rule_iff]
  rw [firstMatch_eq_map, Option.map_eq_some_iff]
  simp only [hFirst, eq_comm]

theorem firstMatch_eq_none_iff_not_occursIn {v : LineView} :
    firstMatch linter.tables v = none ↔ ∀ f : TagFault, ¬f.OccursIn v.line := by
  have hAll : ∀ f, f ∈ TagFault.inOrder := by
    intro f
    cases f <;> simp [TagFault.inOrder]
  rw [firstMatch_eq_map, Option.map_eq_none_iff, List.find?_eq_none]
  constructor
  · intro h f hOccurs
    exact h f (hAll f) (TagFault.applies_rule_iff.mpr hOccurs)
  · intro h f _ hApplies
    exact h f (TagFault.applies_rule_iff.mp hApplies)

/-- The tables report of a line the first kind of fault, in their order, that occurs in one of its
tags, and nothing exactly where none occurs. -/
theorem tableOffenseAt_follows_tags (content : String) :
    (linter.lintFull content =
      ((List.range (lineCount content)).flatMap fun index =>
        (linter.tableOffenseAt content index).toList ++
          (Linter.trailingAt content index).toList) ++
        (Layout.missingFinalNewline content.toList).toList) ∧
    ∀ index line, (splitLines content.toList)[index]? = some line →
      (∀ o, linter.tableOffenseAt content index = some o ↔ ∃ f : TagFault, f.OccursFirstIn line ∧
        o.rule = f.id ∧ o = f.rule.offense (UInt32.ofNat (index + 1)) line) ∧
      (linter.tableOffenseAt content index = none ↔ ∀ f : TagFault, ¬f.OccursIn line) := by
  refine ⟨linter.lintFull_eq_flatMap content, ?_⟩
  intro index line hLine
  rw [← LineView.map_line_getElem?_views, Option.map_eq_some_iff] at hLine
  obtain ⟨v, hView, rfl⟩ := hLine
  have hTable : linter.tableOffenseAt content index =
      (firstMatch linter.tables v).map (·.offense (UInt32.ofNat (index + 1)) v.line) :=
    Linter.tableOffenseAt_eq hView
  constructor
  · intro o
    rw [hTable, Option.map_eq_some_iff]
    constructor
    · rintro ⟨r, hFirst, rfl⟩
      obtain ⟨f, hOccurs, rfl⟩ := firstMatch_eq_some_iff_occursFirstIn.mp hFirst
      exact ⟨f, hOccurs, f.rule_id, rfl⟩
    · rintro ⟨f, hOccurs, -, rfl⟩
      exact ⟨f.rule, firstMatch_eq_some_iff_occursFirstIn.mpr ⟨f, hOccurs, rfl⟩, rfl⟩
  · rw [hTable, Option.map_eq_none_iff]
    exact firstMatch_eq_none_iff_not_occursIn

/-- The comment is reported although the tag before it is too tight; the last tag stays open. -/
theorem tableOffenseAt_follows_tags_overlapping :
    (splitLines "<%a<% # b %><%=%".toList)[0]? = some "<%a<% # b %><%=%".toList ∧
      linter.tableOffenseAt "<%a<% # b %><%=%" 0 =
        some (badCommentFormat.offense 1 "<%a<% # b %><%=%".toList) ∧
      TagFault.oldComment.OccursFirstIn "<%a<% # b %><%=%".toList := by
  have hLine : (splitLines "<%a<% # b %><%=%".toList)[0]? = some "<%a<% # b %><%=%".toList := by
    decide
  have hTable : linter.tableOffenseAt "<%a<% # b %><%=%" 0 =
      some (badCommentFormat.offense 1 "<%a<% # b %><%=%".toList) := by decide +kernel
  obtain ⟨hReported, -⟩ := (tableOffenseAt_follows_tags "<%a<% # b %><%=%").2 0 _ hLine
  obtain ⟨f, hFirst, hRule, -⟩ := (hReported _).mp hTable
  refine ⟨hLine, hTable, ?_⟩
  cases f with
  | oldComment => exact hFirst
  | tightCode => exact absurd hRule (by decide)
  | tightOutput => exact absurd hRule (by decide)
  | tightComment => exact absurd hRule (by decide)

example : (linter.lintFull Sample.offendingTemplate).map (fun o => (o.rule, o.line)) =
    [("bad_comment_format", 1), ("bad_spacing", 2), ("bad_output_spacing", 3),
      ("bad_comment_spacing", 4)] := by
  rw [Linter.lintFull, Sample.offendingTemplate, String.toList_join]
  decide +kernel

end TouchedLines.Template
