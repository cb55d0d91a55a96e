import Mathlib.Algebra.Group.Nat.Defs
import TouchedLines.Proofs.BlockComments
import TouchedLines.Proofs.Matching
import TouchedLines.Proofs.Scan
import TouchedLines.Sample

/-! # Lines that lack a semicolon

Braces and brackets are counted character by character, and a flag is set or cleared only on the way
through one depth. The flag is nevertheless set exactly while more marks were opened than closed,
so that a line lacks its semicolon by its own text and by two counts over the lines above it.
-/

namespace TouchedLines

open Text

namespace Script

/-- How many more opening than closing marks a text has. -/
def surplus (opening closing : Char) (text : List Char) : Int :=
  text.count opening - text.count closing

theorem surplus_append_singleton (opening closing : Char) (text : List Char) (c : Char) :
    surplus opening closing (text ++ [c]) = surplus opening closing text +
      (if c = opening then 1 else 0) - (if c = closing then 1 else 0) := by
  simp only [surplus, List.count_append, List.count_singleton, beq_iff_eq]
  split <;> split <;> push_cast <;> omega

/-- A surplus is made up of the marks in the text. -/
theorem natAbs_surplus_le {opening closing : Char} {p : Char → Bool} (hOpening : p opening = true)
    (hClosing : p closing = true) (text : List Char) :
    (surplus opening closing text).natAbs ≤ text.countP p := by
  induction text using List.reverseRecOn with
  | nil => simp [surplus]
  | append_singleton text c ih =>
    rw [surplus_append_singleton, List.countP_append, List.countP_singleton]
    by_cases hc : p c = true
    · rw [if_pos hc]
      split <;> split <;> omega
    · have hNotOpening : c ≠ opening := by
        rintro rfl
        exact hc hOpening
      have hNotClosing : c ≠ closing := by
        rintro rfl
        exact hc hClosing
      rw [if_neg hNotOpening, if_neg hNotClosing]
      omega

namespace Nesting

/-- The nesting is the one behind a text: its depth is the surplus, and it is inside a pair exactly
above depth 0. -/
structure IsBehind (opening closing : Char) (text : List Char) (n : Nesting) : Prop where
  depth_eq : n.depth = surplus opening closing text
  inside_iff : n.inside = true ↔ 0 < n.depth

theorem isBehind_nil (opening closing : Char) : IsBehind opening closing [] outside where
  depth_eq := rfl
  inside_iff := by decide

variable {opening closing : Char} {text : List Char} {n : Nesting}

theorem IsBehind.read (h : IsBehind opening closing text n) (hMarks : opening ≠ closing)
    (c : Char) : IsBehind opening closing (text ++ [c]) (read opening closing n c) := by
  obtain ⟨hDepth, hInside⟩ := h
  have hSurplus := surplus_append_singleton opening closing text c
  unfold Nesting.read
  split
  · rename_i hOpening
    rw [if_pos hOpening, if_neg (hOpening ▸ hMarks)] at hSurplus
    constructor
    · dsimp only
      omega
    · -- depth 1 is reached from 0 only, and elsewhere the flag stays as it was
      dsimp only
      split
      · simp only [true_iff]
        omega
      · rw [hInside]
        omega
  · rename_i hOpening
    rw [if_neg hOpening] at hSurplus
    split
    · rename_i hClosing
      rw [if_pos hClosing] at hSurplus
      constructor
      · dsimp only
        omega
      · dsimp only
        split
        · simp only [Bool.false_eq_true, false_iff]
          omega
        · rw [hInside]
          omega
    · rename_i hClosing
      rw [if_neg hClosing] at hSurplus
      refine ⟨?_, hInside⟩
      omega

theorem IsBehind.foldl (h : IsBehind opening closing text n) (hMarks : opening ≠ closing)
    (more : List Char) :
    IsBehind opening closing (text ++ more) (more.foldl (Nesting.read opening closing) n) := by
  induction more generalizing text n with
  | nil => rwa [List.append_nil]
  | cons c more ih =>
    rw [List.append_cons]
    exact ih (h.read hMarks c)

theorem depth_foldl (hMarks : opening ≠ closing) (text : List Char) :
    (text.foldl (Nesting.read opening closing) outside).depth = surplus opening closing text :=
  ((isBehind_nil opening closing).foldl hMarks text).depth_eq

theorem isBehind_ofAbove (hMarks : opening ≠ closing) (above : List Line) :
    IsBehind opening closing above.reverse.flatten (ofAbove opening closing above) := by
  induction above with
  | nil => exact isBehind_nil opening closing
  | cons line above ih =>
    rw [List.reverse_cons, List.flatten_append, List.flatten_singleton]
    exact ih.foldl hMarks line

end Nesting

theorem inLiteral_eq_true_iff {v : LineView} :
    inLiteral v = true ↔ 0 < surplus '\x7b' '\x7d' v.above.reverse.flatten ∨
      0 < surplus '[' ']' v.above.reverse.flatten := by
  have hBraces := Nesting.isBehind_ofAbove (show '\x7b' ≠ '\x7d' by decide) v.above
  have hBrackets := Nesting.isBehind_ofAbove (show '[' ≠ ']' by decide) v.above
  rw [inLiteral, Bool.or_eq_true, hBraces.inside_iff, hBraces.depth_eq, hBrackets.inside_iff,
    hBrackets.depth_eq]

/-- The word stands at the start of the text, and no letter, number or underscore goes on with
it. -/
def BeginsWithWord (text word : List Char) : Prop :=
  ∃ rest, text = word ++ rest ∧ ∀ c, rest.head? = some c → isAlphanumeric c = false ∧ c ≠ '_'

theorem startsWithWord_eq_true_iff {text word : List Char} :
    startsWithWord text word = true ↔ BeginsWithWord text word := by
  rw [startsWithWord]
  constructor
  · intro h
    split at h
    · cases h
    · rename_i rest hRest
      refine ⟨rest, eq_append_of_dropStart? hRest, ?_⟩
      intro c hc
      simpa [hc] using h
  · rintro ⟨rest, rfl, hRest⟩
    rw [dropStart?_append]
    cases rest with
    | nil => rfl
    | cons c rest => simpa using hRest c rfl

/-- What a trimmed line must be like to lack a semicolon below the text `above`. -/
structure LacksSemicolon (trimmed : Line) (above : List Char) : Prop where
  ending : ∀ c ∈ [';', ',', '\x7b', '\x7d', '[', '('], trimmed.getLast? ≠ some c
  bracket : trimmed ≠ [']']
  parenthesis : trimmed ≠ [')']
  keyword : ∀ keyword ∈ openKeywords, ¬BeginsWithWord trimmed keyword.toList
  braces_le : surplus '\x7b' '\x7d' above ≤ 0
  brackets_le : surplus '[' ']' above ≤ 0

theorem endsOpen_eq_false_iff {trimmed : Line} : endsOpen trimmed = false ↔
    ∀ c ∈ [';', ',', '\x7b', '\x7d', '[', '('], trimmed.getLast? ≠ some c := by
  rw [endsOpen]
  cases hLast : trimmed.getLast? with
  | none => simp
  | some last =>
    rw [Option.any_some, decide_eq_false_iff_not]
    constructor
    · rintro h c hc hEq
      obtain rfl := Option.some.inj hEq
      exact h hc
    · intro h hMem
      exact h last hMem rfl

theorem startsOpen_eq_false_iff {trimmed : Line} : startsOpen trimmed = false ↔
    ∀ keyword ∈ openKeywords, ¬BeginsWithWord trimmed keyword.toList := by
  rw [startsOpen, List.any_eq_false]
  simp only [startsWithWord_eq_true_iff]

theorem needsNoSemicolon_eq_false_iff {v : LineView} (hBlank : v.isBlank = false) :
    needsNoSemicolon v = false ↔ LacksSemicolon (trim v.line) v.above.reverse.flatten := by
  have hLiteral : inLiteral v = false ↔ surplus '\x7b' '\x7d' v.above.reverse.flatten ≤ 0 ∧
      surplus '[' ']' v.above.reverse.flatten ≤ 0 := by
    rw [← Bool.not_eq_true, inLiteral_eq_true_iff, not_or, not_lt, not_lt]
  have hTrim : (trim v.line).isEmpty = false := hBlank
  simp only [needsNoSemicolon, hTrim, Bool.false_or, Bool.or_eq_false_iff, beq_eq_false_iff_ne,
    endsOpen_eq_false_iff, startsOpen_eq_false_iff, hLiteral]
  constructor
  · rintro ⟨⟨⟨⟨hEnding, hBracket⟩, hParenthesis⟩, hKeyword⟩, hBraces, hBrackets⟩
    exact ⟨hEnding, hBracket, hParenthesis, hKeyword, hBraces, hBrackets⟩
  · rintro ⟨hEnding, hBracket, hParenthesis, hKeyword, hBraces, hBrackets⟩
    exact ⟨⟨⟨⟨hEnding, hBracket⟩, hParenthesis⟩, hKeyword⟩, hBraces, hBrackets⟩

/-- The pattern of the rule meets every line whose last character but blanks is none of those that
may end it. -/
theorem missingSemicolon_holds {v : LineView} {above : List Char} (hBlank : v.isBlank = false)
    (h : LacksSemicolon (trim v.line) above) : missingSemicolon.criterion.holds v = true := by
  obtain ⟨front, back, hLine, hBack⟩ := exists_append_trim v.line
  obtain ⟨inner, last, hTrim⟩ :=
    (List.eq_nil_or_concat' (trim v.line)).resolve_left (List.isEmpty_eq_false_iff.mp hBlank)
  have hLast : (trim v.line).getLast? = some last := by
    rw [hTrim]
    exact List.getLast?_concat
  have hClass :
      (CharClass.noneOf [.char ';', .char '\x7b', .char '\x7d']).contains last = true := by
    have hEnding : ∀ c ∈ [';', ',', '\x7b', '\x7d', '[', '('], last ≠ c := by
      rintro c hc rfl
      exact h.ending last hc hLast
    have hSemicolon := hEnding ';' (by decide)
    have hOpen := hEnding '\x7b' (by decide)
    have hClose := hEnding '\x7d' (by decide)
    simp [CharClass.contains, ClassItem.contains, hSemicolon, hOpen, hClose]
  refine Pattern.isMatch_iff.mpr ⟨front ++ inner, last :: back, [], [], ?_, ?_⟩
  · rw [hLine, hTrim]
    simp
  · refine ⟨[last], back, [], [], rfl, rfl, ⟨⟨last, rfl, hClass⟩, rfl⟩, ?_⟩
    exact ⟨back, [], [], [], (List.append_nil back).symm, rfl, ⟨hBack, rfl⟩, rfl, rfl, rfl⟩

theorem missingSemicolon_fires_iff {v : LineView} (hBlank : v.isBlank = false) :
    missingSemicolon.fires v = true ↔ LacksSemicolon (trim v.line) v.above.reverse.flatten := by
  rw [Rule.fires, Bool.and_eq_true, Bool.not_eq_true']
  have hExempts : missingSemicolon.exempts v = false ↔
      LacksSemicolon (trim v.line) v.above.reverse.flatten := needsNoSemicolon_eq_false_iff hBlank
  rw [hExempts]
  constructor
  · rintro ⟨-, hLacks⟩
    exact hLacks
  · intro hLacks
    exact ⟨missingSemicolon_holds hBlank hLacks, hLacks⟩

/-- Whether a line that is not blank lacks its semicolon is decided by its own text and by the marks
that the lines above leave open. With fewer than 2^31 braces and brackets above, no count on the
way leaves the range of 32 bits. -/
theorem missingSemicolon_fires_iff_lacksSemicolon {lines : List Line} {index : Nat} {v : LineView}
    (hView : (LineView.views lines)[index]? = some v) (hBlank : v.isBlank = false) :
    (missingSemicolon.fires v = true ↔
      LacksSemicolon (trim v.line) (lines.take index).flatten) ∧
    (∀ n o, linter.tableOffense n v = some o → o.rule = "missing_semicolon" →
      surplus '\x7b' '\x7d' (lines.take index).flatten ≤ 0 ∧
        surplus '[' ']' (lines.take index).flatten ≤ 0) ∧
    ((lines.take index).flatten.countP (· ∈ ['\x7b', '\x7d', '[', ']']) < 2 ^ 31 →
      ∀ front, front <+: (lines.take index).flatten →
        (front.foldl (Nesting.read '\x7b' '\x7d') .outside).depth.natAbs < 2 ^ 31 ∧
          (front.foldl (Nesting.read '[' ']') .outside).depth.natAbs < 2 ^ 31) := by
  have hAbove : v.above.reverse = lines.take index := LineView.reverse_above hView
  have hFires := missingSemicolon_fires_iff hBlank
  rw [hAbove] at hFires
  refine ⟨hFires, ?_, ?_⟩
  · rintro n o hOffense hRule
    have hLinter : linter ∈ Linter.builtin := by simp [Linter.builtin]
    have hTable : missingSemicolon ∈ linter.tables.flatMap RuleTable.rules :=
      List.mem_flatMap.mpr ⟨qualityTable, by simp [linter], by simp [qualityTable]⟩
    have hApplies := applies_of_firstMatch
      (Linter.firstMatch_of_rule_eq hLinter hOffense hTable hRule)
    rw [Rule.applies, Bool.and_eq_true] at hApplies
    have hLacks := hFires.mp hApplies.2
    exact ⟨hLacks.braces_le, hLacks.brackets_le⟩
  · rintro hCount front ⟨others, hText⟩
    rw [← hText, List.countP_append] at hCount
    rw [Nesting.depth_foldl (by decide), Nesting.depth_foldl (by decide)]
    constructor
    · refine (natAbs_surplus_le ?_ ?_ front).trans_lt (Nat.lt_of_add_right_lt hCount) <;> decide
    · refine (natAbs_surplus_le ?_ ?_ front).trans_lt (Nat.lt_of_add_right_lt hCount) <;> decide

/-- The line above closes more than was opened, so that the counts are negative. -/
theorem missingSemicolon_fires_iff_lacksSemicolon_stray :
    let lines := ["\x7d ]".toList, "iffy() ".toList]
    let v : LineView := ⟨["\x7d ]".toList], "iffy() ".toList, []⟩
    (LineView.views lines)[1]? = some v ∧ v.isBlank = false ∧ missingSemicolon.fires v = true ∧
      LacksSemicolon (trim v.line) (lines.take 1).flatten := by
  intro lines v
  have hView : (LineView.views lines)[1]? = some v := by decide
  have hBlank : v.isBlank = false := by decide
  have hFires : missingSemicolon.fires v = true := by decide
  have hLacks := missingSemicolon_fires_iff_lacksSemicolon hView hBlank
  exact ⟨hView, hBlank, hFires, hLacks.1.mp hFires⟩

example : linter.lintFull Sample.cleanScript = [] := by
  rw [Linter.lintFull, Sample.cleanScript, String.toList_join]
  decide +kernel

end Script

end TouchedLines
