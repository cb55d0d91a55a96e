import Mathlib.Data.List.Infix
import TouchedLines.Proofs.Matching
import TouchedLines.Script.Tables

/-! # Whole words and the search for them

The search looks at occurrences that follow each other without overlap, so that one which is not
whole hides those that begin inside it. A hidden occurrence can be whole only if a dollar sign
stands before it, and then the word starts again inside itself behind that sign. For every other
name the search finds a whole word exactly where there is one.
-/

namespace TouchedLines

open Text

namespace Text

/-- The word between `before` and `after` has no ASCII word character beside it. -/
def IsWholeBetween (before after : List Char) : Prop :=
  isWordEdge before.getLast? = true ∧ isWordEdge after.head? = true

def OccursWhole (word line : List Char) : Prop :=
  ∃ before after, line = before ++ (word ++ after) ∧ IsWholeBetween before after

/-- The word starts again inside itself, behind a character that leaves a word whole. -/
def StartsAgain (word : List Char) : Prop :=
  ∃ start rest, word = start ++ rest ∧ start ≠ [] ∧ rest ≠ [] ∧ rest <+: word ∧
    isWordEdge start.getLast? = true

/-- An occurrence that is not whole reaches over the place behind `before`. -/
def IsHidden (word line before : List Char) : Prop :=
  ∃ earlier start after, before = earlier ++ start ∧ start ≠ [] ∧ start.length < word.length ∧
    line = earlier ++ (word ++ after) ∧ ¬IsWholeBetween earlier after

theorem getLast?_append_of_ne_nil {front back : List Char} (h : back ≠ []) :
    (front ++ back).getLast? = back.getLast? := by
  obtain ⟨last, hLast⟩ := Option.ne_none_iff_exists'.mp (mt List.getLast?_eq_none_iff.mp h)
  rw [List.getLast?_append, hLast]
  rfl

/-- A hidden occurrence begins inside the other one, which starts anew there. -/
theorem IsHidden.startsAgain {word before after : List Char}
    (hHidden : IsHidden word (before ++ (word ++ after)) before)
    (hWhole : IsWholeBetween before after) : StartsAgain word := by
  obtain ⟨earlier, start, behind, rfl, hStart, hShort, hLine, -⟩ := hHidden
  rw [List.append_assoc, List.append_cancel_left_eq] at hLine
  have hPrefix : start <+: word :=
    List.prefix_of_prefix_length_le ⟨word ++ after, hLine⟩ ⟨behind, rfl⟩ hShort.le
  obtain ⟨rest, rfl⟩ := hPrefix
  have hRest : rest <+: start ++ rest := by
    rw [List.append_assoc start rest behind, List.append_cancel_left_eq] at hLine
    refine List.prefix_of_prefix_length_le ⟨behind, hLine.symm⟩ ⟨after, rfl⟩ ?_
    simp
  refine ⟨start, rest, rfl, hStart, ?_, hRest, ?_⟩
  · rintro rfl
    simp at hShort
  · rw [← getLast?_append_of_ne_nil hStart]
    exact hWhole.1

/-! ## Steps of the search -/

theorem containsWordFrom_skip (word front : List Char) (passed text : List Char) :
    containsWordFrom word front.getLast? passed.length (passed ++ text) =
      containsWordFrom word (front ++ passed).getLast? 0 text := by
  induction passed generalizing front with
  | nil => rw [List.append_nil]; rfl
  | cons c passed ih =>
    have hNext : some c = (front ++ [c]).getLast? := by simp
    rw [List.cons_append, List.length_cons, containsWordFrom, hNext, ih, List.append_assoc]
    rfl

theorem containsWordFrom_cons {word : List Char} {c : Char} {text : List Char}
    (h : ¬word <+: c :: text) (front : List Char) :
    containsWordFrom word front.getLast? 0 (c :: text) =
      containsWordFrom word (front ++ [c]).getLast? 0 text := by
  have hNext : some c = (front ++ [c]).getLast? := by simp
  rw [containsWordFrom, dropStart?_eq_none_iff.mpr h, hNext]

theorem containsWordFrom_append {word : List Char} (h : word ≠ []) (front text : List Char) :
    containsWordFrom word front.getLast? 0 (word ++ text) =
      ((isWordEdge front.getLast? && isWordEdge text.head?) ||
        containsWordFrom word (front ++ word).getLast? 0 text) := by
  obtain ⟨c, others, rfl⟩ := List.exists_cons_of_ne_nil h
  have hDrop := dropStart?_append (c :: others) text
  rw [List.cons_append] at hDrop ⊢
  have hNext : some c = (front ++ [c]).getLast? := by simp
  rw [containsWordFrom, hDrop, hNext, List.length_cons, Nat.add_sub_cancel, containsWordFrom_skip,
    List.append_assoc]
  rfl

/-- What the search finds in `text` behind `front` is a whole word of both together. -/
theorem occursWhole_of_containsWordFrom {word : List Char} (hWord : word ≠ [])
    {front text : List Char} (h : containsWordFrom word front.getLast? 0 text = true) :
    OccursWhole word (front ++ text) := by
  induction hLength : text.length using Nat.strong_induction_on generalizing front text with
  | _ length ih =>
    by_cases hHere : word <+: text
    · obtain ⟨rest, rfl⟩ := hHere
      rw [containsWordFrom_append hWord, Bool.or_eq_true, Bool.and_eq_true] at h
      obtain hWhole | hRest := h
      · exact ⟨front, rest, rfl, hWhole⟩
      · have hShorter : rest.length < length := by
          have := List.length_pos_iff.mpr hWord
          rw [← hLength, List.length_append]
          omega
        simpa only [List.append_assoc] using ih _ hShorter hRest rfl
    · cases text with
      | nil => cases h
      | cons c text =>
        rw [containsWordFrom_cons hHere] at h
        have hShorter : text.length < length := by
          rw [← hLength, List.length_cons]
          omega
        simpa only [List.append_assoc, List.singleton_append] using ih _ hShorter h rfl

/-- A whole word that the search passes over is hidden. -/
theorem isHidden_of_containsWordFrom {word : List Char} (hWord : word ≠ [])
    {front text before after : List Char} (hLine : front ++ text = before ++ (word ++ after))
    (hFront : front.length ≤ before.length) (hWhole : IsWholeBetween before after)
    (h : containsWordFrom word front.getLast? 0 text = false) :
    IsHidden word (front ++ text) before := by
  induction hLength : text.length using Nat.strong_induction_on generalizing front text with
  | _ length ih =>
    obtain ⟨start, rfl⟩ : front <+: before :=
      List.prefix_of_prefix_length_le ⟨text, hLine⟩ ⟨word ++ after, rfl⟩ hFront
    rw [List.append_assoc, List.append_cancel_left_eq] at hLine
    by_cases hHere : word <+: text
    · obtain ⟨rest, rfl⟩ := hHere
      rw [containsWordFrom_append hWord, Bool.or_eq_false_iff] at h
      obtain ⟨hPartial, hRest⟩ := h
      have hNot : ¬IsWholeBetween front rest := by
        rw [IsWholeBetween, ← Bool.and_eq_true, hPartial]
        exact Bool.false_ne_true
      have hPos := List.length_pos_iff.mpr hWord
      -- the occurrence begins here, inside the one found here, or behind it
      obtain hNil | hStart := eq_or_ne start []
      · subst hNil
        rw [List.nil_append, List.append_cancel_left_eq] at hLine
        rw [List.append_nil, ← hLine] at hWhole
        exact absurd hWhole hNot
      · by_cases hShort : start.length < word.length
        · exact ⟨front, start, rest, rfl, hStart, hShort, rfl, hNot⟩
        · have hShorter : rest.length < length := by
            rw [← hLength, List.length_append]
            omega
          have hBoth : (front ++ word) ++ rest = front ++ start ++ (word ++ after) := by
            rw [List.append_assoc, hLine, List.append_assoc]
          have hBehind : (front ++ word).length ≤ (front ++ start).length := by
            rw [List.length_append, List.length_append]
            omega
          rw [← List.append_assoc]
          exact ih _ hShorter hBoth hBehind hRest rfl
    · cases text with
      | nil =>
        have hNil := congrArg List.length hLine
        have hPos := List.length_pos_iff.mpr hWord
        simp at hNil
        omega
      | cons c text =>
        rw [containsWordFrom_cons hHere] at h
        have hStart : start ≠ [] := by
          rintro rfl
          exact hHere ⟨after, hLine.symm⟩
        have hPos := List.length_pos_iff.mpr hStart
        have hShorter : text.length < length := by
          rw [← hLength, List.length_cons]
          omega
        have hBoth : (front ++ [c]) ++ text = front ++ start ++ (word ++ after) := by
          rw [List.append_assoc, List.singleton_append, hLine, List.append_assoc]
        have hBehind : (front ++ [c]).length ≤ (front ++ start).length := by
          rw [List.length_append, List.length_append, List.length_singleton]
          omega
        rw [List.append_cons]
        exact ih _ hShorter hBoth hBehind h rfl

theorem containsWordFrom_of_length_lt {word text : List Char} (h : text.length < word.length)
    (before : Option Char) : containsWordFrom word before 0 text = false := by
  induction text generalizing before with
  | nil => rfl
  | cons c text ih =>
    have hNone : dropStart? word (c :: text) = none :=
      dropStart?_eq_none_iff.mpr fun hPrefix => Nat.not_lt.mpr hPrefix.length_le h
    rw [containsWordFrom, hNone]
    exact ih (by rw [List.length_cons] at h; omega) _

theorem containsWord_eq {word : List Char} (h : word ≠ []) (line : List Char) :
    containsWord line word = containsWordFrom word ([] : List Char).getLast? 0 line := by
  rw [containsWord, List.isEmpty_eq_false_iff.mpr h]
  rfl

theorem occursWhole_of_containsWord {word line : List Char} (h : containsWord line word = true) :
    OccursWhole word line := by
  rw [containsWord, Bool.and_eq_true, Bool.not_eq_true', List.isEmpty_eq_false_iff] at h
  have hFound : containsWordFrom word ([] : List Char).getLast? 0 line = true := h.2
  exact occursWhole_of_containsWordFrom h.1 hFound

theorem isHidden_of_containsWord {word line before after : List Char} (hWord : word ≠ [])
    (h : containsWord line word = false) (hLine : line = before ++ (word ++ after))
    (hWhole : IsWholeBetween before after) : IsHidden word line before := by
  rw [containsWord_eq hWord] at h
  exact @isHidden_of_containsWordFrom word hWord [] line before after hLine (Nat.zero_le _) hWhole h

/-- A word that starts again inside itself is missed where a word character stands before the first
of two such occurrences. -/
theorem exists_occursWhole_of_startsAgain {word : List Char} {c : Char} (hAgain : StartsAgain word)
    (hc : isAsciiWord c = true) (hFirst : word.head? ≠ some c) :
    ∃ line, OccursWhole word line ∧ containsWord line word = false := by
  obtain ⟨start, rest, hWord, hStart, hRest, ⟨tail, hTail⟩, hEdge⟩ := hAgain
  have hNil : word ≠ [] := by
    rw [hWord]
    exact List.append_ne_nil_of_left_ne_nil hStart rest
  have hOverlap : start ++ word = word ++ tail := by
    rw [← hTail, ← List.append_assoc, ← hWord, hTail]
  have hTailLength : tail.length < word.length := by
    have hRestPos := List.length_pos_iff.mpr hRest
    have hTailLength := congrArg List.length hTail
    rw [List.length_append] at hTailLength
    omega
  refine ⟨c :: (start ++ word), ⟨c :: start, [], by simp, ?_, rfl⟩, ?_⟩
  · rwa [← List.singleton_append, getLast?_append_of_ne_nil hStart]
  · have hNotHere : ¬word <+: c :: (start ++ word) := by
      rintro ⟨after, hAfter⟩
      obtain ⟨d, others, rfl⟩ := List.exists_cons_of_ne_nil hNil
      obtain ⟨rfl, -⟩ := List.cons.inj hAfter
      exact hFirst rfl
    have hPartial : isWordEdge ([] ++ [c]).getLast? = false := by simp [isWordEdge, hc]
    rw [containsWord_eq hNil, containsWordFrom_cons hNotHere, hOverlap,
      containsWordFrom_append hNil, hPartial, containsWordFrom_of_length_lt hTailLength]
    rfl

end Text

namespace Script

open Pattern

def IsName (name : List Char) : Prop :=
  ∃ first rest, name = first :: rest ∧ nameStart.contains first = true ∧
    ∀ c ∈ rest, nameRest.contains c = true

theorem IsName.ne_nil {name : List Char} (h : IsName name) : name ≠ [] := by
  obtain ⟨first, rest, rfl, -⟩ := h
  exact List.cons_ne_nil first rest

theorem IsName.head?_ne_zero {name : List Char} (h : IsName name) : name.head? ≠ some '0' := by
  obtain ⟨first, rest, rfl, hFirst, -⟩ := h
  rintro hZero
  obtain rfl := Option.some.inj hZero
  exact absurd hFirst (by decide)

theorem exists_name_of_spans_declaration {before text after : List Char}
    {made : List (Nat × List Char)} (h : declaration.Spans before text after made) :
    ∃ name, IsName name ∧ made = [(variableName, name)] := by
  simp only [declaration, blanks, spans_append, spans_text, Spans] at h
  obtain ⟨_, _, _, _, -, rfl, ⟨-, rfl, -⟩, _, _, _, _, -, rfl, ⟨-, rfl⟩, h⟩ := h
  obtain ⟨_, _, _, _, -, rfl, ⟨-, -, rfl⟩, name, _, _, _, -, rfl, hName, h⟩ := h
  obtain ⟨_, rfl, _, rest, _, _, rfl, rfl, ⟨⟨first, rfl, hFirst⟩, rfl⟩, hRest, rfl⟩ := hName
  obtain ⟨_, _, _, _, -, rfl, ⟨-, rfl⟩, -, rfl⟩ := h
  exact ⟨first :: rest, ⟨first, rest, rfl, hFirst, hRest⟩, rfl⟩

theorem isName_of_declaredName? {line : Line} {name : List Char}
    (h : declaredName? line = some name) : IsName name := by
  obtain ⟨d, hFind, hCaptured⟩ := Option.bind_eq_some_iff.mp h
  obtain ⟨before, text, after, made, -, hSpans, rfl⟩ := find?_eq_some hFind
  obtain ⟨declared, hDeclared, rfl⟩ := exists_name_of_spans_declaration hSpans
  obtain rfl : declared = name := by
    simpa [Cursor.captured?, Cursor.behind, List.lookup_cons] using hCaptured
  exact hDeclared

theorem exempts_unusedVariables_eq_true_iff {v : LineView} {name : List Char}
    (h : declaredName? v.line = some name) :
    unusedVariables.exempts v = true ↔ ∃ line ∈ v.below, containsWord line name = true := by
  change isUsedBelow v = true ↔ _
  rw [isUsedBelow, h, Option.any_some, List.any_eq_true]

/-- What the search for a name, and with it the rule on unused variables, finds and misses. -/
structure Searched (name : List Char) : Prop where
  whole : ∀ line, containsWord line name = true → OccursWhole name line
  hidden : ∀ line before after, containsWord line name = false →
    line = before ++ (name ++ after) → IsWholeBetween before after → IsHidden name line before
  complete_iff : (∀ line, OccursWhole name line → containsWord line name = true) ↔
    ¬StartsAgain name
  used : ∀ v, declaredName? v.line = some name → unusedVariables.exempts v = true →
    ∃ line ∈ v.below, OccursWhole name line
  used_iff : ¬StartsAgain name → ∀ v, declaredName? v.line = some name →
    (unusedVariables.exempts v = true ↔ ∃ line ∈ v.below, OccursWhole name line)

theorem searched_of_isName {name : List Char} (h : IsName name) : Searched name := by
  have hFinds : ¬StartsAgain name → ∀ line, OccursWhole name line →
      containsWord line name = true := by
    rintro hOnce line ⟨before, after, rfl, hWhole⟩
    rw [← Bool.not_eq_false]
    intro hMissed
    exact hOnce ((isHidden_of_containsWord h.ne_nil hMissed rfl hWhole).startsAgain hWhole)
  have hUsed : ∀ v, declaredName? v.line = some name → unusedVariables.exempts v = true →
      ∃ line ∈ v.below, OccursWhole name line := by
    intro v hDeclared hExempt
    obtain ⟨line, hLine, hFound⟩ := (exempts_unusedVariables_eq_true_iff hDeclared).mp hExempt
    exact ⟨line, hLine, occursWhole_of_containsWord hFound⟩
  constructor
  · intro line hFound
    exact occursWhole_of_containsWord hFound
  · intro line before after hMissed hLine hWhole
    exact isHidden_of_containsWord h.ne_nil hMissed hLine hWhole
  · constructor
    · intro hAll hAgain
      obtain ⟨line, hOccurs, hMissed⟩ :=
        exists_occursWhole_of_startsAgain hAgain (by decide) h.head?_ne_zero
      rw [hAll line hOccurs] at hMissed
      cases hMissed
    · exact hFinds
  · exact hUsed
  · intro hOnce v hDeclared
    constructor
    · exact hUsed v hDeclared
    · rintro ⟨line, hLine, hOccurs⟩
      rw [exempts_unusedVariables_eq_true_iff hDeclared]
      exact ⟨line, hLine, hFinds hOnce line hOccurs⟩

/-- What a declaration declares is a name. Of a name only whole words are found, and every one of
them is found exactly for the names that do not start again inside themselves. A declared variable
of such a name is taken for used exactly if its name is a whole word of a line below. -/
theorem searched_name (line : Line) (name : List Char) :
    (declaredName? line = some name → IsName name) ∧ (IsName name → Searched name) := by
  constructor
  · intro hDeclared
    exact isName_of_declaredName? hDeclared
  · intro hName
    exact searched_of_isName hName

theorem searched_name_dollars :
    declaredName? "var a$b$a = 1;".toList = some "a$b$a".toList ∧ IsName "a$b$a".toList ∧
      Searched "a$b$a".toList := by
  have hDeclared : declaredName? "var a$b$a = 1;".toList = some "a$b$a".toList := by decide
  have hName := (searched_name _ _).1 hDeclared
  exact ⟨hDeclared, hName, (searched_name "var a$b$a = 1;".toList _).2 hName⟩

/-- The second line uses the variable, behind an occurrence that belongs to another name. -/
theorem not_containsWord_of_occursWhole :
    let name := "$$".toList
    let line := "x$$$;".toList
    let v : LineView := ⟨[], "var $$ = 1;".toList, [line]⟩
    IsName name ∧ declaredName? v.line = some name ∧ OccursWhole name line ∧
      containsWord line name = false ∧ unusedVariables.exempts v = false ∧
      (linter.lintFull "var $$ = 1;\nx$$$;\n").map Offense.rule = ["unused_variables"] := by
  intro name line v
  have hName : IsName name := ⟨'$', ['$'], rfl, by decide, List.all_eq_true.mp (by decide)⟩
  refine ⟨hName, by decide, ?_, by decide, by decide, by decide +kernel⟩
  exact ⟨"x$".toList, ";".toList, rfl, by decide, by decide⟩

end Script

end TouchedLines
