import Mathlib.Data.List.DropRight
import TouchedLines.Text.Lines

/-! # Trimmed texts

A trimmed text neither begins nor ends with a blank, so that trimming it once more leaves it as it
is. Nothing is left of a text exactly if all of it is blank.
-/

namespace TouchedLines.Text

theorem trimEnd_eq_rdropWhile (text : List Char) : trimEnd text = text.rdropWhile isBlank := rfl

theorem trimEnd_eq_self_iff {text : List Char} :
    trimEnd text = text ↔ ∀ c, text.getLast? = some c → isBlank c = false := by
  rw [trimEnd_eq_rdropWhile, List.rdropWhile_eq_self_iff]
  constructor
  · intro h c hc
    obtain ⟨front, rfl⟩ := List.getLast?_eq_some_iff.mp hc
    simpa using h (by simp)
  · intro h hNil
    simpa using h _ (List.getLast?_eq_some_getLast hNil)

theorem isBlank_of_getLast?_trim {text : List Char} {c : Char} (h : (trim text).getLast? = some c) :
    isBlank c = false := by
  have hTwice : trimEnd (trim text) = trim text := List.rdropWhile_idempotent isBlank _
  exact trimEnd_eq_self_iff.mp hTwice c h

theorem isBlank_of_head?_trim {text : List Char} {c : Char} (h : (trim text).head? = some c) :
    isBlank c = false := by
  obtain ⟨rest, hRest⟩ := List.rdropWhile_prefix isBlank (l := trimStart text)
  obtain ⟨tail, hTail⟩ := List.head?_eq_some_iff.mp h
  have hStart : (trimStart text).head? = some c := by
    rw [← hRest, ← trimEnd_eq_rdropWhile, ← trim, hTail]
    rfl
  have hNot := List.head?_dropWhile_not isBlank text
  rw [← trimStart, hStart] at hNot
  simpa using hNot

theorem trim_eq_self_iff {text : List Char} :
    trim text = text ↔ (∀ c, text.head? = some c → isBlank c = false) ∧
      ∀ c, text.getLast? = some c → isBlank c = false := by
  constructor
  · intro h
    rw [← h]
    exact ⟨fun _ => isBlank_of_head?_trim, fun _ => isBlank_of_getLast?_trim⟩
  · rintro ⟨hHead, hLast⟩
    have hStart : trimStart text = text := by
      cases text with
      | nil => rfl
      | cons c rest => exact trimStart_cons (hHead c rfl) rest
    rw [trim, hStart]
    exact trimEnd_eq_self_iff.mpr hLast

theorem trim_trim (text : List Char) : trim (trim text) = trim text :=
  trim_eq_self_iff.mpr ⟨fun _ => isBlank_of_head?_trim, fun _ => isBlank_of_getLast?_trim⟩

theorem trim_eq_nil_iff {text : List Char} : trim text = [] ↔ ∀ c ∈ text, isBlank c = true := by
  rw [trim, trimEnd_eq_rdropWhile, List.rdropWhile_eq_nil_iff, trimStart]
  constructor
  · intro h
    rw [← List.takeWhile_append_dropWhile (p := isBlank) (l := text)]
    intro c hc
    rcases List.mem_append.mp hc with hFront | hRest
    · exact List.mem_takeWhile_imp hFront
    · exact h c hRest
  · intro h c hc
    exact h c ((List.dropWhile_suffix isBlank).mem hc)

theorem isBlankLine_eq_false_of_mem {line : Line} {c : Char} (hc : c ∈ line)
    (hInk : isBlank c = false) : isBlankLine line = false := by
  rw [isBlankLine, List.isEmpty_eq_false_iff]
  intro hNil
  exact Bool.false_ne_true (hInk.symm.trans (trim_eq_nil_iff.mp hNil c hc))

theorem exists_append_trim (text : List Char) :
    ∃ front back, text = front ++ (trim text ++ back) ∧ ∀ c ∈ back, isBlank c = true := by
  have hBack := List.takeWhile_append_dropWhile (p := isBlank) (l := (trimStart text).reverse)
  refine ⟨text.takeWhile isBlank, ((trimStart text).reverse.takeWhile isBlank).reverse, ?_, ?_⟩
  · rw [trim, trimEnd, dropEndWhile, ← List.reverse_append, hBack, List.reverse_reverse, trimStart,
      List.takeWhile_append_dropWhile]
  · intro c hc
    exact List.mem_takeWhile_imp (List.mem_reverse.mp hc)

end TouchedLines.Text
