import TouchedLines.Diff.Patch
import TouchedLines.Proofs.HeaderGrammar

/-! # Printed hunk headers

A printed header is read back as the new side that it was printed for, whatever its old side says
and whatever text follows it.
-/

namespace TouchedLines

open Text

/-- A number as it is printed. -/
def Numeral.ofNat (n : Nat) : Numeral where
  digits := Decimal.digits n
  ne_nil := Decimal.digits_ne_nil n
  isAsciiDigit_of_mem _ := Decimal.isAsciiDigit_of_mem_digits

namespace PatchHunk

/-- The new side as the header tells it; without a count it is one line. -/
def newHunk (h : PatchHunk) : Hunk := ⟨h.newStart, if h.abbreviated then 1 else h.newCount⟩

/-- The header from its first minus sign up to the new side. -/
def oldSide (h : PatchHunk) : List Char :=
  '-' :: Decimal.digits h.oldStart.toNat ++ ',' :: Decimal.digits h.oldCount.toNat ++ [' ']

/-- The new side without its plus sign. -/
def newNumbers (h : PatchHunk) : List Char :=
  Decimal.digits h.newStart.toNat ++
    if h.abbreviated then [] else ',' :: Decimal.digits h.newCount.toNat

theorem header_eq (h : PatchHunk) :
    h.header = "@@ ".toList ++ (h.oldSide ++ '+' :: (h.newNumbers ++ Hunk.headerEnd)) := by
  -- The equation that `rw` would make for `header` is slow to prove.
  delta header
  simp [newSide, oldSide, newNumbers, Hunk.headerEnd]

theorem notMem_header {c : Char} (hDigit : isAsciiDigit c = false) (hMark : c ∉ "@-,+ ".toList)
    (h : PatchHunk) : c ∉ h.header := by
  have hDigits : ∀ n, c ∉ Decimal.digits n := Decimal.notMem_digits hDigit
  obtain ⟨hAt, hMinus, hComma, hPlus, hSpace⟩ :
      c ≠ '@' ∧ c ≠ '-' ∧ c ≠ ',' ∧ c ≠ '+' ∧ c ≠ ' ' := by simpa using hMark
  rw [header_eq, oldSide, newNumbers]
  split <;> simp [Hunk.headerEnd, *]

theorem plus_notMem_oldSide (h : PatchHunk) : '+' ∉ h.oldSide := by
  have hDigits : ∀ n, '+' ∉ Decimal.digits n := Decimal.notMem_digits (by decide)
  simp [oldSide, hDigits]

/-- The parts of the header and of a text behind it. -/
def headerText (h : PatchHunk) (rest : List Char) : HeaderText where
  oldSide := h.oldSide
  start := .ofNat h.newStart.toNat
  count? := if h.abbreviated then none else some (.ofNat h.newCount.toNat)
  rest := rest
  plus_notMem := h.plus_notMem_oldSide

theorem header_append (h : PatchHunk) (rest : List Char) :
    h.header ++ rest = (h.headerText rest).text := by
  rw [header_eq, newNumbers, HeaderText.text, HeaderText.newSide, HeaderText.tail, headerText]
  split <;> simp [Numeral.ofNat, HeaderText.countText, Hunk.headerEnd]

theorem ofHeader?_header_append (h : PatchHunk) (rest : List Char) :
    Hunk.ofHeader? (h.header ++ rest) = some h.newHunk := by
  rw [header_append, Hunk.ofHeader?_text_eq_some_iff, HeaderText.count, headerText, newHunk]
  refine ⟨Decimal.value_digits _, ?_⟩
  split
  · rfl
  · exact Decimal.value_digits _

theorem ofHeader?_header (h : PatchHunk) : Hunk.ofHeader? h.header = some h.newHunk := by
  have hHeader := h.ofHeader?_header_append []
  rwa [List.append_nil] at hHeader

end PatchHunk

end TouchedLines
