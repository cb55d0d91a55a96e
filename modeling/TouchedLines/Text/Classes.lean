import TouchedLines.Text.Alphabetic
import TouchedLines.Text.Mark
import TouchedLines.Text.Numeric

/-! # Classes of characters

Blank, word and alphanumeric characters of the whole of Unicode. On ASCII each is decided by rule,
so that a closed statement about ASCII text evaluates without the tables.
-/

namespace TouchedLines.Text

/-- The property White_Space: a blank. -/
def isBlank (c : Char) : Bool :=
  c == ' ' || (decide ('\t' ≤ c) && decide (c ≤ '\r')) || c == '\u0085' || c == '\u00a0' ||
  c == '\u1680' || (decide ('\u2000' ≤ c) && decide (c ≤ '\u200a')) || c == '\u2028' ||
  c == '\u2029' || c == '\u202f' || c == '\u205f' || c == '\u3000'

/-- The ASCII blanks without the vertical tab. -/
def isAsciiBlank (c : Char) : Bool :=
  c == ' ' || c == '\t' || c == '\n' || c == '\x0c' || c == '\r'

/-- Connector punctuation beyond the underscore. -/
def connectorRanges : Ranges :=
  [(0x203F, 0x2040), (0x2054, 0x2054), (0xFE33, 0xFE34), (0xFE4D, 0xFE4F), (0xFF3F, 0xFF3F)]

/-- The joiners that shape a word without being a letter. -/
def isJoinControl (c : Char) : Bool := c == '\u200c' || c == '\u200d'

/-- A character of a word: a letter, a mark, a decimal digit, connector punctuation or a joiner. -/
def isWord (c : Char) : Bool :=
  if c.toNat < 128 then isAsciiWord c
  else isAlphabetic c || isMark c || isDecimalNumber c || connectorRanges.contains c ||
    isJoinControl c

/-- No blank belongs to a word. -/
theorem isWord_eq_false_of_isBlank {c : Char} (h : isBlank c = true) : isWord c = false := by
  simp only [isBlank, Bool.or_eq_true, Bool.and_eq_true, beq_iff_eq, decide_eq_true_eq] at h
  have hLower : ∀ i < 5, isWord (Char.ofNat (0x9 + i)) = false := by decide +kernel
  have hUpper : ∀ i < 11, isWord (Char.ofNat (0x2000 + i)) = false := by decide +kernel
  rcases h with (((((((((rfl | ⟨hLow, hHigh⟩) | rfl) | rfl) | rfl) | ⟨hLow, hHigh⟩) | rfl) | rfl) |
    rfl) | rfl) | rfl
  all_goals try decide +kernel
  · have hLow : 0x9 ≤ c.toNat := hLow
    have hHigh : c.toNat ≤ 0xd := hHigh
    have hCode := hLower (c.toNat - 0x9) (by omega)
    rwa [Nat.add_sub_cancel' hLow, Char.ofNat_toNat] at hCode
  · have hLow : 0x2000 ≤ c.toNat := hLow
    have hHigh : c.toNat ≤ 0x200a := hHigh
    have hCode := hUpper (c.toNat - 0x2000) (by omega)
    rwa [Nat.add_sub_cancel' hLow, Char.ofNat_toNat] at hCode

/-- A letter or a number of any category. -/
def isAlphanumeric (c : Char) : Bool :=
  if c.toNat < 128 then isAsciiLetter c || isAsciiDigit c
  else isAlphabetic c || isDecimalNumber c || isOtherNumber c

end TouchedLines.Text
