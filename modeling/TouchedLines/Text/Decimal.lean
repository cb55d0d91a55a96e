import TouchedLines.Text.Ranges

/-! # Decimal numerals

Writing a natural number in decimal and reading one back. `value_digits` says that reading undoes
writing.
-/

namespace TouchedLines.Text.Decimal

def digit (n : Nat) : Char := Char.ofNat ('0'.toNat + n % 10)

/-- The decimal numeral of `n`, without leading zeros. -/
def digits (n : Nat) : List Char :=
  if n < 10 then [digit n] else digits (n / 10) ++ [digit n]
termination_by n

def digitValue (c : Char) : Nat := c.toNat - '0'.toNat

/-- The number that a run of digits stands for, after digits worth `start`. -/
def valueFrom (start : Nat) (text : List Char) : Nat :=
  text.foldl (fun n c => 10 * n + digitValue c) start

def value (text : List Char) : Nat := valueFrom 0 text

/-- The leading digits of a text and what follows them. -/
def spanDigits (text : List Char) : List Char × List Char :=
  (text.takeWhile isAsciiDigit, text.dropWhile isAsciiDigit)

/-- The value of a run of digits in 32 bits, if it fits. -/
def word? (text : List Char) : Option UInt32 :=
  if value text < 4294967296 then some (UInt32.ofNat (value text)) else none

theorem digitValue_digit (n : Nat) : digitValue (digit n) = n % 10 := by
  have : ∀ m < 10, digitValue (Char.ofNat ('0'.toNat + m)) = m := by decide
  exact this _ (Nat.mod_lt _ (by omega))

theorem isAsciiDigit_digit (n : Nat) : isAsciiDigit (digit n) = true := by
  have : ∀ m < 10, isAsciiDigit (Char.ofNat ('0'.toNat + m)) = true := by decide
  exact this _ (Nat.mod_lt _ (by omega))

theorem isAsciiDigit_of_mem_digits {n : Nat} {c : Char} (h : c ∈ digits n) :
    isAsciiDigit c = true := by
  induction n using Nat.strongRecOn with
  | ind n ih =>
    rw [digits] at h
    split at h
    · obtain rfl := List.mem_singleton.1 h
      exact isAsciiDigit_digit n
    · rcases List.mem_append.1 h with h | h
      · exact ih (n / 10) (by omega) h
      · obtain rfl := List.mem_singleton.1 h
        exact isAsciiDigit_digit n

theorem notMem_digits {c : Char} (h : isAsciiDigit c = false) (n : Nat) : c ∉ digits n := by
  intro hc
  rw [isAsciiDigit_of_mem_digits hc] at h
  cases h

theorem digits_ne_nil (n : Nat) : digits n ≠ [] := by
  rw [digits]
  split <;> simp

theorem exists_digits_eq_cons (n : Nat) : ∃ c cs, digits n = c :: cs ∧ isAsciiDigit c = true := by
  obtain ⟨c, cs, hDigits⟩ := List.exists_cons_of_ne_nil (digits_ne_nil n)
  have hMem : c ∈ digits n := by
    rw [hDigits]
    exact List.mem_cons_self
  exact ⟨c, cs, hDigits, isAsciiDigit_of_mem_digits hMem⟩

theorem head?_digits_ne_zero {n : Nat} (h : 0 < n) : (digits n).head? ≠ some '0' := by
  induction n using Nat.strongRecOn with
  | ind n ih =>
    rw [digits]
    split
    · rename_i hSmall
      intro hZero
      have hDigit : digit n = '0' := Option.some.inj hZero
      have hValue := digitValue_digit n
      rw [hDigit, show digitValue '0' = 0 from rfl] at hValue
      omega
    · rename_i hLarge
      have hHead := ih (n / 10) (by omega) (by omega)
      obtain ⟨c, cs, hDigits, _⟩ := exists_digits_eq_cons (n / 10)
      rw [hDigits] at hHead ⊢
      exact hHead

theorem value_append_singleton (text : List Char) (c : Char) :
    value (text ++ [c]) = 10 * value text + digitValue c := by
  simp [value, valueFrom, List.foldl_append]

theorem value_digits (n : Nat) : value (digits n) = n := by
  induction n using Nat.strongRecOn with
  | ind n ih =>
    rw [digits]
    split
    · rename_i h
      simp [value, valueFrom, digitValue_digit]
      omega
    · rw [value_append_singleton, ih (n / 10) (by omega), digitValue_digit]
      omega

theorem word?_eq_some_iff {text : List Char} {n : UInt32} :
    word? text = some n ↔ value text = n.toNat := by
  rw [word?]
  constructor
  · intro h
    obtain ⟨hFits, hValue⟩ := Option.ite_none_right_eq_some.mp h
    rw [← Option.some.inj hValue, UInt32.toNat_ofNat_of_lt' hFits]
  · intro h
    rw [h, if_pos n.toNat_lt, UInt32.ofNat_toNat]

theorem spanDigits_append {text rest : List Char} (hText : ∀ c ∈ text, isAsciiDigit c = true)
    (hRest : ∀ c, rest.head? = some c → isAsciiDigit c = false) :
    spanDigits (text ++ rest) = (text, rest) := by
  rw [spanDigits, List.takeWhile_append_of_pos hText, List.dropWhile_append_of_pos hText]
  cases rest with
  | nil => simp
  | cons c cs => simp [hRest c rfl]

end TouchedLines.Text.Decimal
