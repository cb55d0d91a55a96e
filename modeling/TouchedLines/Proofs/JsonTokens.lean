import Mathlib.Data.List.TakeWhile
import TouchedLines.Json.Document

/-! # Ways to write a token

A string may be written with escapes in many ways, a number with a fraction or an exponent in one. A
token is read from each of its ways, and what is read is written in one of them. Where a number
ends follows from what is behind it: no digit, point or exponent may continue it.
-/

namespace TouchedLines.Json

open Text

/-- The text writes the pieces of a string, each as it is, by a short escape or by its unit. -/
inductive Piece.AreSpelled : List Piece → List Char → Prop where
  | nil : AreSpelled [] []
  | plain {c : Char} {pieces : List Piece} {written : List Char} (hQuote : c ≠ '"')
      (hEscape : c ≠ '\\') (hControl : ¬c < ' ') (h : AreSpelled pieces written) :
      AreSpelled (.char c :: pieces) (c :: written)
  | short {e c : Char} {pieces : List Piece} {written : List Char} (hEscape : escaped? e = some c)
      (h : AreSpelled pieces written) : AreSpelled (.char c :: pieces) ('\\' :: e :: written)
  | unit {a b c d : Char} {n : Nat} {pieces : List Piece} {written : List Char}
      (hUnit : unit? a b c d = some n) (h : AreSpelled pieces written) :
      AreSpelled (.ofUnit n :: pieces) ('\\' :: 'u' :: a :: b :: c :: d :: written)

def IsDigits (text : List Char) : Prop := text ≠ [] ∧ ∀ c ∈ text, isAsciiDigit c = true

/-- Digits without a zero in front of others. -/
def IsWhole (text : List Char) : Prop := text = ['0'] ∨ IsDigits text ∧ text.head? ≠ some '0'

def IsFraction (text : List Char) : Prop :=
  text = [] ∨ ∃ digits, IsDigits digits ∧ text = '.' :: digits

def IsExponent (text : List Char) : Prop :=
  text = [] ∨ ∃ mark sign digits, (mark = 'e' ∨ mark = 'E') ∧
    (sign = [] ∨ sign = ['+'] ∨ sign = ['-']) ∧ IsDigits digits ∧ text = mark :: (sign ++ digits)

inductive Atom.IsSpelled : Atom → List Char → Prop where
  | null : IsSpelled .null ['n', 'u', 'l', 'l']
  | true : IsSpelled (.bool Bool.true) ['t', 'r', 'u', 'e']
  | false : IsSpelled (.bool Bool.false) ['f', 'a', 'l', 's', 'e']
  | natural {whole : List Char} (hWhole : IsWhole whole) :
      IsSpelled (.natural (Decimal.value whole)) whole
  /-- A number with a sign, a fraction or an exponent. -/
  | number {sign whole fraction exponent : List Char} (hSign : sign = [] ∨ sign = ['-'])
      (hWhole : IsWhole whole) (hFraction : IsFraction fraction) (hExponent : IsExponent exponent)
      (hMore : sign ≠ [] ∨ fraction ++ exponent ≠ []) :
      IsSpelled (.number (String.ofList (sign ++ whole ++ (fraction ++ exponent))))
        (sign ++ whole ++ (fraction ++ exponent))
  | string {pieces : List Piece} {written : List Char} (h : Piece.AreSpelled pieces written) :
      IsSpelled (.string ((Piece.join? pieces).map String.ofList)) ('"' :: written ++ ['"'])

def Token.IsSpelled : Token → List Char → Prop
  | .openArray, written => written = ['[']
  | .closeArray, written => written = [']']
  | .openObject, written => written = ['\x7b']
  | .closeObject, written => written = ['\x7d']
  | .comma, written => written = [',']
  | .colon, written => written = [':']
  | .atom a, written => a.IsSpelled written

/-! ## Strings -/

theorem readPieces_append {pieces : List Piece} {written : List Char}
    (h : Piece.AreSpelled pieces written) (rest : List Char) :
    readPieces (written ++ '"' :: rest) = some (pieces, rest) := by
  induction h with
  | nil => rfl
  | @plain c pieces written hQuote hEscape hControl _ ih =>
    rw [List.cons_append, readPieces.eq_def]
    split
    · contradiction
    · rename_i hText
      exact absurd (List.cons.inj hText).1 hQuote
    · rename_i hText
      exact absurd (List.cons.inj hText).1 hEscape
    · rename_i hText
      exact absurd (List.cons.inj hText).1 hEscape
    · rename_i hText
      obtain ⟨rfl, rfl⟩ := List.cons.inj hText
      rw [if_neg hControl, ih]
      rfl
  | @short e c pieces written hEscape _ ih =>
    rw [List.cons_append, List.cons_append, readPieces.eq_def]
    split
    · contradiction
    · rename_i hText
      exact absurd (List.cons.inj hText).1 (by decide)
    · rename_i hText
      -- the unit escape is no short one
      obtain ⟨rfl, -⟩ := List.cons.inj (List.cons.inj hText).2
      cases hEscape
    · rename_i hText
      obtain ⟨rfl, rfl⟩ := List.cons.inj (List.cons.inj hText).2
      simp only [hEscape, ih]
      rfl
    · rename_i hNot hText
      obtain ⟨rfl, rfl⟩ := List.cons.inj hText
      exact (hNot _ _ rfl rfl).elim
  | @unit a b c d n pieces written hUnit _ ih =>
    simp only [List.cons_append, readPieces, hUnit, ih]
    rfl

theorem exists_spelled_of_readPieces {text rest : List Char} {pieces : List Piece}
    (h : readPieces text = some (pieces, rest)) :
    ∃ written, text = written ++ '"' :: rest ∧ Piece.AreSpelled pieces written := by
  fun_induction readPieces text generalizing pieces with
  | case1 => cases h
  | case2 tail =>
    cases h
    exact ⟨[], rfl, .nil⟩
  | case3 a b c d tail n hUnit ih =>
    obtain ⟨⟨others, _⟩, hTail, hPair⟩ := Option.map_eq_some_iff.mp h
    cases hPair
    obtain ⟨written, rfl, hWritten⟩ := ih hTail
    exact ⟨_, rfl, .unit hUnit hWritten⟩
  | case4 => cases h
  | case5 c tail _ e hEscape ih =>
    obtain ⟨⟨others, _⟩, hTail, hPair⟩ := Option.map_eq_some_iff.mp h
    cases hPair
    obtain ⟨written, rfl, hWritten⟩ := ih hTail
    exact ⟨_, rfl, .short hEscape hWritten⟩
  | case6 => cases h
  | case7 => cases h
  | case8 c tail hQuote hUnit hEscape hControl ih =>
    obtain ⟨⟨others, _⟩, hTail, hPair⟩ := Option.map_eq_some_iff.mp h
    cases hPair
    obtain ⟨written, rfl, hWritten⟩ := ih hTail
    refine ⟨c :: written, rfl, .plain hQuote ?_ hControl hWritten⟩
    rintro rfl
    -- the string goes on behind a backslash, so that it would be an escape
    cases written <;> exact hEscape _ _ rfl rfl

/-! ## Numbers -/

theorem ne_of_isAsciiDigit {c d : Char} (hc : isAsciiDigit c = true)
    (hd : isAsciiDigit d = false) : c ≠ d := by
  rintro rfl
  rw [hc] at hd
  cases hd

def EndsDigits (rest : List Char) : Prop := ∀ c, rest.head? = some c → isAsciiDigit c = false

/-- A text that does not continue a number in front of it. -/
def EndsNumber (rest : List Char) : Prop :=
  ∀ c, rest.head? = some c → isAsciiDigit c = false ∧ c ≠ '.' ∧ c ≠ 'e' ∧ c ≠ 'E'

theorem endsNumber_nil : EndsNumber [] := by
  intro c h
  cases h

theorem endsNumber_cons {c : Char} {rest : List Char}
    (h : isAsciiDigit c = false ∧ c ≠ '.' ∧ c ≠ 'e' ∧ c ≠ 'E') : EndsNumber (c :: rest) := by
  intro d hd
  cases hd
  exact h

theorem EndsNumber.endsDigits {rest : List Char} (h : EndsNumber rest) : EndsDigits rest :=
  fun c hc => (h c hc).1

theorem endsDigits_cons {c : Char} {rest : List Char} (h : isAsciiDigit c = false) :
    EndsDigits (c :: rest) := by
  intro d hd
  cases hd
  exact h

theorem spanWhole?_append {whole rest : List Char} (hWhole : IsWhole whole)
    (hRest : EndsDigits rest) : spanWhole? (whole ++ rest) = some (whole, rest) := by
  obtain rfl | ⟨⟨hNil, hDigits⟩, hHead⟩ := hWhole
  · rfl
  · have hSpan := Decimal.spanDigits_append hDigits hRest
    obtain ⟨c, others, rfl⟩ := List.exists_cons_of_ne_nil hNil
    have hZero : c ≠ '0' := by
      rintro rfl
      exact hHead rfl
    rw [List.cons_append] at hSpan ⊢
    rw [spanWhole?, if_neg hZero, if_pos (hDigits c List.mem_cons_self), hSpan]

theorem spanSome?_append {digits rest : List Char} (hDigits : IsDigits digits)
    (hRest : EndsDigits rest) : spanSome? (digits ++ rest) = some (digits, rest) := by
  rw [spanSome?, Decimal.spanDigits_append hDigits.2 hRest]
  split
  · rename_i hPair
    exact absurd (Prod.mk.inj hPair).1 hDigits.1
  · rename_i hPair
    rw [hPair]

theorem spanFraction?_append {fraction rest : List Char} (hFraction : IsFraction fraction)
    (hRest : EndsDigits rest) (hPoint : rest.head? ≠ some '.') :
    spanFraction? (fraction ++ rest) = some (fraction, rest) := by
  obtain rfl | ⟨digits, hDigits, rfl⟩ := hFraction
  · rw [List.nil_append, spanFraction?.eq_def]
    split
    · exact absurd rfl hPoint
    · rfl
  · rw [List.cons_append, spanFraction?, spanSome?_append hDigits hRest]
    rfl

theorem spanExponent?_append {exponent rest : List Char} (hExponent : IsExponent exponent)
    (hRest : EndsNumber rest) : spanExponent? (exponent ++ rest) = some (exponent, rest) := by
  obtain rfl | ⟨mark, sign, digits, hMark, hSign, hDigits, rfl⟩ := hExponent
  · rw [List.nil_append]
    cases rest with
    | nil => rfl
    | cons c rest =>
      obtain ⟨-, -, hLower, hUpper⟩ := hRest c rfl
      rw [spanExponent?, if_neg (not_or.mpr ⟨hLower, hUpper⟩)]
  · have hSpan : spanSign (sign ++ (digits ++ rest)) = (sign, digits ++ rest) := by
      obtain rfl | rfl | rfl := hSign
      · obtain ⟨c, others, rfl⟩ := List.exists_cons_of_ne_nil hDigits.1
        have hc := hDigits.2 c List.mem_cons_self
        rw [List.nil_append, List.cons_append, spanSign.eq_def]
        split <;> rename_i hText <;>
          first | rfl | (obtain ⟨rfl, -⟩ := List.cons.inj hText; exact absurd hc (by decide))
      · rfl
      · rfl
    rw [List.cons_append, List.append_assoc, spanExponent?, if_pos hMark, hSpan,
      spanSome?_append hDigits hRest.endsDigits]
    rfl

theorem endsDigits_exponent_append {exponent rest : List Char} (hExponent : IsExponent exponent)
    (hRest : EndsNumber rest) :
    EndsDigits (exponent ++ rest) ∧ (exponent ++ rest).head? ≠ some '.' := by
  obtain rfl | ⟨mark, sign, digits, hMark, -, -, rfl⟩ := hExponent
  · refine ⟨hRest.endsDigits, ?_⟩
    intro hPoint
    exact (hRest '.' hPoint).2.1 rfl
  · obtain rfl | rfl := hMark
    · exact ⟨endsDigits_cons (by decide), by simp⟩
    · exact ⟨endsDigits_cons (by decide), by simp⟩

theorem spanUnsigned?_append {whole fraction exponent rest : List Char} (hWhole : IsWhole whole)
    (hFraction : IsFraction fraction) (hExponent : IsExponent exponent) (hRest : EndsNumber rest) :
    spanUnsigned? (whole ++ (fraction ++ exponent) ++ rest) =
      some (whole, fraction ++ exponent, rest) := by
  obtain ⟨hDigits, hPoint⟩ := endsDigits_exponent_append hExponent hRest
  have hBehind : EndsDigits (fraction ++ (exponent ++ rest)) := by
    obtain rfl | ⟨digits, -, rfl⟩ := hFraction
    · exact hDigits
    · exact endsDigits_cons (by decide)
  rw [List.append_assoc, List.append_assoc, spanUnsigned?, spanWhole?_append hWhole hBehind]
  simp only [spanFraction?_append hFraction hDigits hPoint, spanExponent?_append hExponent hRest]
  rfl

theorem IsWhole.head {whole : List Char} (h : IsWhole whole) :
    ∃ c others, whole = c :: others ∧ isAsciiDigit c = true := by
  obtain rfl | ⟨⟨hNil, hDigits⟩, -⟩ := h
  · exact ⟨'0', [], rfl, rfl⟩
  · obtain ⟨c, others, rfl⟩ := List.exists_cons_of_ne_nil hNil
    exact ⟨c, others, rfl, hDigits c List.mem_cons_self⟩

theorem readNumber?_natural_append {whole rest : List Char} (hWhole : IsWhole whole)
    (hRest : EndsNumber rest) :
    readNumber? (whole ++ rest) = some (.natural (Decimal.value whole), rest) := by
  have hSpan := spanUnsigned?_append hWhole (.inl rfl) (.inl rfl) hRest
  obtain ⟨c, others, rfl, hc⟩ := hWhole.head
  have hMinus : c ≠ '-' := ne_of_isAsciiDigit hc (by decide)
  rw [List.append_nil, List.append_nil, List.cons_append] at hSpan
  rw [List.cons_append, readNumber?, if_neg hMinus, hSpan]
  rfl

theorem readNumber?_number_append {sign whole fraction exponent rest : List Char}
    (hSign : sign = [] ∨ sign = ['-']) (hWhole : IsWhole whole) (hFraction : IsFraction fraction)
    (hExponent : IsExponent exponent) (hMore : sign ≠ [] ∨ fraction ++ exponent ≠ [])
    (hRest : EndsNumber rest) :
    readNumber? (sign ++ whole ++ (fraction ++ exponent) ++ rest) =
      some (.number (String.ofList (sign ++ whole ++ (fraction ++ exponent))), rest) := by
  have hSpan := spanUnsigned?_append hWhole hFraction hExponent hRest
  obtain rfl | rfl := hSign
  · have hSome : (fraction ++ exponent).isEmpty = false :=
      List.isEmpty_eq_false_iff.mpr (hMore.resolve_left (by simp))
    obtain ⟨c, others, rfl, hc⟩ := hWhole.head
    have hMinus : c ≠ '-' := ne_of_isAsciiDigit hc (by decide)
    simp only [List.nil_append, List.cons_append] at hSpan ⊢
    rw [readNumber?, if_neg hMinus, hSpan]
    simp only [Option.map_some, hSome]
    rfl
  · simp only [List.cons_append, List.nil_append] at hSpan ⊢
    rw [readNumber?, if_pos rfl, hSpan]
    rfl

theorem exists_of_spanWhole? {text whole rest : List Char}
    (h : spanWhole? text = some (whole, rest)) : text = whole ++ rest ∧ IsWhole whole := by
  unfold spanWhole? at h
  split at h
  · cases h
  · rename_i c tail
    split at h
    · rename_i hZero
      cases h
      exact ⟨rfl, .inl (by rw [hZero])⟩
    · rename_i hZero
      obtain ⟨hc, hPair⟩ := Option.ite_none_right_eq_some.mp h
      cases hPair
      refine ⟨(List.takeWhile_append_dropWhile ..).symm, .inr ⟨⟨?_, ?_⟩, ?_⟩⟩
      · simp [hc]
      · exact fun _ => List.mem_takeWhile_imp
      · simp [hc, hZero]

theorem exists_of_spanSome? {text digits rest : List Char}
    (h : spanSome? text = some (digits, rest)) : text = digits ++ rest ∧ IsDigits digits := by
  unfold spanSome? at h
  split at h
  · cases h
  · rename_i hNot hPair
    cases h
    obtain ⟨rfl, rfl⟩ := Prod.mk.inj hPair
    exact ⟨(List.takeWhile_append_dropWhile ..).symm, hNot, fun _ => List.mem_takeWhile_imp⟩

theorem exists_of_spanFraction? {text fraction rest : List Char}
    (h : spanFraction? text = some (fraction, rest)) :
    text = fraction ++ rest ∧ IsFraction fraction := by
  unfold spanFraction? at h
  split at h
  · obtain ⟨⟨digits, _⟩, hSome, hPair⟩ := Option.map_eq_some_iff.mp h
    cases hPair
    obtain ⟨rfl, hDigits⟩ := exists_of_spanSome? hSome
    exact ⟨rfl, .inr ⟨digits, hDigits, rfl⟩⟩
  · cases h
    exact ⟨rfl, .inl rfl⟩

theorem exists_of_spanExponent? {text exponent rest : List Char}
    (h : spanExponent? text = some (exponent, rest)) :
    text = exponent ++ rest ∧ IsExponent exponent := by
  unfold spanExponent? at h
  split at h
  · cases h
    exact ⟨rfl, .inl rfl⟩
  · rename_i mark tail
    split at h
    · rename_i hMark
      obtain ⟨⟨digits, _⟩, hSome, hPair⟩ := Option.map_eq_some_iff.mp h
      cases hPair
      have hSign : tail = (spanSign tail).1 ++ (spanSign tail).2 ∧
          ((spanSign tail).1 = [] ∨ (spanSign tail).1 = ['+'] ∨ (spanSign tail).1 = ['-']) := by
        unfold spanSign
        split <;> simp
      obtain ⟨hRest, hDigits⟩ := exists_of_spanSome? hSome
      refine ⟨?_, .inr ⟨mark, _, digits, hMark, hSign.2, hDigits, rfl⟩⟩
      simp only [List.cons_append, List.append_assoc]
      rw [← hRest, ← hSign.1]
    · cases h
      exact ⟨rfl, .inl rfl⟩

theorem exists_of_spanUnsigned? {text whole more rest : List Char}
    (h : spanUnsigned? text = some (whole, more, rest)) :
    ∃ fraction exponent, text = whole ++ (more ++ rest) ∧ more = fraction ++ exponent ∧
      IsWhole whole ∧ IsFraction fraction ∧ IsExponent exponent := by
  unfold spanUnsigned? at h
  split at h
  · cases h
  · rename_i hFirst
    split at h
    · cases h
    · rename_i hSecond
      obtain ⟨⟨exponent, _⟩, hThird, hPair⟩ := Option.map_eq_some_iff.mp h
      cases hPair
      obtain ⟨rfl, hWhole⟩ := exists_of_spanWhole? hFirst
      obtain ⟨rfl, hFraction⟩ := exists_of_spanFraction? hSecond
      obtain ⟨rfl, hExponent⟩ := exists_of_spanExponent? hThird
      exact ⟨_, exponent, by simp only [List.append_assoc], rfl, hWhole, hFraction, hExponent⟩

theorem exists_spelled_of_readNumber? {text rest : List Char} {a : Atom}
    (h : readNumber? text = some (a, rest)) :
    ∃ written, text = written ++ rest ∧ a.IsSpelled written := by
  unfold readNumber? at h
  split at h
  · cases h
  · rename_i c tail
    split at h
    · rename_i hMinus
      obtain ⟨⟨whole, more, _⟩, hSpan, hPair⟩ := Option.map_eq_some_iff.mp h
      cases hPair
      obtain ⟨fraction, exponent, rfl, rfl, hWhole, hFraction, hExponent⟩ :=
        exists_of_spanUnsigned? hSpan
      subst hMinus
      refine ⟨['-'] ++ whole ++ (fraction ++ exponent), by simp, ?_⟩
      exact .number (.inr rfl) hWhole hFraction hExponent (.inl (List.cons_ne_nil '-' []))
    · obtain ⟨⟨whole, more, _⟩, hSpan, hPair⟩ := Option.map_eq_some_iff.mp h
      obtain ⟨fraction, exponent, hText, rfl, hWhole, hFraction, hExponent⟩ :=
        exists_of_spanUnsigned? hSpan
      rw [hText]
      simp only at hPair
      split at hPair
      · rename_i hMore
        cases hPair
        rw [List.isEmpty_iff.mp hMore]
        exact ⟨whole, rfl, .natural hWhole⟩
      · rename_i hMore
        cases hPair
        refine ⟨[] ++ whole ++ (fraction ++ exponent), by simp, ?_⟩
        exact .number (.inl rfl) hWhole hFraction hExponent (.inr (by simpa using hMore))

/-! ## Tokens -/

theorem readToken?_eq_readNumber? {c : Char} (h : isAsciiDigit c = true ∨ c = '-')
    (rest : List Char) :
    readToken? (c :: rest) = (readNumber? (c :: rest)).map fun (a, rest) => (.atom a, rest) := by
  have hNot : ∀ d, isAsciiDigit d = false → d ≠ '-' → c ≠ d := by
    intro d hDigit hMinus
    obtain hc | rfl := h
    · exact ne_of_isAsciiDigit hc hDigit
    · exact hMinus.symm
  have hMark : mark? c = none := by
    unfold mark?
    split <;> first | rfl | exact absurd rfl (hNot _ (by decide) (by decide))
  have hAtom : readAtom? (c :: rest) = readNumber? (c :: rest) := by
    rw [readAtom?.eq_def]
    split <;> rename_i hText <;>
      first
      | rfl
      | exact absurd (List.cons.inj hText).1 (hNot _ (by decide) (by decide))
  rw [readToken?, hMark, hAtom]

def Token.isMark : Token → Bool
  | .atom _ => false
  | _ => true

theorem readToken?_atom_append {a : Atom} {written rest : List Char} (h : a.IsSpelled written)
    (hRest : EndsNumber rest) : readToken? (written ++ rest) = some (.atom a, rest) := by
  cases h with
  | null => rfl
  | true => rfl
  | false => rfl
  | natural hWhole =>
    have hNumber := readNumber?_natural_append hWhole hRest
    obtain ⟨c, others, rfl, hc⟩ := hWhole.head
    rw [List.cons_append] at hNumber ⊢
    rw [readToken?_eq_readNumber? (.inl hc), hNumber]
    rfl
  | @number sign whole fraction exponent hSign hWhole hFraction hExponent hMore =>
    have hNumber := readNumber?_number_append hSign hWhole hFraction hExponent hMore hRest
    obtain ⟨c, others, hHead, hc⟩ : ∃ c others,
        sign ++ whole ++ (fraction ++ exponent) ++ rest = c :: others ∧
          (isAsciiDigit c = true ∨ c = '-') := by
      obtain rfl | rfl := hSign
      · obtain ⟨c, others, rfl, hc⟩ := hWhole.head
        exact ⟨c, _, rfl, .inl hc⟩
      · exact ⟨'-', _, rfl, .inr rfl⟩
    rw [hHead] at hNumber ⊢
    rw [readToken?_eq_readNumber? hc, hNumber]
    rfl
  | @string pieces written hPieces =>
    have hMark : mark? '"' = none := rfl
    have hText : '"' :: written ++ ['"'] ++ rest = '"' :: (written ++ '"' :: rest) := by simp
    rw [hText, readToken?, hMark, readAtom?, readPieces_append hPieces]
    rfl

theorem readToken?_append {t : Token} {written rest : List Char} (h : t.IsSpelled written)
    (hRest : t.isMark = true ∨ EndsNumber rest) :
    readToken? (written ++ rest) = some (t, rest) := by
  cases t with
  | atom a => exact readToken?_atom_append h (hRest.resolve_left (by simp [Token.isMark]))
  | _ =>
    rw [Token.IsSpelled] at h
    rw [h]
    rfl

theorem exists_spelled_of_readAtom? {text rest : List Char} {a : Atom}
    (h : readAtom? text = some (a, rest)) :
    ∃ written, text = written ++ rest ∧ a.IsSpelled written := by
  unfold readAtom? at h
  split at h
  · obtain ⟨⟨pieces, _⟩, hPieces, hPair⟩ := Option.map_eq_some_iff.mp h
    cases hPair
    obtain ⟨written, rfl, hWritten⟩ := exists_spelled_of_readPieces hPieces
    exact ⟨'"' :: written ++ ['"'], by simp, .string hWritten⟩
  · cases h
    exact ⟨_, rfl, .null⟩
  · cases h
    exact ⟨_, rfl, .true⟩
  · cases h
    exact ⟨_, rfl, .false⟩
  · exact exists_spelled_of_readNumber? h

theorem exists_spelled_of_readToken? {text rest : List Char} {t : Token}
    (h : readToken? text = some (t, rest)) :
    ∃ written, text = written ++ rest ∧ t.IsSpelled written := by
  unfold readToken? at h
  split at h
  · cases h
  · rename_i c tail
    split at h
    · rename_i hMark
      cases h
      refine ⟨[c], rfl, ?_⟩
      unfold mark? at hMark
      split at hMark <;> cases hMark <;> rfl
    · obtain ⟨⟨a, _⟩, hAtom, hPair⟩ := Option.map_eq_some_iff.mp h
      cases hPair
      exact exists_spelled_of_readAtom? hAtom

/-! ## Texts -/

theorem isSpace_eq_true_iff {c : Char} :
    isSpace c = true ↔ c = ' ' ∨ c = '\n' ∨ c = '\r' ∨ c = '\t' := by
  simp [isSpace, or_assoc]

theorem isSpace_eq_false_of_readToken? {c : Char} {rest : List Char} {read : Token × List Char}
    (h : readToken? (c :: rest) = some read) : isSpace c = false := by
  cases hSpace : isSpace c with
  | false => rfl
  | true => rcases isSpace_eq_true_iff.mp hSpace with rfl | rfl | rfl | rfl <;> cases h

theorem endsNumber_space_cons {c : Char} (h : isSpace c = true) (rest : List Char) :
    EndsNumber (c :: rest) := by
  apply endsNumber_cons
  rcases isSpace_eq_true_iff.mp h with rfl | rfl | rfl | rfl <;> decide

theorem Token.ofText?_eq (text : List Char) :
    Token.ofText? text =
      match text.dropWhile isSpace with
      | [] => some []
      | c :: rest => (readToken? (c :: rest)).bind fun (t, rest) =>
          (Token.ofText? rest).map (t :: ·) := by
  rw [Token.ofText?]
  split
  · rename_i hDrop
    rw [hDrop]
  · rename_i hDrop
    split
    · rename_i hToken
      simp only [hDrop, hToken, Option.bind_none]
    · rename_i hToken
      simp only [hDrop, hToken, Option.bind_some]

theorem Token.ofText?_nil : Token.ofText? [] = some [] := by
  rw [Token.ofText?_eq]
  rfl

theorem Token.ofText?_space_cons {c : Char} (hc : isSpace c = true) (rest : List Char) :
    Token.ofText? (c :: rest) = Token.ofText? rest := by
  rw [Token.ofText?_eq, List.dropWhile_cons, if_pos hc, ← Token.ofText?_eq]

theorem Token.ofText?_blanks_append {blanks : List Char} (h : ∀ c ∈ blanks, isSpace c = true)
    (rest : List Char) : Token.ofText? (blanks ++ rest) = Token.ofText? rest := by
  induction blanks with
  | nil => rfl
  | cons c blanks ih =>
    obtain ⟨hc, hBlanks⟩ := List.forall_mem_cons.mp h
    rw [List.cons_append, Token.ofText?_space_cons hc, ih hBlanks]

theorem Token.ofText?_of_readToken? {text rest : List Char} {t : Token}
    (h : readToken? text = some (t, rest)) :
    Token.ofText? text = (Token.ofText? rest).map (t :: ·) := by
  cases text with
  | nil => cases h
  | cons c cs =>
    have hDrop : (c :: cs).dropWhile isSpace = c :: cs := by
      rw [List.dropWhile_cons, if_neg (by simp [isSpace_eq_false_of_readToken? h])]
    rw [Token.ofText?_eq, hDrop]
    simp only [h, Option.bind_some]

end TouchedLines.Json
