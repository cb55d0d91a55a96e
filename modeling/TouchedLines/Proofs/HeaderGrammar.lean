import Mathlib.Data.List.TakeWhile
import TouchedLines.Diff.Hunk

/-! # The grammar of hunk headers

A text has the form of a header in one way only: the old side ends at the first plus sign, and a
numeral where no digit follows. So a header is read exactly if its numbers fit in 32 bits, and what
is read are these numbers.
-/

namespace TouchedLines

open Text

namespace Text

theorem takeWhile_append_of_head? {p : Char → Bool} {front back : List Char}
    (hFront : ∀ c ∈ front, p c = true) (hBack : ∀ c, back.head? = some c → p c = false) :
    (front ++ back).takeWhile p = front := by
  rw [List.takeWhile_append_of_pos hFront]
  cases back with
  | nil => simp
  | cons c back => simp [hBack c rfl]

/-- Two cuts of a text in front of the first character outside a class are the same. -/
theorem append_inj_of_forall_mem {p : Char → Bool} {front front' back back' : List Char}
    (h : front ++ back = front' ++ back') (hFront : ∀ c ∈ front, p c = true)
    (hFront' : ∀ c ∈ front', p c = true) (hBack : ∀ c, back.head? = some c → p c = false)
    (hBack' : ∀ c, back'.head? = some c → p c = false) : front = front' ∧ back = back' := by
  have hSame : front = front' := by
    rw [← takeWhile_append_of_head? hFront hBack, h, takeWhile_append_of_head? hFront' hBack']
  subst hSame
  exact ⟨rfl, List.append_cancel_left h⟩

end Text

/-- A run of ASCII digits, at least one. -/
@[ext]
structure Numeral where
  digits : List Char
  ne_nil : digits ≠ []
  isAsciiDigit_of_mem : ∀ c ∈ digits, isAsciiDigit c = true

def Numeral.value (n : Numeral) : Nat := Decimal.value n.digits

/-- The parts of a text of the form `@@ …+1,2 @@…`. -/
@[ext]
structure HeaderText where
  oldSide : List Char
  start : Numeral
  count? : Option Numeral
  rest : List Char
  plus_notMem : '+' ∉ oldSide

namespace HeaderText

/-- The number of lines; without a numeral it is one. -/
def count (header : HeaderText) : Nat := header.count?.elim 1 Numeral.value

def countText : Option Numeral → List Char
  | none => []
  | some n => ',' :: n.digits

/-- What stands behind the numeral of the start. -/
def tail (header : HeaderText) : List Char :=
  countText header.count? ++ (" @@".toList ++ header.rest)

def newSide (header : HeaderText) : List Char := header.start.digits ++ header.tail

def text (header : HeaderText) : Line :=
  "@@ ".toList ++ (header.oldSide ++ '+' :: header.newSide)

theorem bne_plus_of_mem_oldSide (header : HeaderText) :
    ∀ c ∈ header.oldSide, (c != '+') = true := by
  intro c hc
  rw [bne_iff_ne]
  rintro rfl
  exact header.plus_notMem hc

theorem isAsciiDigit_of_head?_headerEnd {rest : List Char} {c : Char}
    (h : (" @@".toList ++ rest).head? = some c) : isAsciiDigit c = false := by
  obtain rfl := Option.some.inj h
  rfl

theorem isAsciiDigit_of_head?_tail {header : HeaderText} {c : Char}
    (h : header.tail.head? = some c) : isAsciiDigit c = false := by
  rw [tail] at h
  cases hCount : header.count? with
  | none =>
    rw [hCount] at h
    exact isAsciiDigit_of_head?_headerEnd h
  | some n =>
    rw [hCount] at h
    obtain rfl := Option.some.inj h
    rfl

end HeaderText

namespace Hunk

variable {rest : List Char}

theorem readNumber?_append (n : Numeral)
    (hRest : ∀ c, rest.head? = some c → isAsciiDigit c = false) :
    readNumber? (n.digits ++ rest) = (Decimal.word? n.digits).map (·, rest) := by
  have hSome : ¬n.digits.isEmpty = true := by
    rw [List.isEmpty_iff]
    exact n.ne_nil
  rw [readNumber?, Decimal.spanDigits_append n.isAsciiDigit_of_mem hRest, if_neg hSome]

theorem exists_numeral_of_readNumber? {text : List Char} {n : UInt32}
    (h : readNumber? text = some (n, rest)) :
    ∃ numeral : Numeral, text = numeral.digits ++ rest := by
  rw [readNumber?] at h
  split at h
  · cases h
  · rename_i hSome
    obtain ⟨_, -, hRest⟩ := Option.map_eq_some_iff.mp h
    obtain ⟨-, rfl⟩ := Prod.mk.inj hRest
    refine ⟨⟨(Decimal.spanDigits text).1, ?_, ?_⟩, ?_⟩
    · rwa [List.isEmpty_iff] at hSome
    · exact fun c => List.mem_takeWhile_imp
    · exact List.takeWhile_append_dropWhile.symm

theorem readNumber?_append_headerEnd (n : Numeral) (rest : List Char) :
    readNumber? (n.digits ++ (" @@".toList ++ rest)) =
      (Decimal.word? n.digits).map (·, " @@".toList ++ rest) :=
  readNumber?_append n fun _ => HeaderText.isAsciiDigit_of_head?_headerEnd

theorem ofNewSide?_newSide (header : HeaderText) :
    ofNewSide? header.newSide = (Decimal.word? header.start.digits).bind fun start =>
      (header.count?.elim (some 1) fun n => Decimal.word? n.digits).map (⟨start, ·⟩) := by
  have hEnd : headerEnd.isPrefixOf (" @@".toList ++ header.rest) = true := by
    simp [headerEnd]
  have hStart : readNumber? header.newSide =
      (Decimal.word? header.start.digits).map (·, header.tail) :=
    readNumber?_append header.start fun _ => HeaderText.isAsciiDigit_of_head?_tail
  rw [ofNewSide?, hStart]
  cases Decimal.word? header.start.digits with
  | none => rfl
  | some start =>
    rw [HeaderText.tail]
    cases header.count? with
    | none => exact if_pos hEnd
    | some n =>
      simp only [HeaderText.countText, Option.map_some, List.cons_append,
        readNumber?_append_headerEnd, Option.bind_some, Option.elim_some]
      cases Decimal.word? n.digits with
      | none => rfl
      | some count => exact if_pos hEnd

theorem exists_newSide_of_ofNewSide? {text : List Char} {hunk : Hunk}
    (h : ofNewSide? text = some hunk) :
    ∃ start count? rest, text = Numeral.digits start ++ (HeaderText.countText count? ++
      (" @@".toList ++ rest)) := by
  have hPrefix : ∀ {behind : List Char} {answer : Hunk},
      (if headerEnd.isPrefixOf behind then some answer else none) = some hunk →
        ∃ rest, behind = " @@".toList ++ rest := by
    intro behind answer hSome
    obtain ⟨hEnd, -⟩ := Option.ite_none_right_eq_some.mp hSome
    obtain ⟨rest, hRest⟩ := List.isPrefixOf_iff_prefix.mp hEnd
    exact ⟨rest, hRest.symm⟩
  rw [ofNewSide?] at h
  split at h
  · cases h
  · rename_i start behind hStart
    split at h
    · rename_i count rest hCount
      obtain ⟨startNumeral, rfl⟩ := exists_numeral_of_readNumber? hStart
      obtain ⟨countNumeral, rfl⟩ := exists_numeral_of_readNumber? hCount
      obtain ⟨rest, rfl⟩ := hPrefix h
      exact ⟨startNumeral, some countNumeral, rest, rfl⟩
    · cases h
  · rename_i start behind hStart
    obtain ⟨startNumeral, rfl⟩ := exists_numeral_of_readNumber? hStart
    obtain ⟨rest, rfl⟩ := hPrefix h
    exact ⟨startNumeral, none, rest, rfl⟩

theorem ofHeader?_text (header : HeaderText) :
    ofHeader? header.text = ofNewSide? header.newSide := by
  rw [ofHeader?, HeaderText.text, dropStart?_append]
  simp only [List.dropWhile_append_of_pos header.bne_plus_of_mem_oldSide]
  rw [List.dropWhile_cons_of_neg (by decide)]

theorem ofHeader?_text_eq_some_iff {header : HeaderText} {hunk : Hunk} :
    ofHeader? header.text = some hunk ↔
      header.start.value = hunk.start.toNat ∧ header.count = hunk.count.toNat := by
  have hCount : ∀ {count}, (header.count?.elim (some 1) fun n => Decimal.word? n.digits) =
      some count ↔ header.count = count.toNat := by
    intro count
    rw [HeaderText.count]
    cases header.count? with
    | none => rw [Option.elim_none, Option.elim_none, Option.some_inj, ← UInt32.toNat_inj]; rfl
    | some n => exact Decimal.word?_eq_some_iff
  simp only [ofHeader?_text, ofNewSide?_newSide, Option.bind_eq_some_iff, Option.map_eq_some_iff,
    hCount, Decimal.word?_eq_some_iff]
  constructor
  · rintro ⟨start, hStart, count, hCount, rfl⟩
    exact ⟨hStart, hCount⟩
  · rintro ⟨hStart, hCount⟩
    exact ⟨hunk.start, hStart, hunk.count, hCount, rfl⟩

theorem exists_text_of_ofHeader? {line : Line} {hunk : Hunk} (h : ofHeader? line = some hunk) :
    ∃ header : HeaderText, line = header.text := by
  rw [ofHeader?] at h
  split at h
  · cases h
  · rename_i text hText
    split at h
    · cases h
    · rename_i mark newSide hPlus
      obtain ⟨start, count?, rest, rfl⟩ := exists_newSide_of_ofNewSide? h
      have hMark : mark = '+' := by
        have hNot := List.head?_dropWhile_not (· != '+') text
        rw [hPlus] at hNot
        simpa using hNot
      subst hMark
      refine ⟨⟨text.takeWhile (· != '+'), start, count?, rest, ?_⟩, ?_⟩
      · intro hMem
        simpa using List.mem_takeWhile_imp hMem
      · rw [eq_append_of_dropStart? hText, HeaderText.text, HeaderText.newSide, HeaderText.tail,
          ← hPlus, List.takeWhile_append_dropWhile]

end Hunk

namespace HeaderText

theorem countText_append_inj {count? other? : Option Numeral} {rest rest' : List Char}
    (h : countText count? ++ (" @@".toList ++ rest) = countText other? ++ (" @@".toList ++ rest')) :
    count? = other? ∧ rest = rest' := by
  cases count? with
  | none =>
    cases other? with
    | none => exact ⟨rfl, List.append_cancel_left h⟩
    | some m => exact absurd (List.cons.inj h).1 (by decide)
  | some n =>
    cases other? with
    | none => exact absurd (List.cons.inj h).1 (by decide)
    | some m =>
      obtain ⟨hDigits, hEnd⟩ := append_inj_of_forall_mem (List.cons.inj h).2 n.isAsciiDigit_of_mem
        m.isAsciiDigit_of_mem (fun _ => isAsciiDigit_of_head?_headerEnd)
        (fun _ => isAsciiDigit_of_head?_headerEnd)
      exact ⟨congrArg some (Numeral.ext hDigits), List.append_cancel_left hEnd⟩

theorem text_injective {header other : HeaderText} (h : header.text = other.text) :
    header = other := by
  have hPlus : ∀ {side : List Char} {c : Char}, ('+' :: side).head? = some c →
      (c != '+') = false := by
    intro side c hc
    obtain rfl := Option.some.inj hc
    rfl
  obtain ⟨hOld, hNew⟩ := append_inj_of_forall_mem (List.append_cancel_left h)
    header.bne_plus_of_mem_oldSide other.bne_plus_of_mem_oldSide (fun _ => hPlus) (fun _ => hPlus)
  obtain ⟨hStart, hTail⟩ := append_inj_of_forall_mem (List.cons.inj hNew).2
    header.start.isAsciiDigit_of_mem other.start.isAsciiDigit_of_mem
    (fun _ => isAsciiDigit_of_head?_tail) (fun _ => isAsciiDigit_of_head?_tail)
  obtain ⟨hCount, hRest⟩ := countText_append_inj hTail
  exact HeaderText.ext hOld (Numeral.ext hStart) hCount hRest

end HeaderText

theorem Hunk.exists_ofHeader?_eq_some_iff {line : Line} :
    (∃ hunk, ofHeader? line = some hunk) ↔ ∃ header : HeaderText, line = header.text ∧
      header.start.value ≤ 4294967295 ∧ header.count ≤ 4294967295 := by
  constructor
  · rintro ⟨hunk, h⟩
    obtain ⟨header, rfl⟩ := exists_text_of_ofHeader? h
    obtain ⟨hStart, hCount⟩ := ofHeader?_text_eq_some_iff.mp h
    exact ⟨header, rfl, hStart ▸ Nat.le_of_lt_succ hunk.start.toNat_lt,
      hCount ▸ Nat.le_of_lt_succ hunk.count.toNat_lt⟩
  · rintro ⟨header, rfl, hStart, hCount⟩
    refine ⟨⟨UInt32.ofNat header.start.value, UInt32.ofNat header.count⟩, ?_⟩
    rw [ofHeader?_text_eq_some_iff]
    constructor
    · exact (UInt32.toNat_ofNat_of_lt' (Nat.lt_succ_of_le hStart)).symm
    · exact (UInt32.toNat_ofNat_of_lt' (Nat.lt_succ_of_le hCount)).symm

/-- A text is read as a hunk exactly if it has the form of a header and its numbers fit in 32 bits,
and the hunk holds these numbers. Every other text is refused as it stands, and no text has the form
in two ways. -/
theorem Hunk.ofHeader_reads_headerText (line : Line) :
    (∀ hunk, ofHeader line = .ok hunk ↔ ∃ header : HeaderText, line = header.text ∧
      header.start.value = hunk.start.toNat ∧ header.count = hunk.count.toNat) ∧
    (∀ e, ofHeader line = .error e ↔ e = .malformed line ∧
      ¬∃ header : HeaderText, line = header.text ∧
        header.start.value ≤ 4294967295 ∧ header.count ≤ 4294967295) ∧
    ∀ header other : HeaderText, line = header.text → line = other.text → header = other := by
  refine ⟨?_, ?_, ?_⟩
  · intro hunk
    rw [ofHeader_eq_ok_iff]
    constructor
    · intro h
      obtain ⟨header, rfl⟩ := exists_text_of_ofHeader? h
      exact ⟨header, rfl, ofHeader?_text_eq_some_iff.mp h⟩
    · rintro ⟨header, rfl, hNumbers⟩
      exact ofHeader?_text_eq_some_iff.mpr hNumbers
  · intro e
    rw [ofHeader_eq_error_iff, ← exists_ofHeader?_eq_some_iff, Option.eq_none_iff_forall_ne_some,
      not_exists]
  · intro header other hHeader hOther
    exact HeaderText.text_injective (hHeader.symm.trans hOther)

example : Hunk.ofHeader "@@ x@@ +007,0 @@ +1 @@".toList = .ok ⟨7, 0⟩ := by decide

end TouchedLines
