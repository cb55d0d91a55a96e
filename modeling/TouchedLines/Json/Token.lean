import TouchedLines.Json.Basic
import TouchedLines.Text.Decimal

/-! # Tokens of a JSON text

Marks and atoms, with blanks between them. A string may hold no control character; an escape may
name any UTF-16 unit, and the two halves of a surrogate pair together name one character.
-/

namespace TouchedLines.Json

open Text

inductive Token where
  | openArray
  | closeArray
  | openObject
  | closeObject
  | comma
  | colon
  | atom (a : Atom)
  deriving Repr, DecidableEq

def isSpace (c : Char) : Bool := c == ' ' || c == '\n' || c == '\r' || c == '\t'

/-- What a string holds: characters, and halves of surrogate pairs that escapes name. -/
inductive Piece where
  | char (c : Char)
  | high (unit : Nat)
  | low (unit : Nat)
  deriving Repr, DecidableEq

namespace Piece

def ofUnit (unit : Nat) : Piece :=
  if 0xD800 ≤ unit ∧ unit < 0xDC00 then high unit
  else if 0xDC00 ≤ unit ∧ unit < 0xE000 then low unit
  else char (Char.ofNat unit)

/-- The character that both halves of a pair name. -/
def pair (high low : Nat) : Char :=
  Char.ofNat (0x10000 + 0x400 * (high - 0xD800) + (low - 0xDC00))

/-- The text that pieces make; a half without its other half makes none. -/
def join? : List Piece → Option (List Char)
  | [] => some []
  | char c :: rest => (join? rest).map (c :: ·)
  | high h :: low l :: rest => (join? rest).map (pair h l :: ·)
  | _ => none

end Piece

def hexValue? (c : Char) : Option Nat :=
  if isAsciiDigit c then some (c.toNat - '0'.toNat)
  else if 'a' ≤ c ∧ c ≤ 'f' then some (c.toNat - 'a'.toNat + 10)
  else if 'A' ≤ c ∧ c ≤ 'F' then some (c.toNat - 'A'.toNat + 10)
  else none

def unit? (a b c d : Char) : Option Nat :=
  match hexValue? a, hexValue? b, hexValue? c, hexValue? d with
  | some a, some b, some c, some d => some (4096 * a + 256 * b + 16 * c + d)
  | _, _, _, _ => none

def escaped? : Char → Option Char
  | '"' => some '"'
  | '\\' => some '\\'
  | '/' => some '/'
  | 'b' => some '\x08'
  | 'f' => some '\x0c'
  | 'n' => some '\n'
  | 'r' => some '\r'
  | 't' => some '\t'
  | _ => none

def consPiece (p : Piece) (read : Option (List Piece × List Char)) :
    Option (List Piece × List Char) :=
  read.map fun (pieces, rest) => (p :: pieces, rest)

/-- The pieces up to the closing quote, and what follows it. -/
def readPieces : List Char → Option (List Piece × List Char)
  | [] => none
  | '"' :: rest => some ([], rest)
  | '\\' :: 'u' :: a :: b :: c :: d :: rest =>
    match unit? a b c d with
    | some unit => consPiece (.ofUnit unit) (readPieces rest)
    | none => none
  | '\\' :: c :: rest =>
    match escaped? c with
    | some e => consPiece (.char e) (readPieces rest)
    | none => none
  | c :: rest => if c < ' ' then none else consPiece (.char c) (readPieces rest)

/-- The whole part of a number: no zero stands in front of another digit. -/
def spanWhole? : List Char → Option (List Char × List Char)
  | [] => none
  | c :: rest =>
    if c = '0' then some ([c], rest)
    else if isAsciiDigit c then some (Decimal.spanDigits (c :: rest))
    else none

/-- A run of digits that must not be empty. -/
def spanSome? (text : List Char) : Option (List Char × List Char) :=
  match Decimal.spanDigits text with
  | ([], _) => none
  | (digits, rest) => some (digits, rest)

def spanFraction? : List Char → Option (List Char × List Char)
  | '.' :: rest => (spanSome? rest).map fun (digits, rest) => ('.' :: digits, rest)
  | rest => some ([], rest)

/-- The sign of an exponent, which may be missing. -/
def spanSign : List Char → List Char × List Char
  | '+' :: rest => (['+'], rest)
  | '-' :: rest => (['-'], rest)
  | rest => ([], rest)

def spanExponent? : List Char → Option (List Char × List Char)
  | [] => some ([], [])
  | c :: rest =>
    if c = 'e' ∨ c = 'E' then
      (spanSome? (spanSign rest).2).map fun (digits, tail) =>
        (c :: (spanSign rest).1 ++ digits, tail)
    else some ([], c :: rest)

/-- A number without its sign: the whole part, the rest of its literal and what follows. -/
def spanUnsigned? (text : List Char) : Option (List Char × List Char × List Char) :=
  match spanWhole? text with
  | none => none
  | some (whole, rest) =>
    match spanFraction? rest with
    | none => none
    | some (fraction, rest) =>
      (spanExponent? rest).map fun (exponent, rest) => (whole, fraction ++ exponent, rest)

def readNumber? : List Char → Option (Atom × List Char)
  | [] => none
  | c :: rest =>
    if c = '-' then
      (spanUnsigned? rest).map fun (whole, more, rest) =>
        (.number (String.ofList (c :: whole ++ more)), rest)
    else
      (spanUnsigned? (c :: rest)).map fun (whole, more, rest) =>
        if more.isEmpty then (.natural (Decimal.value whole), rest)
        else (.number (String.ofList (whole ++ more)), rest)

def readAtom? : List Char → Option (Atom × List Char)
  | '"' :: rest =>
    (readPieces rest).map fun (pieces, rest) =>
      (.string ((Piece.join? pieces).map String.ofList), rest)
  | 'n' :: 'u' :: 'l' :: 'l' :: rest => some (.null, rest)
  | 't' :: 'r' :: 'u' :: 'e' :: rest => some (.bool true, rest)
  | 'f' :: 'a' :: 'l' :: 's' :: 'e' :: rest => some (.bool false, rest)
  | rest => readNumber? rest

def mark? : Char → Option Token
  | '[' => some .openArray
  | ']' => some .closeArray
  | '\x7b' => some .openObject
  | '\x7d' => some .closeObject
  | ',' => some .comma
  | ':' => some .colon
  | _ => none

def readToken? : List Char → Option (Token × List Char)
  | [] => none
  | c :: rest =>
    match mark? c with
    | some t => some (t, rest)
    | none => (readAtom? (c :: rest)).map fun (a, rest) => (.atom a, rest)

theorem exists_of_consPiece {p : Piece} {read : Option (List Piece × List Char)}
    {pieces : List Piece} {rest : List Char} (h : consPiece p read = some (pieces, rest)) :
    ∃ tail, read = some (tail, rest) := by
  obtain ⟨⟨tail, r⟩, hr, he⟩ := Option.map_eq_some_iff.1 h
  obtain ⟨-, rfl⟩ := Prod.mk.inj he
  exact ⟨tail, hr⟩

theorem length_lt_of_readPieces {text rest : List Char} {pieces : List Piece}
    (h : readPieces text = some (pieces, rest)) : rest.length < text.length := by
  fun_induction readPieces text generalizing pieces with
  | case1 => simp at h
  | case2 tail =>
    simp only [Option.some.injEq, Prod.mk.injEq] at h
    simp [← h.2]
  | case3 a b c d tail unit hu ih =>
    obtain ⟨_, hr⟩ := exists_of_consPiece h
    have := ih hr
    simp only [List.length_cons]
    omega
  | case4 => simp at h
  | case5 c tail _ e he ih =>
    obtain ⟨_, hr⟩ := exists_of_consPiece h
    have := ih hr
    simp only [List.length_cons]
    omega
  | case6 => simp at h
  | case7 => simp at h
  | case8 c tail _ _ _ _ ih =>
    obtain ⟨_, hr⟩ := exists_of_consPiece h
    have := ih hr
    simp only [List.length_cons]
    omega

theorem length_spanDigits_le (text : List Char) :
    (Decimal.spanDigits text).2.length ≤ text.length :=
  (List.dropWhile_sublist _).length_le

theorem length_lt_of_spanWhole? {text whole rest : List Char}
    (h : spanWhole? text = some (whole, rest)) : rest.length < text.length := by
  unfold spanWhole? at h
  split at h
  · simp at h
  · rename_i c tail
    split at h
    · simp only [Option.some.injEq, Prod.mk.injEq] at h
      simp [← h.2]
    · split at h
      · rename_i hc
        simp only [Option.some.injEq, Decimal.spanDigits, Prod.mk.injEq] at h
        have : (List.dropWhile isAsciiDigit tail).length ≤ tail.length :=
          (List.dropWhile_sublist _).length_le
        rw [← h.2, List.dropWhile_cons, if_pos hc, List.length_cons]
        omega
      · simp at h

theorem length_le_of_spanSome? {text digits rest : List Char}
    (h : spanSome? text = some (digits, rest)) : rest.length ≤ text.length := by
  unfold spanSome? at h
  split at h
  · simp at h
  · rename_i ds r _ hr
    simp only [Option.some.injEq, Prod.mk.injEq] at h
    rw [← h.2]
    have := length_spanDigits_le text
    rwa [hr] at this

theorem length_le_of_spanFraction? {text fraction rest : List Char}
    (h : spanFraction? text = some (fraction, rest)) : rest.length ≤ text.length := by
  unfold spanFraction? at h
  split at h
  · obtain ⟨⟨ds, r⟩, hr, he⟩ := Option.map_eq_some_iff.1 h
    simp only [Prod.mk.injEq] at he
    have := length_le_of_spanSome? hr
    rw [he.2] at this
    simp only [List.length_cons]
    omega
  · simp only [Option.some.injEq, Prod.mk.injEq] at h
    exact Nat.le_of_eq (congrArg List.length h.2.symm)

theorem length_spanSign_le (text : List Char) : (spanSign text).2.length ≤ text.length := by
  unfold spanSign
  split <;> simp

theorem length_le_of_spanExponent? {text exponent rest : List Char}
    (h : spanExponent? text = some (exponent, rest)) : rest.length ≤ text.length := by
  unfold spanExponent? at h
  split at h
  · simp only [Option.some.injEq, Prod.mk.injEq] at h
    simp [← h.2]
  · rename_i c tail
    split at h
    · obtain ⟨⟨ds, r⟩, hr, he⟩ := Option.map_eq_some_iff.1 h
      simp only [Prod.mk.injEq] at he
      have h₁ := length_le_of_spanSome? hr
      have h₂ := length_spanSign_le tail
      rw [he.2] at h₁
      simp only [List.length_cons]
      omega
    · simp only [Option.some.injEq, Prod.mk.injEq] at h
      exact Nat.le_of_eq (congrArg List.length h.2.symm)

theorem length_lt_of_spanUnsigned? {text whole more rest : List Char}
    (h : spanUnsigned? text = some (whole, more, rest)) : rest.length < text.length := by
  unfold spanUnsigned? at h
  split at h
  · simp at h
  · rename_i hw
    split at h
    · simp at h
    · rename_i hf
      obtain ⟨⟨e, r⟩, hr, he⟩ := Option.map_eq_some_iff.1 h
      simp only [Prod.mk.injEq] at he
      have h₁ := length_lt_of_spanWhole? hw
      have h₂ := length_le_of_spanFraction? hf
      have h₃ := length_le_of_spanExponent? hr
      rw [he.2.2] at h₃
      omega

theorem length_lt_of_readNumber? {text rest : List Char} {a : Atom}
    (h : readNumber? text = some (a, rest)) : rest.length < text.length := by
  unfold readNumber? at h
  split at h
  · simp at h
  · split at h
    · obtain ⟨⟨w, m, r⟩, hr, he⟩ := Option.map_eq_some_iff.1 h
      simp only [Prod.mk.injEq] at he
      have := length_lt_of_spanUnsigned? hr
      rw [he.2] at this
      simp only [List.length_cons]
      omega
    · obtain ⟨⟨w, m, r⟩, hr, he⟩ := Option.map_eq_some_iff.1 h
      have := length_lt_of_spanUnsigned? hr
      have hrest : r = rest := by
        simp only at he
        split at he <;> exact (Prod.mk.inj he).2
      rwa [hrest] at this

theorem length_lt_of_readAtom? {text rest : List Char} {a : Atom}
    (h : readAtom? text = some (a, rest)) : rest.length < text.length := by
  unfold readAtom? at h
  split at h
  · obtain ⟨⟨ps, r⟩, hr, he⟩ := Option.map_eq_some_iff.1 h
    simp only [Prod.mk.injEq] at he
    have := length_lt_of_readPieces hr
    rw [he.2] at this
    simp only [List.length_cons]
    omega
  · simp only [Option.some.injEq, Prod.mk.injEq] at h
    simp only [← h.2, List.length_cons]
    omega
  · simp only [Option.some.injEq, Prod.mk.injEq] at h
    simp only [← h.2, List.length_cons]
    omega
  · simp only [Option.some.injEq, Prod.mk.injEq] at h
    simp only [← h.2, List.length_cons]
    omega
  · exact length_lt_of_readNumber? h

theorem length_lt_of_readToken? {text rest : List Char} {t : Token}
    (h : readToken? text = some (t, rest)) : rest.length < text.length := by
  unfold readToken? at h
  split at h
  · simp at h
  · split at h
    · simp only [Option.some.injEq, Prod.mk.injEq] at h
      simp [← h.2]
    · obtain ⟨⟨a, r⟩, hr, he⟩ := Option.map_eq_some_iff.1 h
      simp only [Prod.mk.injEq] at he
      have := length_lt_of_readAtom? hr
      rwa [he.2] at this

theorem length_dropWhile_le {α : Type} (p : α → Bool) (l : List α) :
    (l.dropWhile p).length ≤ l.length :=
  (List.dropWhile_sublist p).length_le

/-- The tokens of a text, if it consists of tokens and blanks. -/
def Token.ofText? (text : List Char) : Option (List Token) :=
  match h : text.dropWhile isSpace with
  | [] => some []
  | c :: rest =>
    match ht : readToken? (c :: rest) with
    | none => none
    | some (t, rest') =>
      have : rest'.length < text.length := by
        have h₁ := length_lt_of_readToken? ht
        have h₂ := length_dropWhile_le isSpace text
        rw [h] at h₂
        omega
      (Token.ofText? rest').map (t :: ·)
termination_by text.length

end TouchedLines.Json
