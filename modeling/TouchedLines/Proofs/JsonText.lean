import TouchedLines.Json.Print
import TouchedLines.Proofs.JsonTokens

/-! # Reading back a printed JSON document

A printed value is cut into the tokens of that value, whatever follows it, as long as what follows
does not continue a number. So a document is read as the value that was printed (`ofText?_pretty`).
The only atoms that need not be read back are numbers with a literal of their own.
-/

namespace TouchedLines.Json

open Text

/-! ## Strings -/

theorem hexValue?_hexDigit (n : Nat) : hexValue? (hexDigit n) = some (n % 16) := by
  have hSmall : ∀ m < 16, hexValue? (hexDigit m) = some m := by decide
  have hMod : hexDigit n = hexDigit (n % 16) := by simp only [hexDigit, Nat.mod_mod]
  rw [hMod]
  exact hSmall _ (Nat.mod_lt _ (by decide))

theorem unit?_hexDigit {n : Nat} (h : n < 256) :
    unit? '0' '0' (hexDigit (n / 16)) (hexDigit n) = some n := by
  have hZero : hexValue? '0' = some 0 := by decide
  simp only [unit?, hZero, hexValue?_hexDigit, Option.some.injEq]
  omega

theorem ofUnit_toNat {c : Char} (h : c < ' ') : Piece.ofUnit c.toNat = .char c := by
  have hNat : c.toNat < 32 := h
  rw [Piece.ofUnit, if_neg (by omega), if_neg (by omega), Char.ofNat_toNat]

theorem areSpelled_escape_append (c : Char) {pieces : List Piece} {written : List Char}
    (h : Piece.AreSpelled pieces written) :
    Piece.AreSpelled (.char c :: pieces) (escape c ++ written) := by
  unfold escape
  split
  · subst c; exact .short rfl h
  split
  · subst c; exact .short rfl h
  split
  · subst c; exact .short rfl h
  split
  · subst c; exact .short rfl h
  split
  · subst c; exact .short rfl h
  split
  · subst c; exact .short rfl h
  split
  · subst c; exact .short rfl h
  split
  · rename_i hControl
    have hNat : c.toNat < 32 := hControl
    rw [← ofUnit_toNat hControl]
    exact .unit (unit?_hexDigit (by omega)) h
  · rename_i hQuote hBackslash _ _ _ _ _ hControl
    exact .plain hQuote hBackslash hControl h

theorem areSpelled_flatMap_escape (text : List Char) :
    Piece.AreSpelled (text.map .char) (text.flatMap escape) := by
  induction text with
  | nil => exact .nil
  | cons c text ih => exact areSpelled_escape_append c ih

theorem join?_map_char (text : List Char) : Piece.join? (text.map .char) = some text := by
  induction text with
  | nil => rfl
  | cons c text ih =>
    rw [List.map_cons, Piece.join?, ih]
    rfl

theorem isSpelled_quote (key : Option String) : (Atom.string key).IsSpelled (quote key) := by
  cases key with
  | none =>
    have hUnit : unit? 'd' '8' '0' '0' = some 0xD800 := by decide
    exact .string (.unit hUnit .nil)
  | some text =>
    have hText := Atom.IsSpelled.string (areSpelled_flatMap_escape text.toList)
    rwa [join?_map_char, Option.map_some, String.ofList_toList] at hText

/-! ## Atoms -/

theorem isWhole_digits (n : Nat) : IsWhole (Decimal.digits n) := by
  obtain rfl | hn := Nat.eq_zero_or_pos n
  · left
    rw [Decimal.digits]
    rfl
  · have hDigits : IsDigits (Decimal.digits n) :=
      ⟨Decimal.digits_ne_nil n, fun _ => Decimal.isAsciiDigit_of_mem_digits⟩
    exact .inr ⟨hDigits, Decimal.head?_digits_ne_zero hn⟩

theorem Atom.isSpelled_render {a : Atom} (h : ∀ literal, a ≠ .number literal) :
    a.IsSpelled a.render := by
  cases a with
  | null => exact .null
  | bool b =>
    cases b with
    | false => exact .false
    | true => exact .true
  | natural n =>
    have hDigits := Atom.IsSpelled.natural (isWhole_digits n)
    rwa [Decimal.value_digits] at hDigits
  | number literal => exact absurd rfl (h literal)
  | string text => exact isSpelled_quote text

/-- What is written for the atom is read as the atom. -/
def Atom.ReadsBack (a : Atom) : Prop :=
  ∀ rest, EndsNumber rest → readToken? (a.render ++ rest) = some (.atom a, rest)

theorem Atom.readsBack {a : Atom} (h : ∀ literal, a ≠ .number literal) : a.ReadsBack :=
  fun _ hRest => readToken?_atom_append (isSpelled_render h) hRest

theorem Token.ofText?_lineStart_append (depth : Nat) (rest : List Char) :
    Token.ofText? (lineStart depth ++ rest) = Token.ofText? rest := by
  refine Token.ofText?_blanks_append ?_ rest
  intro c hc
  obtain rfl | ⟨-, rfl⟩ := List.mem_cons.mp hc |>.imp_right List.mem_replicate.mp <;> rfl

theorem Token.ofText?_mark_cons {c : Char} {t : Token} (h : mark? c = some t) (rest : List Char) :
    Token.ofText? (c :: rest) = (Token.ofText? rest).map (t :: ·) :=
  Token.ofText?_of_readToken? (by rw [readToken?, h])

theorem Token.ofText?_quote_append (key : Option String) {rest : List Char}
    (hRest : EndsNumber rest) :
    Token.ofText? (quote key ++ rest) =
      (Token.ofText? rest).map (.atom (.string key) :: ·) :=
  Token.ofText?_of_readToken? (readToken?_atom_append (isSpelled_quote key) hRest)

/-! ## Values -/

/-- Every atom of the value is read back from what is written for it. -/
inductive ReadsBack : Json → Prop where
  | atom {a : Atom} (h : a.ReadsBack) : ReadsBack (.atom a)
  | array {items : List Json} (h : ∀ item ∈ items, ReadsBack item) : ReadsBack (.array items)
  | object {members : List Member} (h : ∀ m ∈ members, ReadsBack m.2) : ReadsBack (.object members)

theorem readsBack_array_iff {items : List Json} :
    (array items).ReadsBack ↔ ∀ item ∈ items, item.ReadsBack :=
  ⟨fun | .array h => h, .array⟩

theorem readsBack_object_iff {members : List Member} :
    (object members).ReadsBack ↔ ∀ m ∈ members, m.2.ReadsBack :=
  ⟨fun | .object h => h, .object⟩

theorem readsBack_natural (n : Nat) : (natural n).ReadsBack := .atom (Atom.readsBack (by simp))

theorem readsBack_text (s : String) : (text s).ReadsBack := .atom (Atom.readsBack (by simp))

theorem readsBack_array_map {α : Type} {write : α → Json} {xs : List α}
    (h : ∀ x ∈ xs, (write x).ReadsBack) : (array (xs.map write)).ReadsBack := by
  refine .array fun item hItem => ?_
  obtain ⟨x, hx, rfl⟩ := List.mem_map.mp hItem
  exact h x hx

theorem readsBack_record {members : List (String × Json)} (h : ∀ m ∈ members, m.2.ReadsBack) :
    (record members).ReadsBack := by
  refine .object fun member hMember => ?_
  obtain ⟨⟨key, v⟩, hm, rfl⟩ := List.mem_map.mp hMember
  exact h (key, v) hm

theorem endsNumber_lineStart_append (depth : Nat) (rest : List Char) :
    EndsNumber (lineStart depth ++ rest) :=
  endsNumber_cons (by decide)

theorem endsNumber_prettyItems_append (depth : Nat) (items : List Json) {rest : List Char}
    (h : EndsNumber rest) : EndsNumber (prettyItems depth items ++ rest) := by
  cases items with
  | nil => exact h
  | cons => exact endsNumber_cons (by decide)

theorem endsNumber_prettyMembers_append (depth : Nat) (members : List Member) {rest : List Char}
    (h : EndsNumber rest) : EndsNumber (prettyMembers depth members ++ rest) := by
  cases members with
  | nil => exact h
  | cons => exact endsNumber_cons (by decide)

mutual

theorem ofText?_prettyAt_append (depth : Nat) {rest : List Char} (hRest : EndsNumber rest) :
    (v : Json) → v.ReadsBack →
      Token.ofText? (prettyAt depth v ++ rest) = (Token.ofText? rest).map (tokens v ++ ·)
  | .atom a, .atom h => Token.ofText?_of_readToken? (h rest hRest)
  | .array [], _ => by
    simp only [prettyAt, List.cons_append, List.nil_append]
    rw [Token.ofText?_mark_cons rfl, Token.ofText?_mark_cons rfl]
    simp [tokens, Function.comp_def]
  | .array (item :: items), .array h => by
    have hEnd : EndsNumber (lineStart depth ++ ']' :: rest) := endsNumber_lineStart_append _ _
    simp only [prettyAt, List.cons_append, List.append_assoc, List.nil_append]
    rw [Token.ofText?_mark_cons rfl, Token.ofText?_lineStart_append,
      ofText?_prettyAt_append _ (endsNumber_prettyItems_append _ _ hEnd) item
        (h _ List.mem_cons_self),
      ofText?_prettyItems_append _ hEnd items fun _ hi => h _ (List.mem_cons_of_mem _ hi),
      Token.ofText?_lineStart_append, Token.ofText?_mark_cons rfl]
    simp [tokens, Function.comp_def]
  | .object [], _ => by
    simp only [prettyAt, List.cons_append, List.nil_append]
    rw [Token.ofText?_mark_cons rfl, Token.ofText?_mark_cons rfl]
    simp [tokens, Function.comp_def]
  | .object ((key, v) :: members), .object h => by
    have hEnd : EndsNumber (lineStart depth ++ '\x7d' :: rest) := endsNumber_lineStart_append _ _
    simp only [prettyAt, List.cons_append, List.append_assoc, List.nil_append]
    rw [Token.ofText?_mark_cons rfl, Token.ofText?_lineStart_append,
      Token.ofText?_quote_append _ (endsNumber_cons (by decide)),
      Token.ofText?_mark_cons rfl, Token.ofText?_space_cons rfl,
      ofText?_prettyAt_append _ (endsNumber_prettyMembers_append _ _ hEnd) v
        (h _ List.mem_cons_self),
      ofText?_prettyMembers_append _ hEnd members fun _ hm => h _ (List.mem_cons_of_mem _ hm),
      Token.ofText?_lineStart_append, Token.ofText?_mark_cons rfl]
    simp [tokens, Function.comp_def]

theorem ofText?_prettyItems_append (depth : Nat) {rest : List Char} (hRest : EndsNumber rest) :
    (items : List Json) → (∀ item ∈ items, item.ReadsBack) →
      Token.ofText? (prettyItems depth items ++ rest) =
        (Token.ofText? rest).map (itemTokens items ++ ·)
  | [], _ => by simp [prettyItems, itemTokens]
  | item :: items, h => by
    simp only [prettyItems, List.cons_append, List.append_assoc]
    rw [Token.ofText?_mark_cons rfl, Token.ofText?_lineStart_append,
      ofText?_prettyAt_append _ (endsNumber_prettyItems_append _ _ hRest) item
        (h _ List.mem_cons_self),
      ofText?_prettyItems_append _ hRest items fun _ hi => h _ (List.mem_cons_of_mem _ hi)]
    simp [itemTokens, Function.comp_def]

theorem ofText?_prettyMembers_append (depth : Nat) {rest : List Char} (hRest : EndsNumber rest) :
    (members : List (Option String × Json)) → (∀ m ∈ members, m.2.ReadsBack) →
      Token.ofText? (prettyMembers depth members ++ rest) =
        (Token.ofText? rest).map (memberTokens members ++ ·)
  | [], _ => by simp [prettyMembers, memberTokens]
  | (key, v) :: members, h => by
    simp only [prettyMembers, List.cons_append, List.append_assoc]
    rw [Token.ofText?_mark_cons rfl, Token.ofText?_lineStart_append,
      Token.ofText?_quote_append _ (endsNumber_cons (by decide)),
      Token.ofText?_mark_cons rfl, Token.ofText?_space_cons rfl,
      ofText?_prettyAt_append _ (endsNumber_prettyMembers_append _ _ hRest) v
        (h _ List.mem_cons_self),
      ofText?_prettyMembers_append _ hRest members fun _ hm => h _ (List.mem_cons_of_mem _ hm)]
    simp [memberTokens, Function.comp_def]

end

/-- A printed value is read back from a text in which nothing but blanks follows it. -/
theorem ofText?_pretty_append {v : Json} (h : v.ReadsBack) {rest : List Char}
    (hRest : EndsNumber rest) (hBlank : Token.ofText? rest = some []) :
    ofText? (v.pretty ++ rest) = some v := by
  have hTokens : Token.ofText? (v.pretty ++ rest) = some (tokens v) := by
    rw [pretty, ofText?_prettyAt_append 0 hRest v h, hBlank, Option.map_some, List.append_nil]
  rw [ofText?, hTokens, Option.bind_some, ofTokens?_tokens]

theorem ofText?_pretty {v : Json} (h : v.ReadsBack) : ofText? v.pretty = some v := by
  have hText := ofText?_pretty_append h endsNumber_nil Token.ofText?_nil
  rwa [List.append_nil] at hText

end TouchedLines.Json
