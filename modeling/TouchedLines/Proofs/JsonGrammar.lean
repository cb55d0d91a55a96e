import Mathlib.Data.List.Chain
import TouchedLines.Proofs.JsonTokens

/-! # The grammar of JSON texts

A text spells a value if it consists of the tokens of the value, each written in one of its ways,
with blanks around them. No two atoms stand next to each other in a value, so that the text tells
where each token ends: every text that spells a value is read as that value. Conversely a text that
is read spells what it is read as, since what a reading has taken can be told from what is open and
what it needs next.
-/

namespace TouchedLines.Json

/-- The text consists of the tokens with blanks before, between and behind them. -/
inductive Token.AreSpelled : List Token → List Char → Prop where
  | nil {blanks : List Char} (hBlanks : ∀ c ∈ blanks, isSpace c = true) : AreSpelled [] blanks
  | cons {t : Token} {tokens : List Token} {blanks written rest : List Char}
      (hBlanks : ∀ c ∈ blanks, isSpace c = true) (hToken : t.IsSpelled written)
      (hRest : AreSpelled tokens rest) : AreSpelled (t :: tokens) (blanks ++ (written ++ rest))

def IsSpelled (v : Json) (text : List Char) : Prop := Token.AreSpelled (tokens v) text

/-! ## Texts -/

/-- No two tokens that stand next to each other are both atoms, whose texts could run together. -/
def Token.AreApart (tokens : List Token) : Prop :=
  tokens.IsChain fun t u => t.isMark = true ∨ u.isMark = true

def Token.StartWithMark (tokens : List Token) : Prop :=
  ∀ t, tokens.head? = some t → t.isMark = true

theorem Token.AreApart.mark_cons {t : Token} {tokens : List Token} (h : AreApart tokens)
    (hMark : t.isMark = true) : AreApart (t :: tokens) :=
  List.isChain_cons.mpr ⟨fun _ _ => .inl hMark, h⟩

theorem Token.AreApart.atom_cons {a : Atom} {tokens : List Token} (h : AreApart tokens)
    (hMark : StartWithMark tokens) : AreApart (.atom a :: tokens) :=
  List.isChain_cons.mpr ⟨fun t ht => .inr (hMark t ht), h⟩

theorem Token.startWithMark_cons {t : Token} {tokens : List Token} (h : t.isMark = true) :
    StartWithMark (t :: tokens) := by
  intro u hu
  cases hu
  exact h

theorem startWithMark_itemTokens_append (items : List Json) {rest : List Token}
    (h : Token.StartWithMark rest) : Token.StartWithMark (itemTokens items ++ rest) := by
  cases items with
  | nil => exact h
  | cons => exact Token.startWithMark_cons rfl

theorem startWithMark_memberTokens_append (members : List Member) {rest : List Token}
    (h : Token.StartWithMark rest) : Token.StartWithMark (memberTokens members ++ rest) := by
  cases members with
  | nil => exact h
  | cons => exact Token.startWithMark_cons rfl

mutual

theorem areApart_tokens_append {rest : List Token} (hRest : Token.AreApart rest)
    (hMark : Token.StartWithMark rest) : (v : Json) → Token.AreApart (tokens v ++ rest)
  | .atom a => hRest.atom_cons hMark
  | .array [] => (hRest.mark_cons rfl).mark_cons rfl
  | .array (item :: items) => by
    have hEnd : Token.AreApart (.closeArray :: rest) := hRest.mark_cons rfl
    have hItem := areApart_tokens_append
      (areApart_itemTokens_append hEnd (Token.startWithMark_cons rfl) items)
      (startWithMark_itemTokens_append items (Token.startWithMark_cons rfl)) item
    simpa [tokens] using hItem.mark_cons rfl
  | .object [] => (hRest.mark_cons rfl).mark_cons rfl
  | .object ((key, v) :: members) => by
    have hEnd : Token.AreApart (.closeObject :: rest) := hRest.mark_cons rfl
    have hValue := areApart_tokens_append
      (areApart_memberTokens_append hEnd (Token.startWithMark_cons rfl) members)
      (startWithMark_memberTokens_append members (Token.startWithMark_cons rfl)) v
    have hMember := (hValue.mark_cons (t := .colon) rfl).atom_cons (a := .string key)
      (Token.startWithMark_cons rfl)
    simpa [tokens] using hMember.mark_cons rfl

theorem areApart_itemTokens_append {rest : List Token} (hRest : Token.AreApart rest)
    (hMark : Token.StartWithMark rest) :
    (items : List Json) → Token.AreApart (itemTokens items ++ rest)
  | [] => hRest
  | item :: items => by
    have hItem := areApart_tokens_append (areApart_itemTokens_append hRest hMark items)
      (startWithMark_itemTokens_append items hMark) item
    simpa [itemTokens] using hItem.mark_cons rfl

theorem areApart_memberTokens_append {rest : List Token} (hRest : Token.AreApart rest)
    (hMark : Token.StartWithMark rest) :
    (members : List (Option String × Json)) → Token.AreApart (memberTokens members ++ rest)
  | [] => hRest
  | (key, v) :: members => by
    have hValue := areApart_tokens_append (areApart_memberTokens_append hRest hMark members)
      (startWithMark_memberTokens_append members hMark) v
    have hMember := (hValue.mark_cons (t := .colon) rfl).atom_cons (a := .string key)
      (Token.startWithMark_cons rfl)
    simpa [memberTokens] using hMember.mark_cons rfl

end

theorem areApart_tokens (v : Json) : Token.AreApart (tokens v) := by
  have hNil : Token.StartWithMark [] := by
    intro t ht
    cases ht
  simpa using areApart_tokens_append .nil hNil v

theorem endsNumber_of_areSpelled {tokens : List Token} {text : List Char}
    (h : Token.AreSpelled tokens text) (hMark : Token.StartWithMark tokens) : EndsNumber text := by
  cases h with
  | nil hBlanks =>
    cases text with
    | nil => exact endsNumber_nil
    | cons c => exact endsNumber_space_cons (hBlanks c List.mem_cons_self) _
  | @cons t tokens blanks written rest hBlanks hToken hRest =>
    cases blanks with
    | cons c => exact endsNumber_space_cons (hBlanks c List.mem_cons_self) _
    | nil =>
      have hFirst := hMark t rfl
      cases t with
      | atom => cases hFirst
      | _ =>
        rw [Token.IsSpelled] at hToken
        rw [hToken]
        exact endsNumber_cons (by decide)

theorem Token.ofText?_of_areSpelled {tokens : List Token} {text : List Char}
    (h : AreSpelled tokens text) (hApart : AreApart tokens) :
    Token.ofText? text = some tokens := by
  induction h with
  | @nil blanks hBlanks =>
    have hText := ofText?_blanks_append hBlanks []
    rwa [List.append_nil, ofText?_nil] at hText
  | @cons t tokens blanks written rest hBlanks hToken hRest ih =>
    obtain ⟨hNext, hApart⟩ := List.isChain_cons.mp hApart
    have hEnd : t.isMark = true ∨ EndsNumber rest := by
      cases t with
      | atom a =>
        refine .inr (endsNumber_of_areSpelled hRest fun u hu => ?_)
        exact (hNext u hu).resolve_left (by simp [Token.isMark])
      | _ => exact .inl rfl
    rw [ofText?_blanks_append hBlanks, ofText?_of_readToken? (readToken?_append hToken hEnd),
      ih hApart, Option.map_some]

theorem Token.areSpelled_of_ofText? {tokens : List Token} {text : List Char}
    (h : Token.ofText? text = some tokens) : AreSpelled tokens text := by
  have hSplit : text.takeWhile isSpace ++ text.dropWhile isSpace = text :=
    List.takeWhile_append_dropWhile
  have hBlanks : ∀ c ∈ text.takeWhile isSpace, isSpace c = true :=
    fun _ => List.mem_takeWhile_imp
  rw [Token.ofText?_eq] at h
  split at h
  · rename_i hDrop
    cases h
    rw [hDrop, List.append_nil] at hSplit
    rw [← hSplit]
    exact .nil hBlanks
  · rename_i c tail hDrop
    obtain ⟨⟨t, rest⟩, hToken, h⟩ := Option.bind_eq_some_iff.mp h
    obtain ⟨others, hOthers, rfl⟩ := Option.map_eq_some_iff.mp h
    have hShorter : rest.length < text.length := by
      have hLength := length_lt_of_readToken? hToken
      rw [← hDrop] at hLength
      exact hLength.trans_le (length_dropWhile_le isSpace text)
    obtain ⟨written, hText, hWritten⟩ := exists_spelled_of_readToken? hToken
    rw [← hSplit, hDrop, hText]
    exact .cons hBlanks hWritten (areSpelled_of_ofText? hOthers)
termination_by text.length

/-! ## Readings -/

def itemsBefore (items : List Json) : List Token := items.flatMap fun v => tokens v ++ [.comma]

def keyedTokens (m : Member) : List Token := .atom (.string m.1) :: .colon :: tokens m.2

def membersBefore (members : List Member) : List Token :=
  members.flatMap fun m => keyedTokens m ++ [.comma]

theorem tokens_itemTokens_concat (first last : Json) (items : List Json) :
    tokens first ++ itemTokens (items ++ [last]) = itemsBefore (first :: items) ++ tokens last := by
  induction items generalizing first with
  | nil => simp [itemsBefore, itemTokens]
  | cons item items ih =>
    rw [List.cons_append, itemTokens, List.cons_append, ih item]
    simp [itemsBefore]

theorem keyedTokens_memberTokens_concat (first last : Member) (members : List Member) :
    keyedTokens first ++ memberTokens (members ++ [last]) =
      membersBefore (first :: members) ++ keyedTokens last := by
  induction members generalizing first with
  | nil => simp [membersBefore, memberTokens, keyedTokens]
  | cons m members ih =>
    have hTail : memberTokens (m :: members ++ [last]) =
        .comma :: (keyedTokens m ++ memberTokens (members ++ [last])) := rfl
    rw [hTail, ih m]
    simp [membersBefore]

theorem tokens_array_concat (items : List Json) (last : Json) :
    tokens (.array (items ++ [last])) =
      .openArray :: itemsBefore items ++ tokens last ++ [.closeArray] := by
  cases items with
  | nil => simp [tokens, itemsBefore, itemTokens]
  | cons item items =>
    rw [List.cons_append, tokens, List.cons_append, tokens_itemTokens_concat]
    rfl

theorem tokens_object_concat (members : List Member) (last : Member) :
    tokens (.object (members ++ [last])) =
      .openObject :: membersBefore members ++ keyedTokens last ++ [.closeObject] := by
  cases members with
  | nil => simp [tokens, membersBefore, memberTokens, keyedTokens]
  | cons m members =>
    have hTokens : tokens (.object (m :: members ++ [last])) =
        .openObject :: (keyedTokens m ++ memberTokens (members ++ [last])) ++ [.closeObject] := rfl
    rw [hTokens, keyedTokens_memberTokens_concat]
    rfl

def Frame.taken : Frame → List Token
  | .array before => .openArray :: itemsBefore before.reverse
  | .member before key =>
    .openObject :: membersBefore before.reverse ++ [.atom (.string key), .colon]

def Need.taken : Need → List Token
  | .value => []
  | .key before => .openObject :: membersBefore before.reverse
  | .colon before name => .openObject :: membersBefore before.reverse ++ [.atom (.string name)]
  | .next v => tokens v

def Reading.taken (r : Reading) : List Token := r.frames.reverse.flatMap Frame.taken ++ r.need.taken

theorem Reading.taken_step? {r r' : Reading} {t : Token} (h : r.step? t = some r') :
    r'.taken = r.taken ++ [t] := by
  unfold Reading.step? at h
  -- every way to take a token leaves what is open, with the token behind it
  split at h <;> cases h <;>
    simp [Reading.taken, Frame.taken, Need.taken, tokens, itemsBefore, membersBefore, keyedTokens,
      tokens_array_concat, tokens_object_concat]

theorem Reading.taken_run? {r r' : Reading} {tokens : List Token} (h : r.run? tokens = some r') :
    r'.taken = r.taken ++ tokens := by
  induction tokens generalizing r with
  | nil =>
    cases h
    rw [List.append_nil]
  | cons t tokens ih =>
    rw [Reading.run?] at h
    split at h
    · cases h
    · rename_i next hStep
      rw [ih h, Reading.taken_step? hStep, List.append_assoc, List.singleton_append]

theorem ofTokens?_eq_some_iff {read : List Token} {v : Json} :
    ofTokens? read = some v ↔ read = tokens v := by
  constructor
  · intro h
    obtain ⟨⟨frames, need⟩, hRun, hResult⟩ := Option.bind_eq_some_iff.mp h
    unfold Reading.result? at hResult
    split at hResult
    · rename_i hReading
      cases hReading
      cases hResult
      simpa [Reading.taken, Need.taken] using (Reading.taken_run? hRun).symm
    · cases hResult
  · rintro rfl
    exact ofTokens?_tokens v

/-- A text is read as a value exactly if it spells the value. -/
theorem ofText?_eq_some_iff {text : List Char} {v : Json} :
    ofText? text = some v ↔ v.IsSpelled text := by
  constructor
  · intro h
    obtain ⟨read, hText, hTokens⟩ := Option.bind_eq_some_iff.mp h
    obtain rfl := ofTokens?_eq_some_iff.mp hTokens
    exact Token.areSpelled_of_ofText? hText
  · intro h
    rw [ofText?, Token.ofText?_of_areSpelled h (areApart_tokens v), Option.bind_some,
      ofTokens?_tokens]

end TouchedLines.Json
