import TouchedLines.Json.Token

/-! # Reading a JSON document

Tokens are read one at a time against a stack of the arrays and objects that are still open, so
that nesting has no limit. The tokens of a value are read as that value, whatever is open around it
(`run?_tokens`), so a value is read back from its tokens (`ofTokens?_tokens`).
-/

namespace TouchedLines.Json

/-- An array or object that is open around the value being read. -/
inductive Frame where
  /-- The items before the value, the last one first. -/
  | array (before : List Json)
  /-- The members before the value, the last one first, and the key of the value. -/
  | member (before : List Member) (key : Option String)

inductive Need where
  | value
  /-- A key, after the members in front of it. -/
  | key (before : List Member)
  /-- The colon after a key. -/
  | colon (before : List Member) (key : Option String)
  /-- A value is complete: a comma or the end of what is open. -/
  | next (v : Json)

structure Reading where
  frames : List Frame
  need : Need

/-- Takes one token. An array or object may end where a value or key is due only if it is empty. -/
def Reading.step? : Reading → Token → Option Reading
  | ⟨frames, .value⟩, .atom a => some ⟨frames, .next (.atom a)⟩
  | ⟨frames, .value⟩, .openArray => some ⟨.array [] :: frames, .value⟩
  | ⟨frames, .value⟩, .openObject => some ⟨frames, .key []⟩
  | ⟨.array [] :: frames, .value⟩, .closeArray => some ⟨frames, .next (.array [])⟩
  | ⟨frames, .key []⟩, .closeObject => some ⟨frames, .next (.object [])⟩
  | ⟨frames, .key before⟩, .atom (.string key) => some ⟨frames, .colon before key⟩
  | ⟨frames, .colon before key⟩, .colon => some ⟨.member before key :: frames, .value⟩
  | ⟨.array before :: frames, .next v⟩, .comma => some ⟨.array (v :: before) :: frames, .value⟩
  | ⟨.array before :: frames, .next v⟩, .closeArray =>
    some ⟨frames, .next (.array (v :: before).reverse)⟩
  | ⟨.member before key :: frames, .next v⟩, .comma => some ⟨frames, .key ((key, v) :: before)⟩
  | ⟨.member before key :: frames, .next v⟩, .closeObject =>
    some ⟨frames, .next (.object ((key, v) :: before).reverse)⟩
  | _, _ => none

def Reading.run? : Reading → List Token → Option Reading
  | r, [] => some r
  | r, t :: tokens =>
    match r.step? t with
    | none => none
    | some r' => Reading.run? r' tokens

/-- The value that a reading has come to, if nothing is open. -/
def Reading.result? : Reading → Option Json
  | ⟨[], .next v⟩ => some v
  | _ => none

def ofTokens? (tokens : List Token) : Option Json :=
  (Reading.run? ⟨[], .value⟩ tokens).bind Reading.result?

def ofText? (text : List Char) : Option Json := (Token.ofText? text).bind ofTokens?

mutual

def tokens : Json → List Token
  | .atom a => [.atom a]
  | .array [] => [.openArray, .closeArray]
  | .array (item :: items) => .openArray :: tokens item ++ itemTokens items ++ [.closeArray]
  | .object [] => [.openObject, .closeObject]
  | .object ((key, v) :: members) =>
    .openObject :: .atom (.string key) :: .colon :: tokens v ++ memberTokens members ++
      [.closeObject]

/-- The tokens of the items after the first. -/
def itemTokens : List Json → List Token
  | [] => []
  | item :: items => .comma :: tokens item ++ itemTokens items

/-- The tokens of the members after the first. -/
def memberTokens : List (Option String × Json) → List Token
  | [] => []
  | (key, v) :: members =>
    .comma :: .atom (.string key) :: .colon :: tokens v ++ memberTokens members

end

mutual

theorem run?_tokens (frames : List Frame) (rest : List Token) :
    (v : Json) → Reading.run? ⟨frames, .value⟩ (tokens v ++ rest) =
      Reading.run? ⟨frames, .next v⟩ rest
  | .atom a => by simp [tokens, Reading.run?, Reading.step?]
  | .array [] => by simp [tokens, Reading.run?, Reading.step?]
  | .array (item :: items) => by
    simp only [tokens, List.cons_append, List.append_assoc, List.nil_append, Reading.run?,
      Reading.step?]
    rw [run?_tokens _ _ item, run?_itemTokens _ _ _ _ items]
    simp
  | .object [] => by simp [tokens, Reading.run?, Reading.step?]
  | .object ((key, v) :: members) => by
    simp only [tokens, List.cons_append, List.append_assoc, List.nil_append, Reading.run?,
      Reading.step?]
    rw [run?_tokens _ _ v, run?_memberTokens _ _ _ _ _ members]
    simp

theorem run?_itemTokens (frames : List Frame) (before : List Json) (last : Json)
    (rest : List Token) : (items : List Json) →
      Reading.run? ⟨.array before :: frames, .next last⟩
        (itemTokens items ++ .closeArray :: rest) =
      Reading.run? ⟨frames, .next (.array (before.reverse ++ last :: items))⟩ rest
  | [] => by simp [itemTokens, Reading.run?, Reading.step?]
  | item :: items => by
    simp only [itemTokens, List.cons_append, List.append_assoc, Reading.run?, Reading.step?]
    rw [run?_tokens _ _ item, run?_itemTokens _ _ _ _ items]
    simp

theorem run?_memberTokens (frames : List Frame) (before : List Member) (key : Option String)
    (last : Json) (rest : List Token) : (members : List Member) →
      Reading.run? ⟨.member before key :: frames, .next last⟩
        (memberTokens members ++ .closeObject :: rest) =
      Reading.run? ⟨frames, .next (.object (before.reverse ++ (key, last) :: members))⟩ rest
  | [] => by simp [memberTokens, Reading.run?, Reading.step?]
  | (k, v) :: members => by
    simp only [memberTokens, List.cons_append, List.append_assoc, Reading.run?, Reading.step?]
    rw [run?_tokens _ _ v, run?_memberTokens _ _ _ _ _ members]
    simp

end

theorem ofTokens?_tokens (v : Json) : ofTokens? (tokens v) = some v := by
  have h := run?_tokens [] [] v
  rw [List.append_nil] at h
  simp [ofTokens?, h, Reading.run?, Reading.result?]

end TouchedLines.Json
