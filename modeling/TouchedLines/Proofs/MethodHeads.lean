import Mathlib.Data.List.DropRight
import TouchedLines.Proofs.BlockComments
import TouchedLines.Proofs.Matching
import TouchedLines.Proofs.Semicolons
import TouchedLines.Proofs.WholeWords
import TouchedLines.Script.Parameters

/-! # Heads of methods

The head of a method with a default value can be read in one way only at each place of a line: its
name is the last word in front of the first opening parenthesis. So where the preferred match is
turned down no other match at that place would do, and the search finds a method exactly where a
line has the head of one.
-/

namespace TouchedLines

open Text

namespace Script

open Pattern

/-- A method stands at the start of a line, or right behind an opening brace or a semicolon. -/
def IsMethodEdge (before : List Char) : Prop :=
  before = [] ∨ before.getLast? = some '\x7b' ∨ before.getLast? = some ';'

/-- The word and blanks behind it, or nothing. -/
def IsModifier (word text : List Char) : Prop :=
  text = [] ∨ ∃ gap, text = word ++ gap ∧ gap ≠ [] ∧ ∀ c ∈ gap, isBlank c = true

/-- A character with which the name of a method goes on. -/
def isNamePart (c : Char) : Bool := isWord c || c == '$'

def IsMethodName (name : List Char) : Prop :=
  ∃ first rest, name = first :: rest ∧
    (isAsciiLetter first = true ∨ first = '_' ∨ first = '$') ∧
    ∀ c ∈ rest, isNamePart c = true

/-- The head of a method that gives a parameter a default value, up to its opening brace. -/
structure MethodHead where
  lead : List Char
  async : List Char
  setter : List Char
  name : List Char
  gap : List Char
  parameters : List Char
  last : List Char
  lead_blank : ∀ c ∈ lead, isBlank c = true
  async_modifier : IsModifier "async".toList async
  setter_modifier : IsModifier "set".toList setter
  name_isName : IsMethodName name
  gap_blank : ∀ c ∈ gap, isBlank c = true
  closing_notMem : ')' ∉ parameters
  equals_mem : '=' ∈ parameters
  last_blank : ∀ c ∈ last, isBlank c = true

namespace MethodHead

def parameterList (head : MethodHead) : List Char := '(' :: (head.parameters ++ [')'])

def text (head : MethodHead) : List Char :=
  head.lead ++ (head.async ++ (head.setter ++ (head.name ++ (head.gap ++ (head.parameterList ++
    (head.last ++ ['\x7b']))))))

end MethodHead

/-! ## Parts of the pattern -/

variable {before text after : List Char} {made : List (Nat × List Char)}

/-- What stands between the start of a match and the head of a method. -/
def IsEdge (before edge : List Char) : Prop :=
  edge = [] ∧ before = [] ∨ edge = ['\x7b'] ∨ edge = [';']

theorem spans_methodEdge : methodEdge.Spans before text after made ↔
    IsEdge before text ∧ made = [] := by
  simp only [methodEdge, Spans, CharClass.contains, beq_iff_eq, exists_eq_right, IsEdge]
  tauto

theorem spans_blanks : blanks.Spans before text after made ↔
    (∀ c ∈ text, isBlank c = true) ∧ made = [] := Iff.rfl

theorem spans_modifier {word : String} :
    (Pattern.text word ++ atLeastOne .blank).Spans before text after made ↔
      (∃ gap, text = word.toList ++ gap ∧ gap ≠ [] ∧ ∀ c ∈ gap, isBlank c = true) ∧ made = [] := by
  simp only [spans_append, spans_text, Spans, CharClass.contains]
  constructor
  · rintro ⟨_, gap, _, _, rfl, rfl, ⟨rfl, rfl⟩, hGap, hBlank, rfl⟩
    exact ⟨⟨gap, rfl, hGap, hBlank⟩, rfl⟩
  · rintro ⟨⟨gap, rfl, hGap, hBlank⟩, rfl⟩
    exact ⟨word.toList, gap, [], [], rfl, rfl, ⟨rfl, rfl⟩, hGap, hBlank, rfl⟩

theorem spans_asyncWord : asyncWord.Spans before text after made ↔
    IsModifier "async".toList text ∧ made = [] := by
  rw [asyncWord, IsModifier, or_comm, or_and_right, ← spans_modifier]
  exact Iff.rfl

theorem spans_accessor : accessor.Spans before text after made ↔
    (text = "get".toList ∧ made = [(accessorName, "get".toList)]) ∨
      (IsModifier "set".toList text ∧ made = if text = [] then [] else [(accessorName, text)]) := by
  simp only [accessor, Spans, spans_modifier, spans_text, IsModifier]
  constructor
  · rintro (⟨_, rfl, ⟨rfl, rfl⟩ | ⟨⟨gap, rfl, hGap⟩, rfl⟩⟩ | ⟨rfl, rfl⟩)
    · exact .inl ⟨rfl, rfl⟩
    · exact .inr ⟨.inr ⟨gap, rfl, hGap⟩, rfl⟩
    · exact .inr ⟨.inl rfl, rfl⟩
  · rintro (⟨rfl, rfl⟩ | ⟨rfl | ⟨gap, rfl, hGap⟩, rfl⟩)
    · exact .inl ⟨[], rfl, .inl ⟨rfl, rfl⟩⟩
    · exact .inr ⟨rfl, rfl⟩
    · exact .inl ⟨[], rfl, .inr ⟨⟨gap, rfl, hGap⟩, rfl⟩⟩

theorem spans_method : method.Spans before text after made ↔
    IsMethodName text ∧ made = [(methodName, text)] := by
  have hFirst : ∀ c, (CharClass.oneOf [.range 'A' 'Z', .range 'a' 'z', .char '_',
      .char '$']).contains c = true ↔ isAsciiLetter c = true ∨ c = '_' ∨ c = '$' := by
    intro c
    simp [CharClass.contains, ClassItem.contains, isAsciiLetter]
    tauto
  have hRest : ∀ c, (CharClass.oneOf [.word, .char '$']).contains c = isNamePart c := by
    intro c
    simp [CharClass.contains, ClassItem.contains, isNamePart]
  simp only [method, Spans, spans_append, hFirst, hRest, IsMethodName]
  constructor
  · rintro ⟨_, rfl, _, rest, _, _, rfl, rfl, ⟨⟨first, rfl, hFirst⟩, rfl⟩, hRest, rfl⟩
    exact ⟨⟨first, rest, rfl, hFirst, hRest⟩, rfl⟩
  · rintro ⟨⟨first, rest, rfl, hFirst, hRest⟩, rfl⟩
    exact ⟨[], rfl, [first], rest, [], [], rfl, rfl, ⟨⟨first, rfl, hFirst⟩, rfl⟩, hRest, rfl⟩

theorem spans_without {c : Char} : (without c).Spans before text after made ↔
    c ∉ text ∧ made = [] := by
  have hClass : ∀ d, (CharClass.noneOf [.char c]).contains d = true ↔ d ≠ c := by
    intro d
    simp [CharClass.contains, ClassItem.contains]
  simp only [without, Spans, hClass, List.forall_mem_ne']

theorem spans_defaultList : defaultList.Spans before text after made ↔
    (∃ parameters, text = '(' :: (parameters ++ [')']) ∧ ')' ∉ parameters ∧ '=' ∈ parameters) ∧
      made = [] := by
  constructor
  · simp only [defaultList, spans_append, spans_text, spans_without]
    rintro ⟨_, _, _, _, rfl, rfl, ⟨rfl, rfl⟩, left, _, _, _, rfl, rfl, ⟨hLeft, rfl⟩,
      _, _, _, _, rfl, rfl, ⟨rfl, rfl⟩, right, _, _, _, rfl, rfl, ⟨hRight, rfl⟩, rfl, rfl⟩
    exact ⟨⟨left ++ '=' :: right, by simp, by simp [hLeft, hRight], by simp⟩, rfl⟩
  · rintro ⟨⟨parameters, rfl, hClosing, hEquals⟩, rfl⟩
    obtain ⟨left, right, rfl⟩ := List.append_of_mem hEquals
    rw [List.mem_append, List.mem_cons, not_or, not_or] at hClosing
    obtain ⟨hLeft, -, hRight⟩ := hClosing
    have hSpans :=
      (spans_text.mpr ⟨rfl, rfl⟩ : (Pattern.text "(").Spans before ['('] _ []).append <|
      (spans_without.mpr ⟨hLeft, rfl⟩).append <|
      (spans_text.mpr ⟨rfl, rfl⟩ : (Pattern.text "=").Spans _ ['='] _ []).append <|
      (spans_without.mpr ⟨hRight, rfl⟩).append
      (spans_text.mpr ⟨rfl, rfl⟩ : (Pattern.text ")").Spans _ [')'] after [])
    simpa [defaultList] using hSpans

/-- What a match of the head remembers. The word `get` is taken off the front of a name. -/
def MethodHead.Remembered (head : MethodHead) (made : List (Nat × List Char)) : Prop :=
  made = (methodName, head.name) ::
      (if head.setter = [] then [] else [(accessorName, head.setter)]) ∨
    ∃ rest, head.name = "get".toList ++ rest ∧
      made = [(methodName, rest), (accessorName, "get".toList)]

theorem isNamePart_of_first {c : Char} (h : isAsciiLetter c = true ∨ c = '_' ∨ c = '$') :
    isNamePart c = true := by
  obtain hLetter | rfl | rfl := h
  · have hAscii : c.toNat < 128 := by
      simp only [isAsciiLetter, Bool.or_eq_true, Bool.and_eq_true, decide_eq_true_eq] at hLetter
      obtain ⟨-, hHigh⟩ | ⟨-, hHigh⟩ := hLetter
      · exact Nat.lt_of_le_of_lt (show c.toNat ≤ 122 from hHigh) (by decide)
      · exact Nat.lt_of_le_of_lt (show c.toNat ≤ 90 from hHigh) (by decide)
    simp [isNamePart, isWord, hAscii, isAsciiWord, hLetter]
  · rfl
  · rfl

theorem IsMethodName.ne_nil {name : List Char} (h : IsMethodName name) : name ≠ [] := by
  obtain ⟨first, rest, rfl, -⟩ := h
  exact List.cons_ne_nil first rest

theorem IsMethodName.forall_mem {name : List Char} (h : IsMethodName name) :
    ∀ c ∈ name, isNamePart c = true := by
  obtain ⟨first, rest, rfl, hFirst, hRest⟩ := h
  exact List.forall_mem_cons.mpr ⟨isNamePart_of_first hFirst, hRest⟩

theorem IsMethodName.get_append {name : List Char} (h : IsMethodName name) :
    IsMethodName ("get".toList ++ name) := by
  refine ⟨'g', "et".toList ++ name, rfl, .inl rfl, ?_⟩
  exact List.forall_mem_append.mpr ⟨List.all_eq_true.mp rfl, h.forall_mem⟩

theorem exists_head_of_spans (h : methodDefaults.Spans before text after made) :
    ∃ edge, ∃ head : MethodHead, text = edge ++ head.text ∧ IsEdge before edge ∧
      head.Remembered made := by
  simp only [methodDefaults, spans_append, spans_methodEdge, spans_blanks, spans_asyncWord,
    spans_accessor, spans_method, spans_defaultList] at h
  obtain ⟨edge, _, _, _, rfl, rfl, ⟨hEdge, rfl⟩, lead, _, _, _, rfl, rfl, ⟨hLead, rfl⟩, h⟩ := h
  obtain ⟨async, _, _, _, rfl, rfl, ⟨hAsync, rfl⟩, setter, _, _, _, rfl, rfl, hAccessor, h⟩ := h
  obtain ⟨name, _, _, _, rfl, rfl, ⟨hName, rfl⟩, gap, _, _, _, rfl, rfl, ⟨hGap, rfl⟩, h⟩ := h
  obtain ⟨_, _, _, _, rfl, rfl, ⟨⟨parameters, rfl, hClosing, hEquals⟩, rfl⟩, h⟩ := h
  obtain ⟨last, _, _, _, rfl, rfl, ⟨hLast, rfl⟩, ⟨_, rfl, hBrace⟩, rfl⟩ := h
  obtain rfl := beq_iff_eq.mp hBrace
  obtain ⟨rfl, rfl⟩ | ⟨hSetter, rfl⟩ := hAccessor
  · refine ⟨edge, ⟨lead, async, [], "get".toList ++ name, gap, parameters, last, hLead, hAsync,
      .inl rfl, hName.get_append, hGap, hClosing, hEquals, hLast⟩, ?_, hEdge, ?_⟩
    · simp [MethodHead.text, MethodHead.parameterList]
    · exact .inr ⟨name, rfl, rfl⟩
  · refine ⟨edge, ⟨lead, async, setter, name, gap, parameters, last, hLead, hAsync, hSetter, hName,
      hGap, hClosing, hEquals, hLast⟩, rfl, hEdge, .inl ?_⟩
    simp

theorem exists_spans_of_head {edge : List Char} (hEdge : IsEdge before edge) (head : MethodHead)
    (after : List Char) :
    ∃ made, methodDefaults.Spans before (edge ++ head.text) after made := by
  have hList : ∃ parameters, head.parameterList = '(' :: (parameters ++ [')']) ∧ ')' ∉ parameters ∧
      '=' ∈ parameters := ⟨head.parameters, rfl, head.closing_notMem, head.equals_mem⟩
  exact ⟨_, (spans_methodEdge.mpr ⟨hEdge, rfl⟩).append <|
    (spans_blanks.mpr ⟨head.lead_blank, rfl⟩).append <|
    (spans_asyncWord.mpr ⟨head.async_modifier, rfl⟩).append <|
    (spans_accessor.mpr (.inr ⟨head.setter_modifier, rfl⟩)).append <|
    (spans_method.mpr ⟨head.name_isName, rfl⟩).append <|
    (spans_blanks.mpr ⟨head.gap_blank, rfl⟩).append <|
    (spans_defaultList.mpr ⟨hList, rfl⟩).append <|
    (spans_blanks.mpr ⟨head.last_blank, rfl⟩).append ⟨⟨'\x7b', rfl, rfl⟩, rfl⟩⟩

/-! ## The name of a head -/

/-- The last word in front of the first opening parenthesis. -/
def nameBeforeList (text : List Char) : List Char :=
  (trimEnd (text.takeWhile (· != '('))).rtakeWhile isNamePart

/-- The text does not end in the middle of a word. -/
def EndsApart (text : List Char) : Prop :=
  ∀ c, text.getLast? = some c → isNamePart c = false

theorem EndsApart.append {left right : List Char} (hLeft : EndsApart left)
    (hRight : EndsApart right) : EndsApart (left ++ right) := by
  intro c hc
  rw [List.getLast?_append] at hc
  obtain hc | ⟨-, hc⟩ := Option.or_eq_some_iff.mp hc
  · exact hRight c hc
  · exact hLeft c hc

theorem notMem_of_forall {p : Char → Bool} {text : List Char} {c : Char}
    (h : ∀ d ∈ text, p d = true) (hc : p c = false) : c ∉ text := by
  intro hMem
  rw [h c hMem] at hc
  cases hc

theorem isNamePart_eq_false_of_isBlank {c : Char} (h : isBlank c = true) :
    isNamePart c = false := by
  have hDollar : c ≠ '$' := by
    rintro rfl
    cases h
  simp [isNamePart, isWord_eq_false_of_isBlank h, hDollar]

theorem endsApart_of_blank {text : List Char} (h : ∀ c ∈ text, isBlank c = true) :
    EndsApart text := by
  intro c hc
  exact isNamePart_eq_false_of_isBlank (h c (List.mem_of_getLast? hc))

theorem IsModifier.endsApart {word text : List Char} (h : IsModifier word text) :
    EndsApart text := by
  obtain rfl | ⟨gap, rfl, hGap, hBlank⟩ := h
  · rintro c ⟨⟩
  · intro c hc
    rw [getLast?_append_of_ne_nil hGap] at hc
    exact endsApart_of_blank hBlank c hc

theorem IsEdge.endsApart {before edge : List Char} (h : IsEdge before edge) : EndsApart edge := by
  obtain ⟨rfl, -⟩ | rfl | rfl := h
  · rintro c ⟨⟩
  · rintro c ⟨⟩
    rfl
  · rintro c ⟨⟩
    rfl

theorem rtakeWhile_append_of_endsApart {front name : List Char} (hFront : EndsApart front)
    (hName : ∀ c ∈ name, isNamePart c = true) :
    (front ++ name).rtakeWhile isNamePart = name := by
  rw [List.rtakeWhile, List.reverse_append, List.takeWhile_append_of_pos (by simpa using hName)]
  obtain rfl | ⟨init, last, rfl⟩ := List.eq_nil_or_concat' front
  · simp
  · have hLast : isNamePart last = false := hFront last List.getLast?_concat
    simp [hLast]

theorem IsModifier.notMem {word text : List Char} {c : Char} (h : IsModifier word text)
    (hWord : c ∉ word) (hBlank : isBlank c = false) : c ∉ text := by
  obtain rfl | ⟨gap, rfl, -, hGap⟩ := h
  · exact List.not_mem_nil
  · rw [List.mem_append, not_or]
    exact ⟨hWord, notMem_of_forall hGap hBlank⟩

theorem nameBeforeList_append {edge : List Char} (hEdge : IsEdge before edge) (head : MethodHead)
    (after : List Char) : nameBeforeList (edge ++ (head.text ++ after)) = head.name := by
  let front := edge ++ (head.lead ++ (head.async ++ head.setter))
  have hText : edge ++ (head.text ++ after) = (front ++ head.name ++ head.gap) ++
      '(' :: (head.parameters ++ [')'] ++ (head.last ++ ['\x7b'] ++ after)) := by
    simp [front, MethodHead.text, MethodHead.parameterList]
  have hOpen : ∀ c ∈ front ++ head.name ++ head.gap, (c != '(') = true := by
    have hEdgeOpen : '(' ∉ edge := by
      obtain ⟨rfl, -⟩ | rfl | rfl := hEdge <;> decide
    have hLead : '(' ∉ head.lead := notMem_of_forall head.lead_blank rfl
    have hAsync : '(' ∉ head.async := head.async_modifier.notMem (by decide) rfl
    have hSetter : '(' ∉ head.setter := head.setter_modifier.notMem (by decide) rfl
    have hName : '(' ∉ head.name := notMem_of_forall head.name_isName.forall_mem rfl
    have hGap : '(' ∉ head.gap := notMem_of_forall head.gap_blank rfl
    intro c hc
    rw [bne_iff_ne]
    rintro rfl
    simp [front, *] at hc
  have hApart : EndsApart front := hEdge.endsApart.append
    ((endsApart_of_blank head.lead_blank).append
      (head.async_modifier.endsApart.append head.setter_modifier.endsApart))
  rw [nameBeforeList, hText, List.takeWhile_append_of_pos hOpen,
    List.takeWhile_cons_of_neg (by decide), List.append_nil, trimEnd_append_blanks head.gap_blank,
    trimEnd_eq_self_iff.mpr, rtakeWhile_append_of_endsApart hApart head.name_isName.forall_mem]
  intro c hc
  rw [getLast?_append_of_ne_nil head.name_isName.ne_nil] at hc
  have hRest := head.name_isName.forall_mem c (List.mem_of_getLast? hc)
  rw [← Bool.not_eq_true]
  intro hBlank
  rw [isNamePart_eq_false_of_isBlank hBlank] at hRest
  cases hRest

/-- The name is a keyword of a statement, or starts with one and a character that is no letter, no
number and no underscore. -/
def NamesStatement (name : List Char) : Prop :=
  ∃ keyword ∈ ["if", "for", "while", "switch", "catch"], BeginsWithWord name keyword.toList

theorem isListKeyword_eq_true_iff {name : List Char} :
    isListKeyword name = true ↔ NamesStatement name := by
  simp only [isListKeyword, listKeywords, List.any_eq_true, startsWithWord_eq_true_iff,
    NamesStatement]

theorem not_namesStatement_get_append (name : List Char) :
    ¬NamesStatement ("get".toList ++ name) := by
  rintro ⟨keyword, hKeyword, rest, hName, -⟩
  have hFirst : ∀ keyword ∈ ["if", "for", "while", "switch", "catch"],
      ∃ first others, keyword.toList = first :: others ∧ first ≠ 'g' := by
    simp
  obtain ⟨first, others, hToList, hNot⟩ := hFirst keyword hKeyword
  rw [hToList] at hName
  exact hNot (List.cons.inj hName).1.symm

theorem IsModifier.ne_get {text : List Char} (h : IsModifier "set".toList text) :
    text ≠ "get".toList := by
  obtain rfl | ⟨gap, rfl, -⟩ := h
  · decide
  · intro hEq
    exact absurd (List.cons.inj hEq).1 (by decide)

theorem MethodHead.Remembered.isMethod_eq_true_iff {head : MethodHead} (h : head.Remembered made)
    (before after : List Char) :
    isMethod (.behind before after made) = true ↔ ¬NamesStatement head.name := by
  rw [isMethod, Bool.or_eq_true, Bool.not_eq_true', ← isListKeyword_eq_true_iff, Bool.not_eq_true,
    beq_iff_eq]
  obtain rfl | ⟨rest, hName, rfl⟩ := h
  · refine or_iff_right ?_
    split
    · rintro ⟨⟩
    · intro hGet
      exact head.setter_modifier.ne_get (Option.some.inj hGet)
  · have hNot : isListKeyword head.name = false := by
      rw [← Bool.not_eq_true, isListKeyword_eq_true_iff, hName]
      exact not_namesStatement_get_append rest
    exact iff_of_true (.inl rfl) hNot

theorem findsMethod_eq_true_iff {among : List Cursor} : findsMethod among = true ↔
    ∃ c ∈ among, ∃ found, methodDefaults.matchAt? c = some found ∧ isMethod found = true := by
  fun_induction findsMethod among with
  | case1 among hNone =>
    rw [findAmong?_eq_none_iff] at hNone
    refine iff_of_false Bool.false_ne_true ?_
    rintro ⟨c, hc, found, hFound, -⟩
    rw [hNone c hc] at hFound
    cases hFound
  | case2 among found behind hFound hFewer ih =>
    -- no match starts at a place that is passed, so only the one found and those behind it count
    obtain ⟨passed, c, rfl, hPassed, hMatch⟩ := exists_append_of_findAmong? hFound
    rw [Bool.or_eq_true, ih]
    constructor
    · rintro (hMethod | ⟨d, hd, hAccepted⟩)
      · exact ⟨c, by simp, found, hMatch, hMethod⟩
      · exact ⟨d, by simp [hd], hAccepted⟩
    · rintro ⟨d, hd, other, hOther, hMethod⟩
      rw [List.mem_append, List.mem_cons] at hd
      obtain hd | rfl | hd := hd
      · rw [hPassed d hd] at hOther
        cases hOther
      · rw [hMatch] at hOther
        obtain rfl := Option.some.inj hOther
        exact .inl hMethod
      · exact .inr ⟨d, hd, other, hOther, hMethod⟩

/-- A head can be read in one way only at a place, as far as its name is concerned. So the preferred
match there is turned down only where every other one would be. -/
theorem exists_method_at_iff {before rest : List Char} :
    (∃ found, methodDefaults.matchAt? (.behind before rest []) = some found ∧
      isMethod found = true) ↔
    ∃ edge, ∃ head : MethodHead, ∃ after, rest = edge ++ (head.text ++ after) ∧
      IsEdge before edge ∧ ¬NamesStatement head.name := by
  constructor
  · rintro ⟨found, hMatch, hMethod⟩
    obtain ⟨text, after, made, rfl, hText, hEnd⟩ := run_eq_some hMatch
    obtain ⟨edge, head, rfl, hEdge, hMade⟩ := exists_head_of_spans hText
    obtain rfl := Option.some.inj hEnd
    rw [List.append_nil, hMade.isMethod_eq_true_iff] at hMethod
    exact ⟨edge, head, after, List.append_assoc .., hEdge, hMethod⟩
  · rintro ⟨edge, head, after, rfl, hEdge, hName⟩
    obtain ⟨made, hText⟩ := exists_spans_of_head hEdge head after
    have hSome : (methodDefaults.matchAt?
        (.behind before ((edge ++ head.text) ++ after) [])).isSome := isSome_run hText rfl
    obtain ⟨found, hMatch⟩ := Option.isSome_iff_exists.mp hSome
    refine ⟨found, by rwa [← List.append_assoc], ?_⟩
    -- the preferred match may be another one, but its name is the same
    obtain ⟨text, behind, made', hRest, hPreferred, hEnd⟩ := run_eq_some hMatch
    obtain ⟨edge', head', rfl, hEdge', hMade⟩ := exists_head_of_spans hPreferred
    obtain rfl := Option.some.inj hEnd
    have hSame : head'.name = head.name := by
      rw [← nameBeforeList_append hEdge' head' behind, ← nameBeforeList_append hEdge head after,
        ← List.append_assoc, ← List.append_assoc, hRest]
    rwa [List.append_nil, hMade.isMethod_eq_true_iff, hSame]

theorem isMethodEdge_iff {before : List Char} :
    IsMethodEdge before ↔ ∃ front edge, before = front ++ edge ∧ IsEdge front edge := by
  constructor
  · rintro (rfl | hLast | hLast)
    · exact ⟨[], [], rfl, .inl ⟨rfl, rfl⟩⟩
    · obtain ⟨front, rfl⟩ := List.getLast?_eq_some_iff.mp hLast
      exact ⟨front, ['\x7b'], rfl, .inr (.inl rfl)⟩
    · obtain ⟨front, rfl⟩ := List.getLast?_eq_some_iff.mp hLast
      exact ⟨front, [';'], rfl, .inr (.inr rfl)⟩
  · rintro ⟨front, edge, rfl, ⟨rfl, rfl⟩ | rfl | rfl⟩
    · exact .inl rfl
    · exact .inr (.inl List.getLast?_concat)
    · exact .inr (.inr List.getLast?_concat)

/-- The search turns down what it finds among some places and goes on among those behind it. -/
def Retries (among behind : List Cursor) : Prop :=
  ∃ found, methodDefaults.findAmong? among = some (found, behind) ∧ isMethod found = false

theorem Retries.length_lt {among behind : List Cursor} (h : Retries among behind) :
    behind.length < among.length := by
  obtain ⟨found, hFound, -⟩ := h
  exact length_lt_of_findAmong? hFound

theorem length_le_of_isChain_retries {among : List Cursor} {retries : List (List Cursor)}
    (h : (among :: retries).IsChain Retries) : retries.length ≤ among.length := by
  induction retries generalizing among with
  | nil => exact Nat.zero_le _
  | cons behind retries ih =>
    obtain ⟨hRetry, hRest⟩ := List.isChain_cons_cons.mp h
    exact Nat.succ_le_of_lt ((ih hRest).trans_lt hRetry.length_lt)

/-- The search in a line ends, with no more retries than the line has places. It finds a method
exactly if the head of one stands in the line, at an edge and under a name that belongs to no
statement. -/
theorem hasMethodDefaults_iff_exists_methodHead (line : Line) :
    (hasMethodDefaults line = true ↔ ∃ before after, ∃ head : MethodHead,
      line = before ++ (head.text ++ after) ∧ IsMethodEdge before ∧ ¬NamesStatement head.name) ∧
    ∀ retries, (places line :: retries).IsChain Retries → retries.length ≤ line.length + 1 := by
  constructor
  · rw [hasMethodDefaults, findsMethod_eq_true_iff]
    constructor
    · rintro ⟨c, hc, hMethod⟩
      obtain ⟨front, rest, rfl, rfl⟩ := mem_places_iff.mp hc
      obtain ⟨edge, head, after, rfl, hEdge, hName⟩ := exists_method_at_iff.mp hMethod
      refine ⟨front ++ edge, after, head, (List.append_assoc ..).symm, ?_, hName⟩
      exact isMethodEdge_iff.mpr ⟨front, edge, rfl, hEdge⟩
    · rintro ⟨before, after, head, rfl, hBefore, hName⟩
      obtain ⟨front, edge, rfl, hEdge⟩ := isMethodEdge_iff.mp hBefore
      refine ⟨.behind front (edge ++ (head.text ++ after)) [], ?_, ?_⟩
      · exact mem_places_iff.mpr ⟨front, _, List.append_assoc .., rfl⟩
      · exact exists_method_at_iff.mpr ⟨edge, head, after, rfl, hEdge, hName⟩
  · intro retries hRetries
    rw [← length_places]
    exact length_le_of_isChain_retries hRetries

example : hasMethodDefaults "if (a = b) \x7b getif(c = 1) \x7b".toList = true := by decide +kernel

end Script

end TouchedLines
