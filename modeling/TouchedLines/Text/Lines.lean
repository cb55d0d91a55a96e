import TouchedLines.Text.Classes

/-! # Trimming, splitting and searching text

Text is worked on as a list of characters. No line of a split text holds a newline
(`newline_notMem_of_mem_splitLines`), and a newline splits off exactly the line before it
(`splitLines_append_newline`).
-/

namespace TouchedLines.Text

/-- A line, without the newline that ends it. -/
abbrev Line := List Char

def dropEndWhile (p : Char → Bool) (text : List Char) : List Char :=
  (text.reverse.dropWhile p).reverse

def trimStart (text : List Char) : List Char := text.dropWhile isBlank

def trimEnd (text : List Char) : List Char := dropEndWhile isBlank text

def trim (text : List Char) : List Char := trimEnd (trimStart text)

def isBlankLine (line : Line) : Bool := (trim line).isEmpty

/-- The lines of a text. A newline ends its line, so none starts after the last one. -/
def splitLines : List Char → List Line
  | [] => []
  | c :: cs =>
    if c = '\n' then [] :: splitLines cs
    else match splitLines cs with
      | [] => [[c]]
      | line :: lines => (c :: line) :: lines

/-- The lines of a text in which a carriage return directly before a newline belongs to it. -/
def splitReturnLines : List Char → List Line
  | [] => []
  | '\r' :: '\n' :: cs => [] :: splitReturnLines cs
  | c :: cs =>
    if c = '\n' then [] :: splitReturnLines cs
    else match splitReturnLines cs with
      | [] => [[c]]
      | line :: lines => (c :: line) :: lines

/-- The fields between separators: one more than there are separators. -/
def splitOn (separator : Char) : List Char → List (List Char)
  | [] => [[]]
  | c :: cs =>
    if c = separator then [] :: splitOn separator cs
    else (splitOn separator cs).modifyHead (c :: ·)

def hasInfix (word : List Char) : List Char → Bool
  | [] => word.isEmpty
  | c :: cs => word.isPrefixOf (c :: cs) || hasInfix word cs

/-- What follows `word` at the start of a list. -/
def dropStart? {α : Type} [DecidableEq α] : List α → List α → Option (List α)
  | [], text => some text
  | _ :: _, [] => none
  | w :: word, c :: text => if w = c then dropStart? word text else none

/-- The text before and after the first occurrence of `word`. -/
def splitAtFirst (word : List Char) : List Char → Option (List Char × List Char)
  | [] => if word.isEmpty then some ([], []) else none
  | c :: cs =>
    match dropStart? word (c :: cs) with
    | some rest => some ([], rest)
    | none => (splitAtFirst word cs).map fun (before, after) => (c :: before, after)

/-- Lines one after another with a newline between two. -/
def joinLines : List Line → List Char
  | [] => []
  | [line] => line
  | line :: next :: lines => line ++ '\n' :: joinLines (next :: lines)

/-- Lines one after another, each with a newline after it. -/
def terminateLines (lines : List Line) : List Char := lines.flatMap (· ++ ['\n'])

theorem eq_append_of_dropStart? {α : Type} [DecidableEq α] {word text rest : List α}
    (h : dropStart? word text = some rest) : text = word ++ rest := by
  fun_induction dropStart? word text with
  | case1 text => exact Option.some.inj h
  | case2 => simp at h
  | case3 c word text ih => rw [ih h, List.cons_append]
  | case4 => simp at h

theorem dropStart?_append {α : Type} [DecidableEq α] (word rest : List α) :
    dropStart? word (word ++ rest) = some rest := by
  induction word with
  | nil => rfl
  | cons c word ih => simpa [dropStart?] using ih

theorem isSome_dropStart?_iff {α : Type} [DecidableEq α] {word text : List α} :
    (dropStart? word text).isSome = true ↔ word <+: text := by
  constructor
  · intro h
    obtain ⟨rest, hRest⟩ := Option.isSome_iff_exists.mp h
    exact ⟨rest, (eq_append_of_dropStart? hRest).symm⟩
  · rintro ⟨rest, rfl⟩
    rw [dropStart?_append]
    rfl

theorem dropStart?_eq_none_iff {α : Type} [DecidableEq α] {word text : List α} :
    dropStart? word text = none ↔ ¬word <+: text := by
  rw [← isSome_dropStart?_iff, Bool.not_eq_true, Option.isSome_eq_false_iff,
    Option.isNone_iff_eq_none]

theorem eq_append_of_splitAtFirst {word text before after : List Char}
    (h : splitAtFirst word text = some (before, after)) : text = before ++ word ++ after := by
  induction text generalizing before after with
  | nil =>
    unfold splitAtFirst at h
    split at h
    · simp_all
    · simp at h
  | cons c cs ih =>
    unfold splitAtFirst at h
    split at h
    · rename_i rest hr
      simp only [Option.some.injEq, Prod.mk.injEq] at h
      obtain ⟨rfl, rfl⟩ := h
      simp [eq_append_of_dropStart? hr]
    · obtain ⟨⟨b, a⟩, hs, he⟩ := Option.map_eq_some_iff.1 h
      simp only [Prod.mk.injEq] at he
      obtain ⟨rfl, rfl⟩ := he
      simp [ih hs]

theorem splitAtFirst_eq_none_iff {word text : List Char} :
    splitAtFirst word text = none ↔ ¬word <:+: text := by
  induction text with
  | nil => simp [splitAtFirst]
  | cons c text ih =>
    rw [splitAtFirst, List.infix_cons_iff, not_or, ← ih, ← dropStart?_eq_none_iff]
    cases dropStart? word (c :: text) <;> simp

theorem not_isInfix_of_splitAtFirst {word text before after : List Char} (hWord : word ≠ [])
    (h : splitAtFirst word text = some (before, after)) : ¬word <:+: before := by
  induction text generalizing before with
  | nil =>
    rw [splitAtFirst, if_neg (by simpa using hWord)] at h
    cases h
  | cons c text ih =>
    rw [splitAtFirst] at h
    split at h
    · cases h
      simpa using hWord
    · rename_i hDrop
      obtain ⟨⟨front, behind⟩, hSplit, hPair⟩ := Option.map_eq_some_iff.mp h
      obtain ⟨rfl, rfl⟩ := Prod.mk.inj hPair
      rw [List.infix_cons_iff, not_or]
      refine ⟨?_, ih hSplit⟩
      rintro hPrefix
      refine dropStart?_eq_none_iff.mp hDrop (hPrefix.trans ?_)
      rw [eq_append_of_splitAtFirst hSplit, List.append_assoc]
      exact List.prefix_append (c :: front) _

/-- A word is found behind a text at none of whose places it stands. -/
theorem splitAtFirst_append {word before after : List Char} (hWord : word ≠ [])
    (h : ∀ tail, tail <:+ before → tail ≠ [] → ¬word <+: tail ++ (word ++ after)) :
    splitAtFirst word (before ++ (word ++ after)) = some (before, after) := by
  induction before with
  | nil =>
    have hDrop := dropStart?_append word after
    obtain ⟨w, rest, rfl⟩ := List.exists_cons_of_ne_nil hWord
    rw [List.cons_append] at hDrop
    rw [List.nil_append, List.cons_append, splitAtFirst, hDrop]
  | cons c before ih =>
    have hDrop := dropStart?_eq_none_iff.mpr (h (c :: before) List.suffix_rfl (by simp))
    have hRest := ih fun tail hTail => h tail (hTail.trans (List.suffix_cons c before))
    rw [List.cons_append] at hDrop ⊢
    rw [splitAtFirst, hDrop, hRest]
    rfl

/-- A word of two different characters does not overlap itself. -/
theorem splitAtFirst_pair_append {a b : Char} (hDiffer : a ≠ b) {before : List Char}
    (h : ¬[a, b] <:+: before) (after : List Char) :
    splitAtFirst [a, b] (before ++ ([a, b] ++ after)) = some (before, after) := by
  refine splitAtFirst_append (List.cons_ne_nil a [b]) ?_
  rintro tail hTail hNil hPrefix
  obtain ⟨c, tail, rfl⟩ := List.exists_cons_of_ne_nil hNil
  cases tail with
  | nil =>
    -- the word would start with the character that it ends with
    obtain ⟨rest, hRest⟩ := hPrefix
    exact hDiffer (List.cons.inj (List.cons.inj hRest).2).1.symm
  | cons d tail =>
    have hHere : [a, b] <+: c :: d :: tail :=
      List.prefix_of_prefix_length_le hPrefix (List.prefix_append _ _) (by simp)
    exact h (hHere.isInfix.trans hTail.isInfix)

theorem splitOn_eq_splitOn (separator : Char) (text : List Char) :
    splitOn separator text = text.splitOn separator := by
  induction text with
  | nil => rfl
  | cons c cs ih => simp only [splitOn, ih, List.splitOn_cons_eq_if_modifyHead, beq_iff_eq]

theorem trimStart_cons {c : Char} (h : isBlank c = false) (rest : List Char) :
    trimStart (c :: rest) = c :: rest :=
  List.dropWhile_cons_of_neg (by simp [h])

theorem trimEnd_append_singleton {c : Char} (h : isBlank c = false) (text : List Char) :
    trimEnd (text ++ [c]) = text ++ [c] := by
  rw [trimEnd, dropEndWhile, List.reverse_append, List.reverse_singleton, List.singleton_append,
    List.dropWhile_cons_of_neg (by simp [h]), List.reverse_cons, List.reverse_reverse]

theorem newline_notMem_of_mem_splitLines {text : List Char} {line : Line}
    (h : line ∈ splitLines text) : '\n' ∉ line := by
  induction text generalizing line with
  | nil => simp [splitLines] at h
  | cons c cs ih =>
    rw [splitLines] at h
    by_cases hc : c = '\n'
    · rw [if_pos hc] at h
      rcases List.mem_cons.1 h with rfl | h
      · simp
      · exact ih h
    · rw [if_neg hc] at h
      cases hs : splitLines cs with
      | nil =>
        rw [hs] at h
        obtain rfl := List.mem_singleton.1 h
        simpa using fun e => hc e.symm
      | cons l ls =>
        rw [hs] at h ih
        rcases List.mem_cons.1 h with rfl | h
        · simpa [Ne.symm hc] using ih (List.mem_cons_self)
        · exact ih (List.mem_cons_of_mem _ h)

theorem splitLines_eq_nil_iff {text : List Char} : splitLines text = [] ↔ text = [] := by
  cases text with
  | nil => simp [splitLines]
  | cons c cs =>
    rw [splitLines]
    split
    · simp
    · split <;> simp

/-- A text that ends with a newline has lines of its own, whatever is appended. -/
theorem splitLines_append {upper : List Char} (h : ∀ c, upper.getLast? = some c → c = '\n')
    (lower : List Char) : splitLines (upper ++ lower) = splitLines upper ++ splitLines lower := by
  induction upper with
  | nil => rfl
  | cons c cs ih =>
    have hRest : ∀ d, cs.getLast? = some d → d = '\n' := by
      intro d hd
      apply h d
      rw [List.getLast?_cons, hd]
      rfl
    rw [List.cons_append, splitLines, splitLines, ih hRest]
    split
    · rfl
    · rename_i hc
      cases hs : splitLines cs with
      | nil =>
        obtain rfl := splitLines_eq_nil_iff.mp hs
        exact absurd (h c rfl) hc
      | cons line lines => rfl

theorem splitLines_append_newline (line : Line) (h : '\n' ∉ line) (rest : List Char) :
    splitLines (line ++ '\n' :: rest) = line :: splitLines rest := by
  induction line with
  | nil => simp [splitLines]
  | cons c cs ih =>
    simp only [List.mem_cons, not_or] at h
    simp [splitLines, ih h.2, Ne.symm h.1]

theorem terminateLines_cons (line : Line) (lines : List Line) :
    terminateLines (line :: lines) = line ++ '\n' :: terminateLines lines := by
  simp [terminateLines]

theorem joinLines_cons (line : Line) (lower : List Line) :
    joinLines (line :: lower) = line ++ lower.flatMap ('\n' :: ·) := by
  induction lower generalizing line with
  | nil => exact (List.append_nil line).symm
  | cons next lower ih => rw [joinLines, ih, List.flatMap_cons, List.cons_append]

theorem joinLines_append_cons (upper : List Line) (line : Line) (lower : List Line) :
    joinLines (upper ++ line :: lower) = terminateLines upper ++ joinLines (line :: lower) := by
  induction upper with
  | nil => rfl
  | cons first upper ih =>
    have hNext : ∃ next rest, upper ++ line :: lower = next :: rest := by
      cases upper with
      | nil => exact ⟨line, lower, rfl⟩
      | cons next upper => exact ⟨next, upper ++ line :: lower, rfl⟩
    obtain ⟨next, rest, hRest⟩ := hNext
    rw [List.cons_append, hRest, joinLines, ← hRest, ih, terminateLines_cons, List.append_assoc,
      List.cons_append]

theorem splitLines_terminateLines {lines : List Line} (h : ∀ line ∈ lines, '\n' ∉ line) :
    splitLines (terminateLines lines) = lines := by
  induction lines with
  | nil => rfl
  | cons line lines ih =>
    rw [terminateLines_cons, splitLines_append_newline line (h line List.mem_cons_self),
      ih fun l hl => h l (List.mem_cons_of_mem _ hl)]

end TouchedLines.Text
