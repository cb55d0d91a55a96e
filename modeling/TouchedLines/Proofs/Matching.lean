import TouchedLines.Pattern.Match

/-! # Stretches that a pattern matches

A pattern matches a stretch of a line between what stands before it and what stands after it. The
search tries the preferred way first, but whether it finds a match at all depends on the stretches
alone: a pattern matches a line exactly if it spans some stretch of it.
-/

namespace TouchedLines

open Text

/-- The place behind `before`. -/
def Cursor.behind (before rest : List Char) (captured : List (Nat × List Char)) : Cursor :=
  ⟨before.getLast?, rest, captured⟩

theorem Cursor.textUpTo_behind (before text after : List Char)
    (captured made : List (Nat × List Char)) :
    (behind before (text ++ after) captured).textUpTo (behind (before ++ text) after made) =
      text := by
  simp [textUpTo, behind]

theorem mem_placesFrom_iff {upper lower : List Char} {c : Cursor} :
    c ∈ placesFrom upper.getLast? lower ↔
      ∃ before rest, lower = before ++ rest ∧ c = .behind (upper ++ before) rest [] := by
  induction lower generalizing upper with
  | nil =>
    rw [placesFrom, List.mem_singleton]
    constructor
    · rintro rfl
      exact ⟨[], [], rfl, by rw [List.append_nil]; rfl⟩
    · rintro ⟨before, rest, hLower, rfl⟩
      obtain ⟨rfl, rfl⟩ := List.nil_eq_append_iff.mp hLower
      rw [List.append_nil]
      rfl
  | cons x lower ih =>
    have hNext : some x = (upper ++ [x]).getLast? := by simp
    rw [placesFrom, List.mem_cons, hNext, ih]
    constructor
    · rintro (rfl | ⟨before, rest, rfl, rfl⟩)
      · exact ⟨[], x :: lower, rfl, by rw [List.append_nil]; rfl⟩
      · exact ⟨x :: before, rest, rfl, by rw [List.append_assoc]; rfl⟩
    · rintro ⟨before, rest, hLower, rfl⟩
      cases before with
      | nil =>
        obtain rfl := hLower
        exact .inl (by rw [List.append_nil]; rfl)
      | cons y before =>
        obtain ⟨rfl, rfl⟩ := List.cons.inj hLower
        exact .inr ⟨before, rest, rfl, by rw [List.append_assoc]; rfl⟩

theorem mem_places_iff {line : Line} {c : Cursor} :
    c ∈ places line ↔ ∃ before rest, line = before ++ rest ∧ c = .behind before rest [] :=
  @mem_placesFrom_iff [] line c

theorem length_placesFrom (before : Option Char) (text : List Char) :
    (placesFrom before text).length = text.length + 1 := by
  induction text generalizing before with
  | nil => rfl
  | cons c text ih => rw [placesFrom, List.length_cons, ih, List.length_cons]

theorem length_places (line : Line) : (places line).length = line.length + 1 :=
  length_placesFrom none line

namespace Pattern

variable {β : Type}

/-- The pattern matches `text` between `before` and `after` and remembers `made`, the latest
first. -/
def Spans : Pattern → List Char → List Char → List Char → List (Nat × List Char) → Prop
  | .empty, _, text, _, made => text = [] ∧ made = []
  | .one s, _, text, _, made => (∃ x, text = [x] ∧ s.contains x = true) ∧ made = []
  | .many s, _, text, _, made => (∀ x ∈ text, s.contains x = true) ∧ made = []
  | .atLeastOne s, _, text, _, made =>
    text ≠ [] ∧ (∀ x ∈ text, s.contains x = true) ∧ made = []
  | .seq p q, before, text, after, made => ∃ left right early late,
    text = left ++ right ∧ made = late ++ early ∧ p.Spans before left (right ++ after) early ∧
      q.Spans (before ++ left) right after late
  | .either p q, before, text, after, made =>
    p.Spans before text after made ∨ q.Spans before text after made
  | .optional p, before, text, after, made =>
    p.Spans before text after made ∨ text = [] ∧ made = []
  | .group p, before, text, after, made => p.Spans before text after made
  | .capture name p, before, text, after, made => ∃ inner,
    made = (name, text) :: inner ∧ p.Spans before text after inner
  | .boundary, before, text, after, made =>
    text = [] ∧ made = [] ∧ before.getLast?.any isWord ≠ after.head?.any isWord
  | .lineStart, before, text, _, made => text = [] ∧ made = [] ∧ before = []
  | .lineEnd, _, text, after, made => text = [] ∧ made = [] ∧ after = []

theorem spans_append {p q : Pattern} {before text after : List Char}
    {made : List (Nat × List Char)} :
    (p ++ q).Spans before text after made ↔ ∃ left right early late,
      text = left ++ right ∧ made = late ++ early ∧ p.Spans before left (right ++ after) early ∧
        q.Spans (before ++ left) right after late := Iff.rfl

theorem Spans.append {p q : Pattern} {before left right after : List Char}
    {early late : List (Nat × List Char)} (hLeft : p.Spans before left (right ++ after) early)
    (hRight : q.Spans (before ++ left) right after late) :
    (p ++ q).Spans before (left ++ right) after (late ++ early) :=
  ⟨left, right, early, late, rfl, rfl, hLeft, hRight⟩

theorem spans_text {s : String} {before text after : List Char} {made : List (Nat × List Char)} :
    (Pattern.text s).Spans before text after made ↔ text = s.toList ∧ made = [] := by
  rw [Pattern.text]
  induction s.toList generalizing before text made with
  | nil => exact Iff.rfl
  | cons c cs ih =>
    simp only [List.foldr_cons, Spans, ih, CharClass.contains, beq_iff_eq]
    constructor
    · rintro ⟨_, _, _, _, rfl, rfl, ⟨⟨_, rfl, rfl⟩, rfl⟩, rfl, rfl⟩
      exact ⟨rfl, rfl⟩
    · rintro ⟨rfl, rfl⟩
      exact ⟨[c], cs, [], [], rfl, rfl, ⟨⟨c, rfl, rfl⟩, rfl⟩, rfl, rfl⟩

theorem runOne_behind_cons (s : CharClass) (k : Cursor → Option β) (before : List Char) (x : Char)
    (rest : List Char) (captured : List (Nat × List Char)) :
    runOne s k (.behind before (x :: rest) captured) =
      if s.contains x then k (.behind (before ++ [x]) rest captured) else none := by
  simp [runOne, Cursor.behind]

theorem runOne_eq_some {s : CharClass} {k : Cursor → Option β} {before rest : List Char}
    {captured : List (Nat × List Char)} {b : β}
    (h : runOne s k (.behind before rest captured) = some b) :
    ∃ x after, rest = x :: after ∧ s.contains x = true ∧
      k (.behind (before ++ [x]) after captured) = some b := by
  cases rest with
  | nil => cases h
  | cons x after =>
    rw [runOne_behind_cons] at h
    obtain ⟨hx, hk⟩ := Option.ite_none_right_eq_some.mp h
    exact ⟨x, after, rfl, hx, hk⟩

theorem runMany_eq_some {s : CharClass} {k : Cursor → Option β} {before rest : List Char}
    {captured : List (Nat × List Char)} {b : β}
    (h : runMany s k captured before.getLast? rest = some b) :
    ∃ text after, rest = text ++ after ∧ (∀ x ∈ text, s.contains x = true) ∧
      k (.behind (before ++ text) after captured) = some b := by
  induction rest generalizing before with
  | nil => exact ⟨[], [], rfl, by simp, by rwa [List.append_nil]⟩
  | cons x rest ih =>
    rw [runMany] at h
    split at h
    · rename_i hx
      have hNext : some x = (before ++ [x]).getLast? := by simp
      split at h
      · rename_i hRun
        obtain rfl := Option.some.inj h
        rw [hNext] at hRun
        obtain ⟨text, after, rfl, hText, hk⟩ := ih hRun
        refine ⟨x :: text, after, rfl, ?_, by rwa [List.append_assoc] at hk⟩
        exact List.forall_mem_cons.mpr ⟨hx, hText⟩
      · exact ⟨[], x :: rest, rfl, by simp, by rwa [List.append_nil]⟩
    · exact ⟨[], x :: rest, rfl, by simp, by rwa [List.append_nil]⟩

theorem isSome_runMany {s : CharClass} {k : Cursor → Option β} {before text after : List Char}
    {captured : List (Nat × List Char)} (hText : ∀ x ∈ text, s.contains x = true)
    (hk : (k (.behind (before ++ text) after captured)).isSome) :
    (runMany s k captured before.getLast? (text ++ after)).isSome := by
  induction text generalizing before with
  | nil =>
    rw [List.append_nil] at hk
    cases after with
    | nil => exact hk
    | cons y after =>
      rw [List.nil_append, runMany]
      split
      · split
        · rfl
        · exact hk
      · exact hk
  | cons x text ih =>
    obtain ⟨hx, hRest⟩ := List.forall_mem_cons.mp hText
    have hNext : some x = (before ++ [x]).getLast? := by simp
    have hRun : (runMany s k captured (before ++ [x]).getLast? (text ++ after)).isSome :=
      ih hRest (by rwa [List.append_assoc])
    rw [List.cons_append, runMany, if_pos hx, hNext]
    split
    · rfl
    · rename_i hNone
      rw [hNone] at hRun
      cases hRun

/-- Whatever the search answers with, it found at the end of a stretch. -/
theorem run_eq_some {p : Pattern} {k : Cursor → Option β} {before rest : List Char}
    {captured : List (Nat × List Char)} {b : β}
    (h : p.run k (.behind before rest captured) = some b) :
    ∃ text after made, rest = text ++ after ∧ p.Spans before text after made ∧
      k (.behind (before ++ text) after (made ++ captured)) = some b := by
  induction p generalizing k before rest captured with
  | empty => exact ⟨[], rest, [], rfl, ⟨rfl, rfl⟩, by rwa [List.append_nil]⟩
  | one s =>
    obtain ⟨x, after, rfl, hx, hk⟩ := runOne_eq_some h
    exact ⟨[x], after, [], rfl, ⟨⟨x, rfl, hx⟩, rfl⟩, hk⟩
  | many s =>
    obtain ⟨text, after, rfl, hText, hk⟩ := runMany_eq_some h
    exact ⟨text, after, [], rfl, ⟨hText, rfl⟩, hk⟩
  | atLeastOne s =>
    obtain ⟨x, others, rfl, hx, hMany⟩ := runOne_eq_some h
    obtain ⟨text, after, rfl, hText, hk⟩ := runMany_eq_some hMany
    refine ⟨x :: text, after, [], rfl, ⟨by simp, ?_, rfl⟩, by rwa [List.append_assoc] at hk⟩
    exact List.forall_mem_cons.mpr ⟨hx, hText⟩
  | seq p q ihp ihq =>
    obtain ⟨left, others, early, rfl, hLeft, hRun⟩ := ihp h
    obtain ⟨right, after, late, rfl, hRight, hk⟩ := ihq hRun
    refine ⟨left ++ right, after, late ++ early, by rw [List.append_assoc],
      ⟨left, right, early, late, rfl, rfl, hLeft, hRight⟩, ?_⟩
    rwa [List.append_assoc, ← List.append_assoc late] at hk
  | either p q ihp ihq =>
    rw [run] at h
    split at h
    · rename_i hRun
      obtain rfl := Option.some.inj h
      obtain ⟨text, after, made, hRest, hText, hk⟩ := ihp hRun
      exact ⟨text, after, made, hRest, .inl hText, hk⟩
    · obtain ⟨text, after, made, hRest, hText, hk⟩ := ihq h
      exact ⟨text, after, made, hRest, .inr hText, hk⟩
  | optional p ih =>
    rw [run] at h
    split at h
    · rename_i hRun
      obtain rfl := Option.some.inj h
      obtain ⟨text, after, made, hRest, hText, hk⟩ := ih hRun
      exact ⟨text, after, made, hRest, .inl hText, hk⟩
    · exact ⟨[], rest, [], rfl, .inr ⟨rfl, rfl⟩, by rwa [List.append_nil]⟩
  | group p ih => exact ih h
  | capture name p ih =>
    obtain ⟨text, after, made, rfl, hText, hk⟩ := ih h
    rw [Cursor.textUpTo_behind] at hk
    exact ⟨text, after, (name, text) :: made, rfl, ⟨made, rfl, hText⟩, hk⟩
  | boundary =>
    obtain ⟨hBoundary, hk⟩ := Option.ite_none_right_eq_some.mp h
    exact ⟨[], rest, [], rfl, ⟨rfl, rfl, bne_iff_ne.mp hBoundary⟩, by rwa [List.append_nil]⟩
  | lineStart =>
    obtain ⟨hStart, hk⟩ := Option.ite_none_right_eq_some.mp h
    have hBefore : before = [] := by simpa [Cursor.behind] using hStart
    exact ⟨[], rest, [], rfl, ⟨rfl, rfl, hBefore⟩, by rwa [List.append_nil]⟩
  | lineEnd =>
    obtain ⟨hEnd, hk⟩ := Option.ite_none_right_eq_some.mp h
    exact ⟨[], rest, [], rfl, ⟨rfl, rfl, List.isEmpty_iff.mp hEnd⟩, by rwa [List.append_nil]⟩

/-- The search misses no stretch from whose end there is an answer. -/
theorem isSome_run {p : Pattern} {k : Cursor → Option β} {before text after : List Char}
    {captured made : List (Nat × List Char)} (hText : p.Spans before text after made)
    (hk : (k (.behind (before ++ text) after (made ++ captured))).isSome) :
    (p.run k (.behind before (text ++ after) captured)).isSome := by
  induction p generalizing k before text after captured made with
  | empty =>
    obtain ⟨rfl, rfl⟩ := hText
    rwa [List.append_nil] at hk
  | one s =>
    obtain ⟨⟨x, rfl, hx⟩, rfl⟩ := hText
    rw [run, List.singleton_append, runOne_behind_cons, if_pos hx]
    exact hk
  | many s =>
    obtain ⟨hAll, rfl⟩ := hText
    exact isSome_runMany hAll hk
  | atLeastOne s =>
    obtain ⟨hNil, hAll, rfl⟩ := hText
    obtain ⟨x, text, rfl⟩ := List.exists_cons_of_ne_nil hNil
    obtain ⟨hx, hRest⟩ := List.forall_mem_cons.mp hAll
    rw [run, List.cons_append, runOne_behind_cons, if_pos hx]
    exact isSome_runMany hRest (by rwa [List.append_assoc])
  | seq p q ihp ihq =>
    obtain ⟨left, right, early, late, rfl, rfl, hLeft, hRight⟩ := hText
    rw [List.append_assoc]
    refine ihp hLeft (ihq hRight ?_)
    rwa [List.append_assoc, ← List.append_assoc late]
  | either p q ihp ihq =>
    rw [run]
    split
    · rfl
    · rename_i hNone
      obtain hLeft | hRight := hText
      · simpa [hNone] using ihp hLeft hk
      · exact ihq hRight hk
  | optional p ih =>
    rw [run]
    split
    · rfl
    · rename_i hNone
      obtain hSome | ⟨rfl, rfl⟩ := hText
      · simpa [hNone] using ih hSome hk
      · rwa [List.append_nil] at hk
  | group p ih => exact ih hText hk
  | capture name p ih =>
    obtain ⟨inner, rfl, hInner⟩ := hText
    refine ih hInner ?_
    rw [Cursor.textUpTo_behind]
    exact hk
  | boundary =>
    obtain ⟨rfl, rfl, hBoundary⟩ := hText
    have hAt : (Cursor.behind before after captured).isBoundary = true := bne_iff_ne.mpr hBoundary
    rw [List.append_nil] at hk
    rwa [run, List.nil_append, if_pos hAt]
  | lineStart =>
    obtain ⟨rfl, rfl, rfl⟩ := hText
    exact hk
  | lineEnd =>
    obtain ⟨rfl, rfl, rfl⟩ := hText
    rwa [List.append_nil] at hk

theorem find?_eq_some {p : Pattern} {line : Line} {d : Cursor} (h : p.find? line = some d) :
    ∃ before text after made, line = before ++ (text ++ after) ∧
      p.Spans before text after made ∧ d = .behind (before ++ text) after made := by
  obtain ⟨c, hc, hMatch⟩ := List.exists_of_findSome?_eq_some h
  obtain ⟨before, rest, rfl, rfl⟩ := mem_places_iff.mp hc
  obtain ⟨text, after, made, rfl, hText, hEnd⟩ := run_eq_some hMatch
  rw [List.append_nil] at hEnd
  exact ⟨before, text, after, made, rfl, hText, (Option.some.inj hEnd).symm⟩

theorem isMatch_iff {p : Pattern} {line : Line} :
    p.isMatch line = true ↔ ∃ before text after made,
      line = before ++ (text ++ after) ∧ p.Spans before text after made := by
  rw [isMatch, Option.isSome_iff_exists]
  constructor
  · rintro ⟨d, hd⟩
    obtain ⟨before, text, after, made, hLine, hText, -⟩ := find?_eq_some hd
    exact ⟨before, text, after, made, hLine, hText⟩
  · rintro ⟨before, text, after, made, rfl, hText⟩
    rw [← Option.isSome_iff_exists, find?, List.findSome?_isSome_iff]
    refine ⟨.behind before (text ++ after) [], mem_places_iff.mpr ⟨before, _, rfl, rfl⟩, ?_⟩
    exact isSome_run hText rfl

/-- The pattern matches at the start of `rest`, with `before` in front of it. -/
def MatchesAt (p : Pattern) (before rest : List Char) : Prop :=
  ∃ text after made, rest = text ++ after ∧ p.Spans before text after made

theorem isMatch_iff_matchesAt {p : Pattern} {line : Line} :
    p.isMatch line = true ↔ ∃ before rest, line = before ++ rest ∧ p.MatchesAt before rest := by
  rw [isMatch_iff]
  constructor
  · rintro ⟨before, text, after, made, hLine, hText⟩
    exact ⟨before, text ++ after, hLine, text, after, made, rfl, hText⟩
  · rintro ⟨before, _, hLine, text, after, made, rfl, hText⟩
    exact ⟨before, text, after, made, hLine, hText⟩

theorem matchesAt_append {p q : Pattern} {before rest : List Char} :
    (p ++ q).MatchesAt before rest ↔ ∃ left right made, rest = left ++ right ∧
      p.Spans before left right made ∧ q.MatchesAt (before ++ left) right := by
  constructor
  · rintro ⟨_, after, _, rfl, left, right, early, late, rfl, rfl, hLeft, hRight⟩
    exact ⟨left, right ++ after, early, List.append_assoc .., hLeft,
      right, after, late, rfl, hRight⟩
  · rintro ⟨left, _, early, rfl, hLeft, right, after, late, rfl, hRight⟩
    exact ⟨left ++ right, after, late ++ early, (List.append_assoc ..).symm,
      hLeft.append hRight⟩

theorem matchesAt_text {s : String} {before rest : List Char} :
    (Pattern.text s).MatchesAt before rest ↔ s.toList <+: rest := by
  constructor
  · rintro ⟨_, after, _, rfl, hText⟩
    obtain ⟨rfl, -⟩ := spans_text.mp hText
    exact List.prefix_append s.toList after
  · rintro ⟨after, rfl⟩
    exact ⟨s.toList, after, [], rfl, spans_text.mpr ⟨rfl, rfl⟩⟩

theorem matchesAt_text_append {s : String} {q : Pattern} {before rest : List Char} :
    (Pattern.text s ++ q).MatchesAt before rest ↔
      ∃ right, rest = s.toList ++ right ∧ q.MatchesAt (before ++ s.toList) right := by
  rw [matchesAt_append]
  constructor
  · rintro ⟨_, right, _, rfl, hText, hRight⟩
    obtain ⟨rfl, -⟩ := spans_text.mp hText
    exact ⟨right, rfl, hRight⟩
  · rintro ⟨right, rfl, hRight⟩
    exact ⟨s.toList, right, [], rfl, spans_text.mpr ⟨rfl, rfl⟩, hRight⟩

theorem matchesAt_one_append {s : CharClass} {q : Pattern} {before rest : List Char} :
    (one s ++ q).MatchesAt before rest ↔
      ∃ c right, rest = c :: right ∧ s.contains c = true ∧ q.MatchesAt (before ++ [c]) right := by
  rw [matchesAt_append]
  constructor
  · rintro ⟨_, right, _, rfl, ⟨⟨c, rfl, hc⟩, -⟩, hRight⟩
    exact ⟨c, right, rfl, hc, hRight⟩
  · rintro ⟨c, right, rfl, hc, hRight⟩
    exact ⟨[c], right, [], rfl, ⟨⟨c, rfl, hc⟩, rfl⟩, hRight⟩

theorem matchesAt_many_append {s : CharClass} {q : Pattern} {before rest : List Char} :
    (many s ++ q).MatchesAt before rest ↔ ∃ run right, rest = run ++ right ∧
      (∀ c ∈ run, s.contains c = true) ∧ q.MatchesAt (before ++ run) right := by
  rw [matchesAt_append]
  constructor
  · rintro ⟨run, right, _, rfl, ⟨hRun, -⟩, hRight⟩
    exact ⟨run, right, rfl, hRun, hRight⟩
  · rintro ⟨run, right, rfl, hRun, hRight⟩
    exact ⟨run, right, [], rfl, ⟨hRun, rfl⟩, hRight⟩

theorem matchesAt_atLeastOne_append {s : CharClass} {q : Pattern} {before rest : List Char} :
    (atLeastOne s ++ q).MatchesAt before rest ↔ ∃ run right, rest = run ++ right ∧ run ≠ [] ∧
      (∀ c ∈ run, s.contains c = true) ∧ q.MatchesAt (before ++ run) right := by
  rw [matchesAt_append]
  constructor
  · rintro ⟨run, right, _, rfl, ⟨hNil, hRun, -⟩, hRight⟩
    exact ⟨run, right, rfl, hNil, hRun, hRight⟩
  · rintro ⟨run, right, rfl, hNil, hRun, hRight⟩
    exact ⟨run, right, [], rfl, ⟨hNil, hRun, rfl⟩, hRight⟩

theorem isMatch_text_iff {s : String} {line : Line} :
    (Pattern.text s).isMatch line = true ↔ s.toList <:+: line := by
  simp only [isMatch_iff_matchesAt, matchesAt_text]
  constructor
  · rintro ⟨before, rest, rfl, hPrefix⟩
    exact hPrefix.isInfix.trans (List.suffix_append before rest).isInfix
  · rintro ⟨before, after, rfl⟩
    exact ⟨before, s.toList ++ after, List.append_assoc .., List.prefix_append s.toList after⟩

end Pattern

end TouchedLines
