import TouchedLines.Pattern.Basic

/-! # Matching a pattern

`Pattern.run p k c` tries the ways in which `p` can match at the place `c`, the preferred way first,
and answers with the first for which `k` has an answer. A pattern matches a line if it matches at
some place of it; of several places the leftmost counts.
-/

namespace TouchedLines

open Text

/-- A place in a line: the character before it, the text after it, and what was captured so far. -/
structure Cursor where
  before : Option Char
  rest : List Char
  captured : List (Nat × List Char)
  deriving Repr, DecidableEq

namespace Cursor

def start (line : Line) : Cursor := ⟨none, line, []⟩

/-- Whether exactly one of the neighbouring characters is a word character. -/
def isBoundary (c : Cursor) : Bool :=
  (c.before.any isWord) != (c.rest.head?.any isWord)

/-- The text between `c` and the later place `d`. -/
def textUpTo (c d : Cursor) : List Char := c.rest.take (c.rest.length - d.rest.length)

def capture (c : Cursor) (name : Nat) (text : List Char) : Cursor :=
  { c with captured := (name, text) :: c.captured }

def captured? (c : Cursor) (name : Nat) : Option (List Char) := c.captured.lookup name

end Cursor

/-- The places of a text after the character `before`, from left to right. -/
def placesFrom (before : Option Char) : List Char → List Cursor
  | [] => [⟨before, [], []⟩]
  | c :: cs => ⟨before, c :: cs, []⟩ :: placesFrom (some c) cs

def places (line : Line) : List Cursor := placesFrom none line

namespace Pattern

variable {β : Type}

def runOne (s : CharClass) (k : Cursor → Option β) (c : Cursor) : Option β :=
  match c.rest with
  | [] => none
  | x :: xs => if s.contains x then k { c with before := some x, rest := xs } else none

/-- Takes as many characters of the class as lead to an answer, the longest run first. -/
def runMany (s : CharClass) (k : Cursor → Option β) (captured : List (Nat × List Char)) :
    Option Char → List Char → Option β
  | before, [] => k ⟨before, [], captured⟩
  | before, x :: xs =>
    if s.contains x then
      match runMany s k captured (some x) xs with
      | some b => some b
      | none => k ⟨before, x :: xs, captured⟩
    else k ⟨before, x :: xs, captured⟩

def run : Pattern → (Cursor → Option β) → Cursor → Option β
  | .empty, k, c => k c
  | .one s, k, c => runOne s k c
  | .many s, k, c => runMany s k c.captured c.before c.rest
  | .atLeastOne s, k, c => runOne s (fun d => runMany s k d.captured d.before d.rest) c
  | .seq p q, k, c => run p (run q k) c
  | .either p q, k, c =>
    match run p k c with
    | some b => some b
    | none => run q k c
  | .optional p, k, c =>
    match run p k c with
    | some b => some b
    | none => k c
  | .group p, k, c => run p k c
  | .capture name p, k, c => run p (fun d => k (d.capture name (c.textUpTo d))) c
  | .boundary, k, c => if c.isBoundary then k c else none
  | .lineStart, k, c => if c.before.isNone then k c else none
  | .lineEnd, k, c => if c.rest.isEmpty then k c else none

/-- The end of the preferred match at a place. -/
def matchAt? (p : Pattern) (c : Cursor) : Option Cursor := p.run some c

/-- The end of the preferred match at the leftmost place that has one. -/
def find? (p : Pattern) (line : Line) : Option Cursor := (places line).findSome? p.matchAt?

/-- Whether the pattern matches somewhere in the line. -/
def isMatch (p : Pattern) (line : Line) : Bool := (p.find? line).isSome

/-- The end of the preferred match at the first of the places that has one, and the places behind
the start of that match. -/
def findAmong? (p : Pattern) : List Cursor → Option (Cursor × List Cursor)
  | [] => none
  | c :: behind =>
    match p.matchAt? c with
    | some found => some (found, behind)
    | none => p.findAmong? behind

theorem exists_append_of_findAmong? {p : Pattern} {among behind : List Cursor} {found : Cursor}
    (h : p.findAmong? among = some (found, behind)) :
    ∃ passed c, among = passed ++ c :: behind ∧ (∀ d ∈ passed, p.matchAt? d = none) ∧
      p.matchAt? c = some found := by
  induction among with
  | nil => cases h
  | cons c others ih =>
    rw [findAmong?] at h
    split at h
    · rename_i hMatch
      cases h
      exact ⟨[], c, rfl, by simp, hMatch⟩
    · rename_i hNone
      obtain ⟨passed, d, rfl, hPassed, hMatch⟩ := ih h
      exact ⟨c :: passed, d, rfl, List.forall_mem_cons.mpr ⟨hNone, hPassed⟩, hMatch⟩

theorem findAmong?_eq_none_iff {p : Pattern} {among : List Cursor} :
    p.findAmong? among = none ↔ ∀ c ∈ among, p.matchAt? c = none := by
  induction among with
  | nil => simp [findAmong?]
  | cons c behind ih =>
    rw [findAmong?, List.forall_mem_cons, ← ih]
    cases hMatch : p.matchAt? c <;> simp

/-- The places behind the start of a match are fewer. -/
theorem length_lt_of_findAmong? {p : Pattern} {among behind : List Cursor} {found : Cursor}
    (h : p.findAmong? among = some (found, behind)) : behind.length < among.length := by
  obtain ⟨passed, c, rfl, -⟩ := exists_append_of_findAmong? h
  rw [List.length_append, List.length_cons]
  omega

end Pattern

end TouchedLines
