import TouchedLines.Text.Lines

/-! # Patterns for one line

A pattern describes a stretch of a line: characters of a class, repetition of a class, sequence and
choice, and conditions on the place where it stands. Repetition is over single characters only,
which is all that line rules need and makes matching a recursion on the pattern.

`Pattern.render` writes a pattern in the usual notation.
-/

namespace TouchedLines

open Text

inductive ClassItem where
  | char (c : Char)
  | range (low high : Char)
  | blank
  | word
  deriving Repr, DecidableEq

inductive CharClass where
  | char (c : Char)
  /-- Every character but the newline. -/
  | any
  | blank
  | nonBlank
  | word
  | oneOf (items : List ClassItem)
  | noneOf (items : List ClassItem)
  deriving Repr, DecidableEq

inductive Pattern where
  | empty
  | one (s : CharClass)
  /-- Any number of characters, as many as possible first. -/
  | many (s : CharClass)
  /-- At least one character, as many as possible first. -/
  | atLeastOne (s : CharClass)
  | seq (p q : Pattern)
  /-- `p` first, then `q`. -/
  | either (p q : Pattern)
  /-- With `p` first, then without. -/
  | optional (p : Pattern)
  | group (p : Pattern)
  /-- Remembers under `name` the stretch that `p` matches. -/
  | capture (name : Nat) (p : Pattern)
  /-- Between a word character and none. -/
  | boundary
  | lineStart
  | lineEnd
  deriving Repr, DecidableEq

def ClassItem.contains : ClassItem → Char → Bool
  | .char d, c => c == d
  | .range low high, c => decide (low ≤ c) && decide (c ≤ high)
  | .blank, c => isBlank c
  | .word, c => isWord c

def CharClass.contains : CharClass → Char → Bool
  | .char d, c => c == d
  | .any, c => c != '\n'
  | .blank, c => isBlank c
  | .nonBlank, c => !isBlank c
  | .word, c => isWord c
  | .oneOf items, c => items.any (·.contains c)
  | .noneOf items, c => !items.any (·.contains c)

namespace Pattern

instance : Append Pattern := ⟨seq⟩

/-- The characters of `s`, one after another. -/
def text (s : String) : Pattern :=
  s.toList.foldr (fun c p => seq (one (.char c)) p) empty

def firstOf : List Pattern → Pattern
  | [] => empty
  | [p] => p
  | p :: q :: rest => either p (firstOf (q :: rest))

end Pattern

def ClassItem.render : ClassItem → List Char
  | .char c => [c]
  | .range low high => [low, '-', high]
  | .blank => ['\\', 's']
  | .word => ['\\', 'w']

/-- Whether a character has a meaning of its own in the notation outside brackets. -/
def isOperator (c : Char) : Bool := c ∈ "\\.+*?()|[]\x7b\x7d^$".toList

def CharClass.render : CharClass → List Char
  | .char c => if isOperator c then ['\\', c] else [c]
  | .any => ['.']
  | .blank => ['\\', 's']
  | .nonBlank => ['\\', 'S']
  | .word => ['\\', 'w']
  | .oneOf items => '[' :: items.flatMap ClassItem.render ++ [']']
  | .noneOf items => '[' :: '^' :: items.flatMap ClassItem.render ++ [']']

def Pattern.render : Pattern → List Char
  | .empty => []
  | .one s => s.render
  | .many s => s.render ++ ['*']
  | .atLeastOne s => s.render ++ ['+']
  | .seq p q => p.render ++ q.render
  | .either p q => p.render ++ '|' :: q.render
  | .optional p => p.render ++ ['?']
  | .group p => '(' :: '?' :: ':' :: p.render ++ [')']
  | .capture _ p => '(' :: p.render ++ [')']
  | .boundary => ['\\', 'b']
  | .lineStart => ['^']
  | .lineEnd => ['$']

end TouchedLines
