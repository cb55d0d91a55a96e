import TouchedLines.Text.Lines

/-! # Words in a text

Whole words among ASCII word characters, and a word at the start of a text.
-/

namespace TouchedLines.Text

/-- Whether a neighbour leaves a word whole: there is none, or it is no ASCII word character. -/
def isWordEdge (neighbour : Option Char) : Bool := !neighbour.any isAsciiWord

/-- Searches for `word` as a whole word in a text after the character `before`. The first `skipped`
characters belong to an occurrence that was looked at already. -/
def containsWordFrom (word : List Char) (before : Option Char) (skipped : Nat) :
    List Char → Bool
  | [] => false
  | c :: cs =>
    match skipped with
    | skipped + 1 => containsWordFrom word (some c) skipped cs
    | 0 =>
      match dropStart? word (c :: cs) with
      | none => containsWordFrom word (some c) 0 cs
      | some rest =>
        (isWordEdge before && isWordEdge rest.head?) ||
          containsWordFrom word (some c) (word.length - 1) cs

/-- Whether one of the occurrences of `word` that follow each other without overlap, counted from
the left, has no word character beside it. -/
def containsWord (line word : List Char) : Bool :=
  !word.isEmpty && containsWordFrom word none 0 line

/-- Whether the text starts with `word` and does not go on with a letter, a number or `_`. -/
def startsWithWord (text word : List Char) : Bool :=
  match dropStart? word text with
  | none => false
  | some rest => !rest.head?.any fun c => isAlphanumeric c || c == '_'

end TouchedLines.Text
