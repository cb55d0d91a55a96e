import TouchedLines.Text.Lines

/-! # Loose comparisons

`==` and `!=` are loose unless they compare with `null` or `undefined`.
-/

namespace TouchedLines.Script

open Text

/-- Whether a text names one of the two values that a loose comparison may be used for. -/
def startsNullish (text : List Char) : Bool :=
  "null".toList.isPrefixOf text || "undefined".toList.isPrefixOf text

/-- Whether the text starts with `operator` and no nullish value follows it. -/
def startsLoose (operator text : List Char) : Bool :=
  match dropStart? operator text with
  | none => false
  | some rest => !startsNullish (rest.dropWhile isAsciiBlank)

/-- Whether `operator` occurs without a nullish value behind it. -/
def hasLoose (operator : List Char) : List Char → Bool
  | [] => false
  | c :: cs => startsLoose operator (c :: cs) || hasLoose operator cs

def hasStrictEquality (line : Line) : Bool := hasInfix "===".toList line

def hasStrictInequality (line : Line) : Bool := hasInfix "!==".toList line

end TouchedLines.Script
