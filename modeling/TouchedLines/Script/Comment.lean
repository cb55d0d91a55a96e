import TouchedLines.Rule.Basic

/-! # Comments in scripts

A line that opens or closes a comment is one, and so is a line between an opening and a closing one.
Openings and closings count only at the start and the end of a trimmed line.
-/

namespace TouchedLines.Script

open Text

def opensBlock (line : Line) : Bool := "/*".toList.isPrefixOf (trim line)

def closesBlock (line : Line) : Bool := "*/".toList.isSuffixOf (trim line)

/-- Whether a block comment is open below a line, if `isOpen` says whether it is above. -/
def openBelow (line : Line) (isOpen : Bool) : Bool :=
  (isOpen || opensBlock line) && !closesBlock line

/-- Whether the line stands in a block comment, the line that opens it included. -/
def inBlockComment (v : LineView) : Bool := v.above.foldr openBelow false || opensBlock v.line

def isComment (v : LineView) : Bool :=
  "//".toList.isPrefixOf (trim v.line) || opensBlock v.line || closesBlock v.line ||
    inBlockComment v

theorem inBlockComment_cons (line : Line) (above : List Line) (current : Line)
    (below : List Line) :
    inBlockComment ⟨line :: above, current, below⟩ =
      ((inBlockComment ⟨above, line, current :: below⟩ && !closesBlock line) ||
        opensBlock current) := by
  simp [inBlockComment, openBelow]

end TouchedLines.Script
