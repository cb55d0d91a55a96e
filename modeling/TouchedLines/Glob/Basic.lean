/-! # Globs

A glob describes paths. Its parts are matched against the bytes of a path one after another.
-/

namespace TouchedLines

inductive GlobPart where
  | literal (c : Char)
  | anyByte
  /-- Any bytes, `/` included. -/
  | anyText
  /-- Nothing, or directories with the `/` that ends them. -/
  | leadingDirs
  /-- One `/`, or directories between two. -/
  | middleDirs
  /-- Everything inside a directory. -/
  | trailingTree
  /-- A byte of the ranges, or one of no range. -/
  | oneOf (negated : Bool) (ranges : List (Char × Char))
  | choice (branches : List (List GlobPart))
  deriving Repr

abbrev Glob := List GlobPart

inductive GlobFault where
  | unclosedClass
  | backwardRange (low high : Char)
  | unclosedGroup
  | unopenedGroup
  | danglingEscape
  deriving Repr, DecidableEq

def GlobFault.message : GlobFault → String
  | unclosedClass => "unclosed character class; missing ']'"
  | backwardRange low high =>
    s!"invalid range; '{String.ofList [low]}' > '{String.ofList [high]}'"
  | unclosedGroup =>
    "unclosed alternate group; missing '\x7d' (maybe escape '\x7b' with '[\x7b]'?)"
  | unopenedGroup =>
    "unopened alternate group; missing '\x7b' (maybe escape '\x7d' with '[\x7d]'?)"
  | danglingEscape => "dangling '\\'"

end TouchedLines
