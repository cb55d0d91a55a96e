import TouchedLines.Rule.Basic
import TouchedLines.Script.Parameters

/-! # Statements of scripts

When a declared variable is used below its line, and when a line needs no semicolon: by its last
character, by its first word, or because it stands inside an object or array literal.
-/

namespace TouchedLines.Script

open Text Pattern

def variableName : Nat := 1

/-- `\bvar\s+([a-zA-Z_$][a-zA-Z0-9_$]*)\s*=` -/
def declaration : Pattern :=
  boundary ++ (text "var" ++ (atLeastOne .blank ++
    (capture variableName (one nameStart ++ many nameRest) ++ (blanks ++ text "="))))

/-- The name that the leftmost declaration of a line declares. -/
def declaredName? (line : Line) : Option (List Char) :=
  (declaration.find? line).bind (·.captured? variableName)

def isUsedBelow (v : LineView) : Bool :=
  (declaredName? v.line).any fun name => v.below.any fun line => containsWord line name

/-- Depth of one kind of bracket, and whether the text is inside a pair of the outermost level. -/
structure Nesting where
  depth : Int
  inside : Bool
  deriving Repr, DecidableEq

namespace Nesting

def outside : Nesting := ⟨0, false⟩

/-- A pair is entered on the way up to depth 1 and left on the way down to depth 0. -/
def read (opening closing : Char) (n : Nesting) (c : Char) : Nesting :=
  if c = opening then ⟨n.depth + 1, if n.depth + 1 = 1 then true else n.inside⟩
  else if c = closing then ⟨n.depth - 1, if n.depth - 1 = 0 then false else n.inside⟩
  else n

/-- The nesting after the lines above, of which the nearest comes first. -/
def ofAbove (opening closing : Char) (above : List Line) : Nesting :=
  above.foldr (fun line n => line.foldl (read opening closing) n) outside

end Nesting

def inLiteral (v : LineView) : Bool :=
  (Nesting.ofAbove '\x7b' '\x7d' v.above).inside || (Nesting.ofAbove '[' ']' v.above).inside

def controlKeywords : List String :=
  ["if", "else", "for", "while", "switch", "try", "catch", "finally"]

def declarationKeywords : List String := ["function", "class"]

def jumpKeywords : List String := ["return", "break", "continue", "throw"]

/-- The words after which a line needs no semicolon. -/
def openKeywords : List String := controlKeywords ++ declarationKeywords ++ jumpKeywords

def endsOpen (trimmed : Line) : Bool :=
  trimmed.getLast?.any fun c => c ∈ [';', ',', '\x7b', '\x7d', '[', '(']

def startsOpen (trimmed : Line) : Bool :=
  openKeywords.any fun keyword => startsWithWord trimmed keyword.toList

def needsNoSemicolon (v : LineView) : Bool :=
  let trimmed := trim v.line
  trimmed.isEmpty || endsOpen trimmed || trimmed == [']'] || trimmed == [')'] ||
    startsOpen trimmed || inLiteral v

end TouchedLines.Script
