import TouchedLines.Glob.Basic

/-! # Reading a glob

A glob is read character by character. Two stars stand for directories only where they are a whole
component of the path; elsewhere they are no more than one star.
-/

namespace TouchedLines

/-- A character class whose closing bracket is still to come. -/
structure ClassReading where
  negated : Bool
  /-- The ranges so far, the last one first. -/
  ranges : List (Char × Char)
  /-- A hyphen stands between the last range and what follows. -/
  afterHyphen : Bool

namespace ClassReading

/-- The class that is closed here. A hyphen in front of the bracket stands for itself. -/
def close (k : ClassReading) : GlobPart :=
  .oneOf k.negated (if k.afterHyphen then ('-', '-') :: k.ranges else k.ranges).reverse

/-- A character of the class; after a hyphen it ends the last range. -/
def take (k : ClassReading) (c : Char) : Except GlobFault ClassReading :=
  match k.ranges with
  | [] => .ok { k with ranges := [(c, c)] }
  | (low, high) :: ranges =>
    if k.afterHyphen then
      if c < low then .error (.backwardRange low c)
      else .ok { k with ranges := (low, c) :: ranges, afterHyphen := false }
    else if c = '-' then .ok { k with afterHyphen := true }
    else .ok { k with ranges := (c, c) :: (low, high) :: ranges }

end ClassReading

/-- A group of alternatives that is open. -/
structure OpenGroup where
  /-- The parts in front of the group, the last one first. -/
  before : List GlobPart
  /-- The complete alternatives of the group around this one, the last one first. -/
  finished : List Glob

structure GlobReading where
  /-- The parts of the alternative being read, the last one first. -/
  parts : List GlobPart := []
  /-- The complete alternatives of the innermost open group, the last one first. -/
  finished : List Glob := []
  groups : List OpenGroup := []

namespace GlobReading

def push (r : GlobReading) (part : GlobPart) : GlobReading := { r with parts := part :: r.parts }

def inGroup (r : GlobReading) : Bool := !r.groups.isEmpty

def openGroup (r : GlobReading) : GlobReading where
  parts := []
  finished := []
  groups := ⟨r.parts, r.finished⟩ :: r.groups

def nextAlternative (r : GlobReading) : GlobReading :=
  { r with parts := [], finished := r.parts.reverse :: r.finished }

def closeGroup (r : GlobReading) : Except GlobFault GlobReading :=
  match r.groups with
  | [] => .error .unopenedGroup
  | group :: groups =>
    .ok ⟨.choice (r.parts.reverse :: r.finished).reverse :: group.before, group.finished, groups⟩

def finish (r : GlobReading) : Except GlobFault Glob :=
  if r.inGroup then .error .unclosedGroup else .ok r.parts.reverse

/-- Whether two stars after `previous` can start a component that is not the first. -/
def startsComponent (r : GlobReading) (previous : Option Char) : Bool :=
  previous == some '/' || r.inGroup && (previous == some ',' || previous == some '\x7b')

/-- Whether the alternative ends in front of `next`. -/
def endsAt (r : GlobReading) : Option Char → Bool
  | none => true
  | some c => r.inGroup && (c == ',' || c == '\x7d')

/-- Puts directories in place of the `/` in front of them; next to other directories they add
nothing. -/
def replaceLast (r : GlobReading) (part : GlobPart) : GlobReading :=
  match r.parts with
  | .leadingDirs :: _ => r
  | .trailingTree :: _ => r
  | parts => { r with parts := part :: parts.drop 1 }

/-- Two stars between `previous` and `next`, and whether they take a `/` after them along. -/
def doubleStar (r : GlobReading) (previous next : Option Char) : GlobReading × Bool :=
  let slash := next == some '/'
  if r.parts.isEmpty then
    if slash || next.isNone then (r.push .leadingDirs, slash)
    else ((r.push .anyText).push .anyText, false)
  else if r.startsComponent previous && (slash || r.endsAt next) then
    (r.replaceLast (if slash then .middleDirs else .trailingTree), slash)
  else ((r.push .anyText).push .anyText, false)

/-- A character that is part of no class, escape or star. -/
def take (r : GlobReading) (c : Char) : Except GlobFault GlobReading :=
  if c = '?' then .ok (r.push .anyByte)
  else if c = '\x7b' then .ok r.openGroup
  else if c = '\x7d' then r.closeGroup
  else if c = ',' ∧ r.inGroup then .ok r.nextAlternative
  else .ok (r.push (.literal c))

end GlobReading

mutual

/-- Reads on after the character `previous`. -/
def Glob.readFrom (r : GlobReading) (previous : Option Char) : List Char → Except GlobFault Glob
  | [] => r.finish
  | '\\' :: [] => .error .danglingEscape
  | '\\' :: c :: rest => Glob.readFrom (r.push (.literal c)) (some c) rest
  | '[' :: '!' :: rest => Glob.readClass r ⟨true, [], false⟩ rest
  | '[' :: '^' :: rest => Glob.readClass r ⟨true, [], false⟩ rest
  | '[' :: rest => Glob.readClass r ⟨false, [], false⟩ rest
  | '*' :: '*' :: '/' :: rest =>
    let (after, takesSlash) := r.doubleStar previous (some '/')
    if takesSlash then Glob.readFrom after (some '/') rest
    else Glob.readFrom (after.push (.literal '/')) (some '/') rest
  | '*' :: '*' :: rest => Glob.readFrom (r.doubleStar previous rest.head?).1 (some '*') rest
  | '*' :: rest => Glob.readFrom (r.push .anyText) (some '*') rest
  | c :: rest =>
    match r.take c with
    | .error fault => .error fault
    | .ok after => Glob.readFrom after (some c) rest

def Glob.readClass (r : GlobReading) (k : ClassReading) : List Char → Except GlobFault Glob
  | [] => .error .unclosedClass
  | c :: rest =>
    if c = ']' ∧ !k.ranges.isEmpty then Glob.readFrom (r.push k.close) (some c) rest
    else
      match k.take c with
      | .error fault => .error fault
      | .ok next => Glob.readClass r next rest

end

def Glob.ofText (text : String) : Except GlobFault Glob := Glob.readFrom {} none text.toList

end TouchedLines
