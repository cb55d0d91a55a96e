import TouchedLines.Glob.Basic
import TouchedLines.Text.Lines
import TouchedLines.Text.Utf8

/-! # Matching a glob

A part moves a set of remainders of the path to the remainders that may follow it. A set of
remainders is kept as a list from the longest to the shortest, each once.
-/

namespace TouchedLines

open Text

abbrev Remainder := List UInt8

namespace Remainder

def slash : UInt8 := 0x2F

def union : List Remainder → List Remainder → List Remainder
  | [], ys => ys
  | x :: xs, [] => x :: xs
  | x :: xs, y :: ys =>
    if y.length < x.length then x :: union xs (y :: ys)
    else if x.length < y.length then y :: union (x :: xs) ys
    else x :: union xs ys
termination_by xs ys => xs.length + ys.length

/-- The remainders that can follow some remainder of a set. -/
def advanceEach (follow : Remainder → List Remainder) (rests : List Remainder) : List Remainder :=
  rests.foldr (fun rest found => union (follow rest) found) []

/-- A text and all that is left of it after some of its bytes. -/
def tails : Remainder → List Remainder
  | [] => [[]]
  | b :: rest => (b :: rest) :: tails rest

def afterSlashes : Remainder → List Remainder
  | [] => []
  | b :: rest => if b == slash then rest :: afterSlashes rest else afterSlashes rest

/-- What is left after a first byte that is among some. -/
def afterByte (among : UInt8 → Bool) : Remainder → List Remainder
  | [] => []
  | b :: rest => if among b then [rest] else []

end Remainder

namespace GlobPart

/-- The ranges of bytes that a range of characters covers: bytes of the character that starts it,
the range from its last byte to the first byte of the character that ends it, and the other bytes
of that one. -/
def byteRanges (range : Char × Char) : List (UInt8 × UInt8) :=
  let low := Utf8.encode [range.1]
  let high := Utf8.encode [range.2]
  let single (b : UInt8) := (b, b)
  if range.1 = range.2 then low.map single
  else
    low.dropLast.map single ++ (low.getLast?.toList.zip (high.take 1)) ++ (high.drop 1).map single

def holdsByte (ranges : List (Char × Char)) (b : UInt8) : Bool :=
  (ranges.flatMap byteRanges).any fun (low, high) => decide (low ≤ b) && decide (b ≤ high)

/-- The remainders that can follow a part that is no choice. -/
def follow : GlobPart → Remainder → List Remainder
  | literal c, rest => (dropStart? (Utf8.encode [c]) rest).toList
  | anyByte, rest => Remainder.afterByte (fun _ => true) rest
  | anyText, rest => Remainder.tails rest
  | leadingDirs, rest => Remainder.union [rest] (Remainder.afterSlashes rest)
  | middleDirs, [] => []
  | middleDirs, b :: rest =>
    if b == Remainder.slash then Remainder.union [rest] (Remainder.afterSlashes rest) else []
  | trailingTree, b :: _ :: rest => if b == Remainder.slash then Remainder.tails rest else []
  | trailingTree, _ => []
  | oneOf negated ranges, rest => Remainder.afterByte (fun b => holdsByte ranges b != negated) rest
  | choice _, _ => []

end GlobPart

mutual

/-- A part that says nothing: a choice without an alternative that says something. -/
def GlobPart.isVacuous : GlobPart → Bool
  | .choice branches => Glob.areVacuous branches
  | _ => false

def Glob.isVacuous : List GlobPart → Bool
  | [] => true
  | part :: parts => part.isVacuous && Glob.isVacuous parts

def Glob.areVacuous : List (List GlobPart) → Bool
  | [] => true
  | branch :: branches => Glob.isVacuous branch && Glob.areVacuous branches

end

mutual

/-- The remainders that can follow a part. A choice passes over its vacuous alternatives. -/
def GlobPart.advance : GlobPart → List Remainder → List Remainder
  | .choice branches, rests =>
    if Glob.areVacuous branches then rests else Glob.advanceAny branches rests
  | part, rests => Remainder.advanceEach part.follow rests

/-- The remainders that can follow all parts in their order. -/
def Glob.advance : List GlobPart → List Remainder → List Remainder
  | [], rests => rests
  | part :: parts, rests => Glob.advance parts (part.advance rests)

def Glob.advanceAny : List (List GlobPart) → List Remainder → List Remainder
  | [], _ => []
  | branch :: branches, rests =>
    Remainder.union (if Glob.isVacuous branch then [] else Glob.advance branch rests)
      (Glob.advanceAny branches rests)

end

/-- The glob describes the whole path. Leading directories alone describe every path. -/
def Glob.isMatch (glob : Glob) (path : String) : Bool :=
  match glob with
  | [.leadingDirs] => true
  | _ => (Glob.advance glob [Utf8.encode path.toList]).any List.isEmpty

end TouchedLines
