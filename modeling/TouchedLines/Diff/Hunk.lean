import TouchedLines.LineSet
import TouchedLines.Text.Decimal
import TouchedLines.Text.Lines

/-! # Hunk headers

`@@ -1,2 +3,4 @@ text`: the new side of a hunk is the start and the count behind the first plus
sign, and a missing count is 1.
-/

namespace TouchedLines

open Text

/-- The new side of a hunk. -/
structure Hunk where
  start : LineNumber
  count : UInt32
  deriving Repr, DecidableEq

inductive HunkError where
  | malformed (line : Line)
  deriving Repr, DecidableEq

def HunkError.message : HunkError → String
  | malformed line => "malformed hunk header: " ++ String.ofList line

namespace Hunk

/-- The end of the touched lines, itself not touched, at most the largest line number. -/
def stop (h : Hunk) : LineNumber :=
  if h.start.toNat + h.count.toNat < LineNumber.last.toNat then h.start + h.count
  else LineNumber.last

def lines (h : Hunk) : LineSet := LineSet.range h.start h.stop

/-- A hunk that only removes lines touches none. -/
def isEmpty (h : Hunk) : Bool := decide (h.stop ≤ h.start)

def headerEnd : List Char := " @@".toList

/-- The number of the new side and the text behind it. -/
def readNumber? (text : List Char) : Option (UInt32 × List Char) :=
  if (Decimal.spanDigits text).1.isEmpty then none
  else (Decimal.word? (Decimal.spanDigits text).1).map (·, (Decimal.spanDigits text).2)

/-- What stands behind the plus sign of a header. -/
def ofNewSide? (text : List Char) : Option Hunk :=
  match readNumber? text with
  | none => none
  | some (start, ',' :: text) =>
    match readNumber? text with
    | some (count, text) => if headerEnd.isPrefixOf text then some ⟨start, count⟩ else none
    | none => none
  | some (start, text) => if headerEnd.isPrefixOf text then some ⟨start, 1⟩ else none

def ofHeader? (line : Line) : Option Hunk :=
  match dropStart? "@@ ".toList line with
  | none => none
  | some text =>
    match text.dropWhile (· != '+') with
    | [] => none
    | _ :: newSide => ofNewSide? newSide

def ofHeader (line : Line) : Except HunkError Hunk :=
  match ofHeader? line with
  | some h => .ok h
  | none => .error (.malformed line)

theorem ofHeader_eq_ok_iff {line : Line} {h : Hunk} :
    ofHeader line = .ok h ↔ ofHeader? line = some h := by
  unfold ofHeader
  cases ofHeader? line <;> simp

theorem ofHeader_eq_error_iff {line : Line} {e : HunkError} :
    ofHeader line = .error e ↔ e = .malformed line ∧ ofHeader? line = none := by
  unfold ofHeader
  cases ofHeader? line <;> simp [eq_comm]

theorem mem_lines {h : Hunk} {n : LineNumber} : n ∈ h.lines ↔ h.start ≤ n ∧ n < h.stop :=
  LineSet.mem_range

theorem toNat_stop (h : Hunk) :
    h.stop.toNat = min (h.start.toNat + h.count.toNat) LineNumber.last.toNat := by
  unfold stop
  split
  · rename_i hlt
    rw [UInt32.toNat_add, Nat.mod_eq_of_lt (by simp [LineNumber.last] at hlt; omega)]
    omega
  · omega

theorem mem_lines_iff_toNat {h : Hunk} {n : LineNumber} : n ∈ h.lines ↔
    h.start.toNat ≤ n.toNat ∧ n.toNat < min (h.start.toNat + h.count.toNat) 4294967295 := by
  rw [mem_lines, UInt32.le_iff_toNat_le, UInt32.lt_iff_toNat_lt, toNat_stop]
  rfl

end Hunk

end TouchedLines
