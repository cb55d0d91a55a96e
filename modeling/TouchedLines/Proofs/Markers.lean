import Mathlib.Data.Nat.PSub
import TouchedLines.Report.Text

/-! # Markers under source lines

A marker is as much of its blanks and carets as fits: one place more than the source line has. It
takes two differences to find out how much that is, and both exist for every place and every line.
-/

namespace TouchedLines

open Text

namespace Offense

/-- The marker, if each number that is taken away is at most the one that it is taken from. -/
def marker? (source : Line) (l : Location) : Option Line :=
  if l.column.toNat ≤ 1 then some []
  else do
    let width := source.length + 1
    let pad := min (← Nat.psub l.column.toNat 1) width
    let carets := min l.length.toNat (← Nat.psub width pad)
    return List.replicate pad ' ' ++ List.replicate carets '^'

/-- Blanks up to the column, then a caret for each character of the offense. -/
def wholeMarker (l : Location) : Line :=
  List.replicate (l.column.toNat - 1) ' ' ++ List.replicate l.length.toNat '^'

variable {source : Line} {l : Location}

theorem marker?_eq_some_marker (source : Line) (l : Location) :
    marker? source l = some (marker source l) := by
  rw [marker?, marker]
  split
  · rfl
  · rename_i hColumn
    have hPad : Nat.psub l.column.toNat 1 = some (l.column.toNat - 1) :=
      Nat.psub_eq_sub (by omega)
    have hRest := Nat.psub_eq_sub (min_le_right (l.column.toNat - 1) (source.length + 1))
    simp only [hPad, hRest, Option.bind_eq_bind, Option.bind_some]
    rfl

theorem marker_of_column_le_one (h : l.column.toNat ≤ 1) : marker source l = [] := if_pos h

theorem marker_eq_take (h : 1 < l.column.toNat) :
    marker source l = (wholeMarker l).take (source.length + 1) := by
  have hPad : min (source.length + 1) (l.column.toNat - 1) =
      min (l.column.toNat - 1) (source.length + 1) := min_comm _ _
  -- what the blanks leave is what they would leave without being cut off
  have hCarets : min (source.length + 1 - (l.column.toNat - 1)) l.length.toNat =
      min l.length.toNat (source.length + 1 - min (l.column.toNat - 1) (source.length + 1)) := by
    omega
  rw [marker, if_neg (Nat.not_le_of_lt h), wholeMarker, List.take_append, List.take_replicate,
    List.take_replicate, List.length_replicate, hPad, hCarets]

theorem length_marker_le (source : Line) (l : Location) :
    (marker source l).length ≤ source.length + 1 := by
  by_cases h : l.column.toNat ≤ 1
  · rw [marker_of_column_le_one h]
    exact Nat.zero_le _
  · rw [marker_eq_take (Nat.lt_of_not_le h)]
    exact List.length_take_le _ _

theorem getElem?_wholeMarker_eq_caret_iff {k : Nat} : (wholeMarker l)[k]? = some '^' ↔
    l.column.toNat - 1 ≤ k ∧ k < l.column.toNat - 1 + l.length.toNat := by
  rw [wholeMarker, List.getElem?_append, List.length_replicate]
  split
  · rename_i hBlank
    rw [List.getElem?_replicate, if_pos hBlank]
    refine iff_of_false (by decide) ?_
    omega
  · rename_i hBlank
    rw [List.getElem?_replicate, Option.ite_none_right_eq_some, and_iff_left rfl]
    omega

theorem getElem?_marker_eq_caret_iff {k : Nat} : (marker source l)[k]? = some '^' ↔
    1 < l.column.toNat ∧ l.column.toNat - 1 ≤ k ∧
      k < min (l.column.toNat - 1 + l.length.toNat) (source.length + 1) := by
  by_cases h : l.column.toNat ≤ 1
  · rw [marker_of_column_le_one h, List.getElem?_nil]
    refine iff_of_false (by simp) ?_
    omega
  · rw [marker_eq_take (Nat.lt_of_not_le h), List.getElem?_take]
    split
    · rw [getElem?_wholeMarker_eq_caret_iff]
      omega
    · refine iff_of_false (by simp) ?_
      omega

/-- Below its header and its source line an offense has a marker, for which no number is taken away
from a smaller one. It is empty for the first column, and otherwise it is cut off one place behind
the source line: the carets stand from the column on, as many as the offense has characters, as far
as there is room. -/
theorem render_marks_place (path : String) (source : Line) (o : Offense) :
    o.render path (some source) =
      terminateLines [o.header path, trimEnd source, marker source o.location] ∧
    marker? source o.location = some (marker source o.location) ∧
    marker source o.location =
      (if o.location.column.toNat ≤ 1 then []
      else (List.replicate (o.location.column.toNat - 1) ' ' ++
        List.replicate o.location.length.toNat '^').take (source.length + 1)) ∧
    (marker source o.location).length ≤ source.length + 1 ∧
    ∀ k, (marker source o.location)[k]? = some '^' ↔
      1 < o.location.column.toNat ∧ o.location.column.toNat - 1 ≤ k ∧
        k < min (o.location.column.toNat - 1 + o.location.length.toNat) (source.length + 1) := by
  refine ⟨rfl, marker?_eq_some_marker source o.location, ?_, length_marker_le source o.location,
    fun _ => getElem?_marker_eq_caret_iff⟩
  split
  · rename_i hColumn
    exact marker_of_column_le_one hColumn
  · rename_i hColumn
    exact marker_eq_take (Nat.lt_of_not_le hColumn)

example : marker "abc".toList ⟨1, 2, 4294967295⟩ = " ^^^".toList := by decide

end Offense

end TouchedLines
