import TouchedLines.CommandLine.Run
import TouchedLines.Proofs.RuleTexts

/-! # How a text report ends

A text report is a line for the start and a block for each offense; if no file failed, a closing
line says that all is well. A block ends with a marker, or with its header if the line of the file
is not known, and neither looks like the closing line unless the header breaks.
-/

namespace TouchedLines

open Text

/-- An offense as the text report shows it, with the line of the file if it is known. -/
structure OffenseBlock where
  path : String
  offense : Offense
  source? : Option Line

namespace OffenseBlock

def text (b : OffenseBlock) : List Char := b.offense.render b.path b.source?

/-- A block that does not have the line of the file is one line. -/
def Unbroken (b : OffenseBlock) : Prop := b.source? = none → b.offense.OneLine

end OffenseBlock

namespace Summary

def blocks (s : Summary) : List OffenseBlock :=
  s.outcomes.flatMap fun o => o.offenses.map fun offense =>
    ⟨o.path, offense, Offense.sourceLine? (splitLines o.source.toList) offense.line⟩

theorem toList_renderText (s : Summary) :
    s.renderText.toList = s.blocks.flatMap OffenseBlock.text := by
  rw [renderText, String.toList_ofList, blocks, List.flatMap_assoc]
  congr 1
  funext o
  rw [renderOutcome, List.flatMap_map]
  rfl

theorem length_blocks (s : Summary) : s.blocks.length = s.offenseCount := by
  simp [blocks, offenseCount, List.length_flatMap]

end Summary

/-! ## The closing line -/

/-- The text ends with the line that says that all is well. -/
def EndsAllWell (text : String) : Prop :=
  ∃ lines : List Line, text.toList = terminateLines lines ++ CheckTrace.allWell.toList

def allWellLine : Line := CheckTrace.allWell.toList.dropLast

theorem exists_allWell_eq_ofList : ∃ text : List Char, CheckTrace.allWell = String.ofList text ∧
    text.getLast? = some '\n' ∧ text.dropLast.getLast? = some 'd' ∧
    text.dropLast.all (fun c => !isAsciiDigit c && c != '[') = true :=
  ⟨_, rfl, by decide, by decide, by decide⟩

theorem toList_allWell : CheckTrace.allWell.toList = allWellLine ++ ['\n'] := by
  obtain ⟨text, hText, hLast, _⟩ := exists_allWell_eq_ofList
  rw [allWellLine, hText, String.toList_ofList]
  exact (List.dropLast_append_getLast? '\n' hLast).symm

theorem getLast?_allWellLine : allWellLine.getLast? = some 'd' := by
  obtain ⟨text, hText, _, hLast, _⟩ := exists_allWell_eq_ofList
  rw [allWellLine, hText, String.toList_ofList, hLast]

theorem of_mem_allWellLine {c : Char} (h : c ∈ allWellLine) : isAsciiDigit c = false ∧ c ≠ '[' := by
  obtain ⟨text, hText, _, _, hChars⟩ := exists_allWell_eq_ofList
  rw [allWellLine, hText, String.toList_ofList] at h
  simpa using List.all_eq_true.mp hChars c h

theorem eq_nil_of_append_eq_terminateLines {lines : List Line} {before rest : List Char}
    (h : before ++ rest = terminateLines lines) (hRest : '\n' ∉ rest) : rest = [] := by
  rcases List.eq_nil_or_concat rest with rfl | ⟨rest, c, rfl⟩
  · rfl
  · exfalso
    rcases List.eq_nil_or_concat lines with rfl | ⟨lines, line, rfl⟩
    · simp [terminateLines] at h
    · apply hRest
      have hLast : c = '\n' := by simpa [terminateLines] using congrArg List.getLast? h
      simp [hLast]

/-- The last line does not say that all is well if something on it is not part of that. -/
theorem not_endsAllWell_of_suffix {text : String} (before : List Char) {tail : List Char}
    (hText : text.toList = before ++ (tail ++ ['\n'])) (hTail : '\n' ∉ tail)
    (hSuffix : ¬tail <:+ allWellLine) : ¬EndsAllWell text := by
  rintro ⟨lines, hLines⟩
  rw [hText, toList_allWell, ← List.append_assoc, ← List.append_assoc] at hLines
  have hSame := List.append_cancel_right hLines
  obtain ⟨gap, hGap, rfl⟩ | ⟨gap, -, hLine⟩ := List.append_eq_append_iff.mp hSame
  · have hGapNil : gap = [] :=
      eq_nil_of_append_eq_terminateLines hGap.symm fun h => hTail (List.mem_append_left _ h)
    exact hSuffix ⟨[], by rw [hGapNil]; rfl⟩
  · exact hSuffix ⟨gap, hLine.symm⟩

theorem not_endsAllWell_of_last {text : String} (before : List Char) {c : Char}
    (hText : text.toList = before ++ [c, '\n']) (hLast : c ≠ 'd') : ¬EndsAllWell text := by
  rintro ⟨lines, hLines⟩
  rw [hText, toList_allWell, List.append_cons, ← List.append_assoc] at hLines
  have hEnd := congrArg List.getLast? (List.append_cancel_right hLines)
  rw [List.getLast?_concat, List.getLast?_append, getLast?_allWellLine] at hEnd
  exact hLast (Option.some.inj hEnd)

namespace Offense

/-- What stands behind the path in the header of an offense. -/
def afterPath (o : Offense) : List Char :=
  ':' :: Decimal.digits o.location.line.toNat ++
    ':' :: Decimal.digits o.location.column.toNat ++
    ": ".toList ++ o.severity.initial :: ": ".toList ++ o.cop.toList ++ ": ".toList ++
    o.message.toList

theorem header_eq (path : String) (o : Offense) : o.header path = path.toList ++ o.afterPath := by
  simp only [header, afterPath, List.append_assoc, List.cons_append]

theorem OneLine.newline_notMem_afterPath {o : Offense} (h : o.OneLine) : '\n' ∉ o.afterPath := by
  obtain ⟨hCop, hMessage⟩ := h
  have hDigits := Decimal.notMem_digits (c := '\n') (by decide)
  have hInitial : '\n' ≠ o.severity.initial := by cases o.severity <;> decide
  have hColon : '\n' ∉ ": ".toList := by decide
  simp only [afterPath, List.mem_append, List.mem_cons, not_or]
  exact ⟨⟨⟨⟨⟨⟨⟨by decide, hDigits _⟩, by decide, hDigits _⟩, hColon⟩, hInitial, hColon⟩, hCop⟩,
    hColon⟩, hMessage⟩

theorem not_afterPath_suffix (o : Offense) : ¬o.afterPath <:+ allWellLine := by
  intro hSuffix
  -- a header has digits, and the closing line has none
  obtain ⟨c, digits, hDigits, hDigit⟩ := Decimal.exists_digits_eq_cons o.location.line.toNat
  have hMem : c ∈ allWellLine := by
    apply hSuffix.subset
    simp [afterPath, hDigits]
  rw [(of_mem_allWellLine hMem).1] at hDigit
  cases hDigit

theorem exists_marker_end (source : Line) (l : Location) :
    ∃ before c, '\n' :: marker source l = before ++ [c] ∧ c ≠ 'd' := by
  rcases List.eq_nil_or_concat (marker source l) with hEmpty | ⟨before, c, hMarker⟩
  · exact ⟨[], '\n', by rw [hEmpty]; rfl, by decide⟩
  · rw [List.concat_eq_append] at hMarker
    refine ⟨'\n' :: before, c, by rw [hMarker]; rfl, ?_⟩
    -- the marker consists of blanks and carets
    have hMem : c ∈ marker source l := by simp [hMarker]
    unfold marker at hMem
    split at hMem
    · cases hMem
    · rcases List.mem_append.mp hMem with hMem | hMem
      · rw [List.eq_of_mem_replicate hMem]
        decide
      · rw [List.eq_of_mem_replicate hMem]
        decide

end Offense

theorem OffenseBlock.not_endsAllWell {b : OffenseBlock} (hUnbroken : b.Unbroken) {text : String}
    (before : List Char) (hText : text.toList = before ++ b.text) : ¬EndsAllWell text := by
  cases hSource : b.source? with
  | none =>
    refine not_endsAllWell_of_suffix (before ++ b.path.toList) ?_
      (hUnbroken hSource).newline_notMem_afterPath b.offense.not_afterPath_suffix
    simp [hText, OffenseBlock.text, Offense.render, hSource, terminateLines, Offense.header_eq]
  | some source =>
    obtain ⟨start, c, hEnd, hc⟩ := Offense.exists_marker_end source b.offense.location
    refine not_endsAllWell_of_last
      (before ++ b.offense.header b.path ++ '\n' :: trimEnd source ++ start) ?_ hc
    have hBlock : b.text = b.offense.header b.path ++ '\n' :: trimEnd source ++
        ('\n' :: Offense.marker source b.offense.location) ++ ['\n'] := by
      simp [OffenseBlock.text, Offense.render, hSource, terminateLines]
    rw [hText, hBlock, hEnd]
    simp only [List.append_assoc, List.cons_append, List.nil_append]

theorem OffenseBlock.exists_lines (blocks : List OffenseBlock) :
    ∃ lines, blocks.flatMap text = terminateLines lines := by
  induction blocks with
  | nil => exact ⟨[], rfl⟩
  | cons b blocks ih =>
    obtain ⟨lines, hLines⟩ := ih
    have hBlock : ∃ first, b.text = terminateLines first := by
      unfold text Offense.render
      split
      · exact ⟨_, rfl⟩
      · exact ⟨_, rfl⟩
    obtain ⟨first, hFirst⟩ := hBlock
    refine ⟨first ++ lines, ?_⟩
    rw [List.flatMap_cons, hFirst, hLines, terminateLines, terminateLines, terminateLines,
      List.flatMap_append]

theorem toList_startLine (w : World) :
    (CheckTrace.startLine w).toList = "[START] ".toList ++ w.clock.toList ++ ['\n'] := by
  simp [CheckTrace.startLine, String.toList_append]

theorem not_endsAllWell_startLine {w : World} (hClock : '\n' ∉ w.clock.toList) :
    ¬EndsAllWell (CheckTrace.startLine w) := by
  have hText : (CheckTrace.startLine w).toList =
      [] ++ (("[START] ".toList ++ w.clock.toList) ++ ['\n']) :=
    toList_startLine w
  refine not_endsAllWell_of_suffix [] hText ?_ ?_
  · rw [List.mem_append, not_or]
    exact ⟨by decide, hClock⟩
  · intro hSuffix
    have hMem : '[' ∈ allWellLine := hSuffix.subset (List.mem_append_left _ (by decide))
    exact (of_mem_allWellLine hMem).2 rfl

end TouchedLines
