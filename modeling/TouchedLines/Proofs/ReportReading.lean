import TouchedLines.Analyzer.Report
import TouchedLines.Proofs.JsonText
import TouchedLines.Report.Document

/-! # The JSON report read as the report of an analyzer

Every member that the reader looks for is written under the same name, and what is written beside
it is passed over. So a report is read as the offenses of its first file. What the reader does not
take from a report is lost: the rule, which is known by its cop, and the line of the offense.
-/

namespace TouchedLines

open Json

theorem Severity.ofReported_name (s : Severity) : ofReported s.name = s := by
  cases s <;> decide +kernel

theorem Location.readsBack_toJson (l : Location) : l.toJson.ReadsBack :=
  readsBack_record (by simp [readsBack_natural])

theorem Offense.readsBack_toJson (o : Offense) : o.toJson.ReadsBack := by
  rw [Offense.toJson]
  split <;> exact readsBack_record (by simp [readsBack_text, Location.readsBack_toJson])

theorem Outcome.readsBack_toJson (o : Outcome) : o.toJson.ReadsBack := by
  have hOffenses : (array (o.offenses.map Offense.toJson)).ReadsBack :=
    readsBack_array_map fun o _ => o.readsBack_toJson
  rw [Outcome.toJson]
  cases o.analyzerError <;> exact readsBack_record (by simp [readsBack_text, hOffenses])

theorem Summary.readsBack_toJson (s : Summary) : s.toJson.ReadsBack := by
  have hFiles : (array (s.outcomes.map Outcome.toJson)).ReadsBack :=
    readsBack_array_map fun o _ => o.readsBack_toJson
  have hCounts : (record [("files_checked", natural s.checked), ("files_failed", natural s.failed),
      ("offenses", natural s.offenseCount)]).ReadsBack :=
    readsBack_record (by simp [readsBack_natural])
  exact readsBack_record (by simp [hFiles, hCounts])

/-- What a report says of an offense to the reader of reports. -/
def Offense.asReported (o : Offense) : Offense := { o with rule := o.cop, lineContent := "" }

namespace Report

theorem location?_toJson (l : Location) : location? l.toJson = some l := by
  have hFields : l.toJson.fields? ["line", "column", "length"] =
      some [some (natural l.line.toNat), some (natural l.column.toNat),
        some (natural l.length.toNat)] :=
    fields?_record (by simp) _
  rw [location?, hFields]
  simp [word?_natural]

theorem offense?_toJson (o : Offense) : offense? o.toJson = some o.asReported := by
  have hFields : o.toJson.fields? ["severity", "cop_name", "message", "location"] =
      some [some (text o.severity.name), some (text o.cop), some (text o.message),
        some o.location.toJson] := by
    rw [Offense.toJson]
    split <;> exact fields?_record (by simp) _
  rw [offense?, hFields]
  simp [text?, text, location?_toJson, Severity.ofReported_name, Offense.asReported]

theorem file?_toJson (o : Outcome) : file? o.toJson = some (o.offenses.map Offense.asReported) := by
  have hFields : o.toJson.fields? ["offenses"] =
      some [some (array (o.offenses.map Offense.toJson))] := by
    rw [Outcome.toJson]
    cases o.analyzerError <;> exact fields?_record (by simp) _
  rw [file?, hFields]
  exact list?_array_map offense?_toJson o.offenses

theorem files?_toJson (s : Summary) :
    files? s.toJson = some (s.outcomes.map fun o => o.offenses.map Offense.asReported) := by
  have hFields : s.toJson.fields? ["files"] =
      some [some (array (s.outcomes.map Outcome.toJson))] :=
    fields?_record (by simp) _
  rw [files?, hFields]
  exact list?_array_map file?_toJson s.outcomes

theorem asReported_of_offense? {v : Json} {o : Offense} (h : offense? v = some o) :
    o.asReported = o := by
  rw [offense?] at h
  split at h
  · simp only [Option.bind_eq_bind, Option.bind_eq_some_iff] at h
    obtain ⟨_, _, _, _, _, _, _, _, h⟩ := h
    cases h
    rfl
  · cases h

theorem asReported_of_mem_file? {v : Json} {offenses : List Offense}
    (h : file? v = some offenses) {o : Offense} (ho : o ∈ offenses) : o.asReported = o := by
  rw [file?] at h
  split at h
  · obtain ⟨_, hItem⟩ := exists_of_mem_list? h ho
    exact asReported_of_offense? hItem
  · cases h

/-- An offense that was read from a report names its rule by its cop and has no line. -/
theorem asReported_of_mem_read {text : List Char} {offenses : List Offense}
    (h : read text = .ok offenses) {o : Offense} (ho : o ∈ offenses) : o.asReported = o := by
  rw [read] at h
  split at h
  · rename_i files hFiles
    cases h
    cases files with
    | nil => cases ho
    | cons first files =>
      obtain ⟨v, -, hv⟩ := Option.bind_eq_some_iff.mp hFiles
      rw [files?] at hv
      split at hv
      · obtain ⟨_, hItem⟩ := exists_of_mem_list? hv List.mem_cons_self
        exact asReported_of_mem_file? hItem ho
      · cases hv
  · cases h

theorem read_renderJson_eq (s : Summary) :
    read s.renderJson.toList =
      .ok ((s.outcomes.map fun o => o.offenses.map Offense.asReported).headD []) := by
  have hDocument : Json.ofText? s.renderJson.toList = some s.toJson := by
    rw [Summary.renderJson, String.toList_ofList, ofText?_pretty s.readsBack_toJson]
  rw [read, hDocument, Option.bind_some, files?_toJson]

/-- A report is read as the offenses of its first file, none if it has no file. Offenses that were
read from reports themselves come back as they are. -/
theorem read_renderJson :
    (∀ s : Summary, read s.renderJson.toList =
      .ok (match s.outcomes with
        | [] => []
        | o :: _ => o.offenses.map fun p => { p with rule := p.cop, lineContent := "" })) ∧
    ∀ (first : Outcome) (others : List Outcome),
      (∀ o ∈ first.offenses, ∃ text offenses, read text = .ok offenses ∧ o ∈ offenses) →
        read (Summary.mk (first :: others)).renderJson.toList = .ok first.offenses := by
  constructor
  · intro s
    rw [read_renderJson_eq]
    cases s.outcomes <;> rfl
  · intro first others hRead
    have hSame : ∀ o ∈ first.offenses, o.asReported = o := by
      intro o ho
      obtain ⟨text, offenses, hText, hMem⟩ := hRead o ho
      exact asReported_of_mem_read hText hMem
    rw [read_renderJson_eq, List.map_cons, List.headD_cons, List.map_congr_left hSame, List.map_id']

/-- The report gives the fields of an offense in their order, without a length. -/
theorem read_renderJson_of_report :
    let text := "\x7b\"files\": [\x7b\"offenses\": " ++
      "[[\"Error \", \"Void\", \"\\u0007\", [3, 5]]]\x7d]\x7d"
    let offense : Offense := ⟨"Void", "\x07", .error, "Void", "", ⟨3, 5, 0⟩⟩
    let summary : Summary := ⟨[⟨"\"a\".rb", "", [offense], some "\\\n"⟩]⟩
    read text.toList = .ok [offense] ∧ read summary.renderJson.toList = .ok [offense] := by
  intro text offense summary
  have hFiles : (Json.ofText? text.toList).bind files? = some [[offense]] := by decide +kernel
  have hText : read text.toList = .ok [offense] := by
    rw [read, hFiles]
    rfl
  refine ⟨hText, read_renderJson.2 _ _ ?_⟩
  intro o ho
  exact ⟨text.toList, [offense], hText, ho⟩

end Report

end TouchedLines
