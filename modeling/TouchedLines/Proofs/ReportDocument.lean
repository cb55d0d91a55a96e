import Mathlib.Algebra.GroupWithZero.Nat
import TouchedLines.Proofs.ReportReading

/-! # The JSON report read back as a document

A reader of a report finds an entry for each file and three numbers. The numbers can be told from
the entries, since both are written from the same outcomes.
-/

namespace TouchedLines

open Json

/-- A file as the document lists it. -/
structure ReportEntry where
  path : String
  offenses : List Json
  error : Option Json

namespace ReportEntry

def failed (e : ReportEntry) : Bool := !e.offenses.isEmpty || e.error.isSome

def ofJson? (v : Json) : Option ReportEntry :=
  match v.fields? ["path", "offenses", "error"] with
  | some [some path, some (.array offenses), error] =>
    path.text?.map fun path => ⟨path, offenses, error⟩
  | _ => none

end ReportEntry

/-- What a reader finds in a JSON report: the files, and what the summary counts. -/
structure ReportDocument where
  entries : List ReportEntry
  checked : Nat
  failed : Nat
  offenseCount : Nat

namespace ReportDocument

def ofJson? (v : Json) : Option ReportDocument :=
  match v.fields? ["files", "summary"] with
  | some [some files, some summary] =>
    match summary.fields? ["files_checked", "files_failed", "offenses"] with
    | some [some (.atom (.natural checked)), some (.atom (.natural failed)),
        some (.atom (.natural offenses))] =>
      (files.list? ReportEntry.ofJson?).map fun entries => ⟨entries, checked, failed, offenses⟩
    | _ => none
  | _ => none

def ofText? (text : List Char) : Option ReportDocument := (Json.ofText? text).bind ofJson?

/-- The numbers of the summary are those of the entries. -/
structure Tallies (d : ReportDocument) : Prop where
  checked : d.checked = d.entries.length
  failed : d.failed = (d.entries.filter ReportEntry.failed).length
  offenses : d.offenseCount = (d.entries.map fun e => e.offenses.length).sum

end ReportDocument

def Outcome.entry (o : Outcome) : ReportEntry :=
  ⟨o.path, o.offenses.map Offense.toJson, o.analyzerError.map Json.text⟩

theorem ReportEntry.failed_entry (o : Outcome) : o.entry.failed = o.failed := by
  simp [ReportEntry.failed, Outcome.entry, Outcome.failed]

theorem ReportEntry.ofJson?_toJson (o : Outcome) : ofJson? o.toJson = some o.entry := by
  have hFields : o.toJson.fields? ["path", "offenses", "error"] =
      some [some (text o.path), some (array (o.offenses.map Offense.toJson)),
        o.analyzerError.map Json.text] := by
    rw [Outcome.toJson]
    cases o.analyzerError <;> exact fields?_record (by simp) _
  rw [ofJson?, hFields]
  rfl

namespace Summary

def document (s : Summary) : ReportDocument :=
  ⟨s.outcomes.map Outcome.entry, s.checked, s.failed, s.offenseCount⟩

theorem tallies_document (s : Summary) : s.document.Tallies where
  checked := (List.length_map Outcome.entry).symm
  failed := by
    have hFailed : ReportEntry.failed ∘ Outcome.entry = Outcome.failed :=
      funext ReportEntry.failed_entry
    simp only [document, failed, List.filter_map, hFailed, List.length_map]
  offenses := by
    have hLength : (fun e : ReportEntry => e.offenses.length) ∘ Outcome.entry =
        fun o => o.offenses.length :=
      funext fun o => List.length_map Offense.toJson
    simp only [document, offenseCount, List.map_map, hLength, List.length_flatMap]

theorem ofJson?_toJson (s : Summary) : ReportDocument.ofJson? s.toJson = some s.document := by
  have hFields : s.toJson.fields? ["files", "summary"] =
      some [some (array (s.outcomes.map Outcome.toJson)),
        some (record [("files_checked", natural s.checked), ("files_failed", natural s.failed),
          ("offenses", natural s.offenseCount)])] :=
    fields?_record (by simp) _
  have hCounts : (record [("files_checked", natural s.checked), ("files_failed", natural s.failed),
      ("offenses", natural s.offenseCount)]).fields? ["files_checked", "files_failed", "offenses"] =
      some [some (natural s.checked), some (natural s.failed), some (natural s.offenseCount)] :=
    fields?_record (by simp) _
  have hFiles := list?_array_map ReportEntry.ofJson?_toJson s.outcomes
  rw [ReportDocument.ofJson?, hFields]
  simp only [hCounts]
  simp only [natural, hFiles]
  rfl

/-- A JSON report is read back with the newline at its end. -/
theorem ofText?_renderJson (s : Summary) :
    ReportDocument.ofText? (s.renderJson ++ "\n").toList = some s.document := by
  have hBlank : Token.ofText? "\n".toList = some [] := by
    rw [show "\n".toList = ['\n'] from rfl, Token.ofText?_space_cons rfl, Token.ofText?_nil]
  have hEnd : EndsNumber "\n".toList := endsNumber_cons (by decide)
  rw [ReportDocument.ofText?, String.toList_append, renderJson, String.toList_ofList,
    ofText?_pretty_append s.readsBack_toJson hEnd hBlank, Option.bind_some, ofJson?_toJson]

end Summary

end TouchedLines
