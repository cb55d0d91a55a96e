import TouchedLines.Analyzer.Report
import TouchedLines.Proofs.JsonGrammar
import TouchedLines.Proofs.JsonText
import TouchedLines.Proofs.RecordFields

/-! # What a report may hold besides its fields

A report says the same in every order of its members and with any other members besides its fields,
as long as their keys are texts. A fault in one offense, in whichever file it stands, makes the
whole text no report, although only the first file counts.
-/

namespace TouchedLines.Report

open Json

/-- An offense as an analyzer gives it. -/
structure GivenOffense where
  severity : String
  cop : String
  message : String
  line : UInt32
  column : UInt32
  length : Option UInt32

namespace GivenOffense

def offense (o : GivenOffense) : Offense where
  rule := o.cop
  message := o.message
  severity := .ofReported o.severity
  cop := o.cop
  lineContent := ""
  location := ⟨o.line, o.column, o.length.getD 0⟩

def place (o : GivenOffense) : List (String × Json) :=
  [("line", natural o.line.toNat), ("column", natural o.column.toNat)] ++
    o.length.toList.map fun n => ("length", natural n.toNat)

def fields (o : GivenOffense) (place : Json) : List (String × Json) :=
  [("severity", text o.severity), ("cop_name", text o.cop), ("message", text o.message),
    ("location", place)]

end GivenOffense

variable (isKey : Option String → Prop)

/-- The object gives the offense. Keys of members that are no fields satisfy the condition. -/
def IsOffense (o : GivenOffense) (v : Json) : Prop :=
  ∃ place, Gives isKey ["line", "column", "length"] o.place place ∧
    Gives isKey ["severity", "cop_name", "message", "location"] (o.fields place) v

/-- The object lists things under a name. The name may be missing if there are none. -/
def IsListing {α : Type} (name : String) (IsItem : α → Json → Prop) (xs : List α) (v : Json) :
    Prop :=
  (∃ items, List.Forall₂ IsItem xs items ∧ Gives isKey [name] [(name, array items)] v) ∨
    xs = [] ∧ Gives isKey [name] [] v

/-- The document lists the offenses of each file. -/
def IsReport (files : List (List GivenOffense)) (v : Json) : Prop :=
  IsListing isKey "files" (IsListing isKey "offenses" (IsOffense isKey)) files v

def FaultyPlace (members : List Member) : Prop :=
  FaultyRecord ["line", "column"] ["length"] members ∨
    ∃ name ∈ ["line", "column", "length"], ∃ v, (some name, v) ∈ members ∧
      ∀ n : UInt32, v ≠ natural n.toNat

def FaultyOffense (members : List Member) : Prop :=
  FaultyRecord ["severity", "cop_name", "message", "location"] [] members ∨
    ∃ place, (some "location", object place) ∈ members ∧ FaultyPlace place

/-- The object is no record, or one of the objects that it lists under the name is faulty. -/
def FaultyListing (name : String) (Faulty : List Member → Prop) (members : List Member) : Prop :=
  FaultyRecord [] [name] members ∨
    ∃ items item, (some name, array items) ∈ members ∧ object item ∈ items ∧ Faulty item

def FaultyReport (members : List Member) : Prop :=
  FaultyListing "files" (FaultyListing "offenses" FaultyOffense) members

/-! ## Reports without a fault -/

theorem location?_of_gives {o : GivenOffense} {v : Json}
    (h : Gives (·.isSome = true) ["line", "column", "length"] o.place v) :
    location? v = some o.offense.location := by
  have hFields : v.fields? ["line", "column", "length"] =
      some [some (natural o.line.toNat), some (natural o.column.toNat),
        o.length.map fun n => natural n.toNat] := by
    rw [GivenOffense.place] at h
    cases hLength : o.length <;> rw [hLength] at h <;> exact fields?_of_gives h (by simp)
  have hLength : ((o.length.map fun n => natural n.toNat).getD (natural 0)).word? =
      some (o.length.getD 0) := by
    cases o.length with
    | none => exact word?_natural 0
    | some n => exact word?_natural n
  rw [location?, hFields]
  simp [word?_natural, hLength, GivenOffense.offense]

theorem offense?_of_isOffense {o : GivenOffense} {v : Json}
    (h : IsOffense (·.isSome = true) o v) : offense? v = some o.offense := by
  obtain ⟨place, hPlace, hGives⟩ := h
  have hFields : v.fields? ["severity", "cop_name", "message", "location"] =
      some [some (text o.severity), some (text o.cop), some (text o.message), some place] :=
    fields?_of_gives hGives (by simp [GivenOffense.fields])
  rw [offense?, hFields]
  simp [text?, text, location?_of_gives hPlace, GivenOffense.offense]

/-- What a reader of items makes of a listing. -/
theorem list?_of_isListing {α β : Type} {name : String} {IsItem : α → Json → Prop} {xs : List α}
    {v : Json} {read : Json → Option β} {f : α → β}
    (h : IsListing (·.isSome = true) name IsItem xs v)
    (hItem : ∀ x item, IsItem x item → read item = some (f x)) :
    ∃ given, v.fields? [name] = some [given] ∧
      (given.getD (array [])).list? read = some (xs.map f) := by
  obtain ⟨items, hItems, hGives⟩ | ⟨rfl, hGives⟩ := h
  · refine ⟨some (array items), ?_, ?_⟩
    · rw [fields?_of_gives hGives (by simp)]
      simp
    · exact list?_of_forall₂ (hItems.imp hItem)
  · exact ⟨none, fields?_of_gives hGives List.nodup_nil, rfl⟩

theorem file?_of_isListing {offenses : List GivenOffense} {v : Json}
    (h : IsListing (·.isSome = true) "offenses" (IsOffense (·.isSome = true)) offenses v) :
    file? v = some (offenses.map GivenOffense.offense) := by
  obtain ⟨given, hFields, hList⟩ := list?_of_isListing h fun _ _ => offense?_of_isOffense
  rw [file?, hFields]
  exact hList

theorem files?_of_isReport {files : List (List GivenOffense)} {v : Json}
    (h : IsReport (·.isSome = true) files v) :
    files? v = some (files.map fun offenses => offenses.map GivenOffense.offense) := by
  obtain ⟨given, hFields, hList⟩ := list?_of_isListing h fun _ _ => file?_of_isListing
  rw [files?, hFields]
  exact hList

/-! ## Faults -/

theorem not_faultyPlace {members : List Member} {l : Location}
    (h : location? (object members) = some l) : ¬FaultyPlace members := by
  unfold location? at h
  split at h
  · rename_i line column length hFields
    obtain ⟨hNamed, hValues⟩ := of_fields?_object hFields
    simp only [List.map_cons, List.map_nil, List.cons.injEq, and_true] at hValues
    obtain ⟨hLine, hColumn, hLength⟩ := hValues
    simp only [Option.bind_eq_bind, Option.bind_eq_some_iff] at h
    obtain ⟨_, hLineWord, _, hColumnWord, _, hLengthWord, -⟩ := h
    rintro (hRecord | ⟨name, hName, v, hMem, hOutside⟩)
    · exact not_faultyRecord hNamed (by simp [hLine, hColumn]) (by simp [hLength]) hRecord
    · simp only [List.mem_cons, List.not_mem_nil, or_false] at hName
      rcases hName with rfl | rfl | rfl
      · cases value_of_field?_of_mem hLine hMem
        exact hOutside _ (eq_natural_of_word? hLineWord)
      · cases value_of_field?_of_mem hColumn hMem
        exact hOutside _ (eq_natural_of_word? hColumnWord)
      · cases value_of_field?_of_mem hLength hMem
        exact hOutside _ (eq_natural_of_word? hLengthWord)
  · cases h

theorem not_faultyOffense {members : List Member} {o : Offense}
    (h : offense? (object members) = some o) : ¬FaultyOffense members := by
  unfold offense? at h
  split at h
  · rename_i severity cop message location hFields
    obtain ⟨hNamed, hValues⟩ := of_fields?_object hFields
    simp only [List.map_cons, List.map_nil, List.cons.injEq, and_true] at hValues
    obtain ⟨hSeverity, hCop, hMessage, hLocation⟩ := hValues
    simp only [Option.bind_eq_bind, Option.bind_eq_some_iff] at h
    obtain ⟨_, -, _, -, _, -, _, hPlace, -⟩ := h
    rintro (hRecord | ⟨place, hMem, hFaulty⟩)
    · exact not_faultyRecord hNamed (by simp [hSeverity, hCop, hMessage, hLocation]) (by simp)
        hRecord
    · cases value_of_field?_of_mem hLocation hMem
      exact not_faultyPlace hPlace hFaulty
  · cases h

theorem not_faultyListing {α : Type} {name : String} {Faulty : List Member → Prop}
    {read : Json → Option α} {members : List Member} {given : Option Json} {xs : List α}
    (hFields : (object members).fields? [name] = some [given])
    (hList : (given.getD (array [])).list? read = some xs)
    (hItem : ∀ item x, read (object item) = some x → ¬Faulty item) :
    ¬FaultyListing name Faulty members := by
  obtain ⟨hNamed, hValues⟩ := of_fields?_object hFields
  simp only [List.map_cons, List.map_nil, List.cons.injEq, and_true] at hValues
  rintro (hRecord | ⟨items, item, hMem, hIn, hFaulty⟩)
  · exact not_faultyRecord hNamed (by simp) (by simp [hValues]) hRecord
  · cases value_of_field?_of_mem hValues hMem
    obtain ⟨x, hx⟩ := exists_of_list?_array hList hIn
    exact hItem item x hx hFaulty

theorem not_faultyFile {members : List Member} {offenses : List Offense}
    (h : file? (object members) = some offenses) :
    ¬FaultyListing "offenses" FaultyOffense members := by
  unfold file? at h
  split at h
  · rename_i given hFields
    exact not_faultyListing hFields h fun _ _ => not_faultyOffense
  · cases h

theorem not_faultyReport {members : List Member} {files : List (List Offense)}
    (h : files? (object members) = some files) : ¬FaultyReport members := by
  unfold files? at h
  split at h
  · rename_i given hFields
    exact not_faultyListing hFields h fun _ _ => not_faultyFile
  · cases h

/-! ## Reading -/

/-- A report is read as the offenses of its first file, in every order of its members and with any
members besides its fields whose keys are texts. A document with a fault in any of its parts is
refused. -/
theorem read_of_isReport :
    (∀ files v text, IsReport (·.isSome = true) files v → v.IsSpelled text →
      read text = .ok (match files with
        | [] => []
        | offenses :: _ => offenses.map GivenOffense.offense)) ∧
    ∀ members text, FaultyReport members → (object members).IsSpelled text →
      ∃ fault, read text = .error fault := by
  constructor
  · intro files v text hReport hSpelled
    rw [read, ofText?_eq_some_iff.mpr hSpelled, Option.bind_some, files?_of_isReport hReport]
    cases files <;> rfl
  · intro members text hFaulty hSpelled
    rw [read, ofText?_eq_some_iff.mpr hSpelled, Option.bind_some]
    cases hFiles : files? (object members) with
    | none => exact ⟨_, rfl⟩
    | some files => exact (not_faultyReport hFiles hFaulty).elim

/-- The members of the first document stand in another order and among others. In the second one the
last offense of the second file has no message. -/
theorem read_of_isReport_reordered :
    let o : GivenOffense := ⟨" Error", "Lint/Void", "A\n", 1, 4294967295, none⟩
    let place := object [(some "length ", natural 7), (some "column", natural 4294967295),
      (some "line", natural 1)]
    let given := object [(some "", object [(none, natural 0)]), (some "location", place),
      (some "message", text "A\n"), (some "cop_name", text "Lint/Void"),
      (some "severity", text " Error")]
    let short := [(some "severity", text ""), (some "cop_name", text ""), (some "location", place)]
    let file := object [(some "path", text ""), (some "offenses", array [given])]
    let last := [(some "offenses", array [given, object short])]
    let report := object [(some "files", array [file, object []])]
    let faulty := [(some "files", array [file, object last])]
    IsReport (·.isSome = true) [[o], []] report ∧ read report.pretty = .ok [o.offense] ∧
      FaultyReport faulty ∧ ∃ fault, read (object faulty).pretty = .error fault := by
  intro o place given short file last report faulty
  have hReverse : ∀ {given members : List Member},
      given.reverse = members → members.Perm given := by
    rintro given _ rfl
    exact given.reverse_perm
  have hPlace : Gives (·.isSome = true) ["line", "column", "length"] o.place place :=
    ⟨_, [(some "length ", natural 7)], rfl, hReverse rfl, by simp⟩
  have hGiven : IsOffense (·.isSome = true) o given :=
    ⟨place, hPlace, _, [(some "", object [(none, natural 0)])], rfl, hReverse rfl, by simp⟩
  have hFile : IsListing (·.isSome = true) "offenses" (IsOffense (·.isSome = true)) [o] file :=
    .inl ⟨_, .cons hGiven .nil, _, [(some "path", text "")], rfl, hReverse rfl, by simp⟩
  have hEmpty : IsListing (·.isSome = true) "offenses" (IsOffense (·.isSome = true)) []
      (object []) := .inr ⟨rfl, _, [], rfl, .nil, by simp⟩
  have hReport : IsReport (·.isSome = true) [[o], []] report :=
    .inl ⟨_, .cons hFile (.cons hEmpty .nil), _, [], rfl, .refl _, by simp⟩
  have hShort : FaultyOffense short := by
    have hName : "message" ∈ ["severity", "cop_name", "message", "location"] := by simp
    exact .inl (.missing hName (by simp [short]))
  have hLast : FaultyListing "offenses" FaultyOffense last :=
    .inr ⟨_, short, List.mem_singleton_self _, by simp, hShort⟩
  have hFaulty : FaultyReport faulty :=
    .inr ⟨_, last, List.mem_singleton_self _, by simp, hLast⟩
  have hPrinted : ∀ {v : Json}, v.ReadsBack → v.IsSpelled v.pretty :=
    fun h => ofText?_eq_some_iff.mp (ofText?_pretty h)
  refine ⟨hReport, ?_, hFaulty, ?_⟩
  · refine read_of_isReport.1 _ _ _ hReport (hPrinted ?_)
    simp [readsBack_array_iff, readsBack_object_iff, readsBack_text, readsBack_natural, report,
      file, given, place]
  · refine read_of_isReport.2 _ _ hFaulty (hPrinted ?_)
    simp [readsBack_array_iff, readsBack_object_iff, readsBack_text, readsBack_natural, faulty,
      file, last, given, short, place]

/-- A key that is no text makes the document no report, whatever else it holds. -/
theorem not_read_of_isReport :
    let v := object [(none, natural 0)]
    let written := "\x7b\"\\ud800\": 0\x7d".toList
    IsReport (fun _ => True) [] v ∧ v.IsSpelled written ∧ read written ≠ .ok [] := by
  intro v written
  refine ⟨.inr ⟨rfl, _, [(none, natural 0)], rfl, .refl _, by simp⟩, ?_, ?_⟩
  · exact Token.areSpelled_of_ofText? (by decide +kernel)
  · decide +kernel

end TouchedLines.Report
