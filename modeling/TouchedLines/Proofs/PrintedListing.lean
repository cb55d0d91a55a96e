import TouchedLines.Diff.Listing
import TouchedLines.Proofs.PrintedPatch
import TouchedLines.Sample

/-! # Printed listings are read back

A change is listed as fields with a tab between two: its code, the old path of a rename, and its
path. Neither trimming the line nor splitting it at tabs touches a path that holds no tab and does
not end with a blank. So each listed change is read back as its entry, whatever its similarity.
-/

namespace TouchedLines

open Text

namespace ListedChange

/-- The entry that a change is listed for. -/
def entry : ListedChange → StatusEntry
  | added path => ⟨.added, path, none⟩
  | modified path => ⟨.modified, path, none⟩
  | deleted path => ⟨.other "D", path, none⟩
  | renamed source path _ => ⟨.renamed, path, some source⟩

/-- In a listing the paths stay as they are: none holds a tab or a newline, and the one at the end
of its line neither is empty nor ends with a blank. -/
structure IsPlain (c : ListedChange) : Prop where
  path : '\t' ∉ c.entry.path.toList ∧ '\n' ∉ c.entry.path.toList
  ne_nil : c.entry.path.toList ≠ []
  ending : ∀ last ∈ c.entry.path.toList.getLast?, isBlank last = false
  source : ∀ source ∈ c.entry.source, '\t' ∉ source.toList ∧ '\n' ∉ source.toList

instance : DecidablePred IsPlain := fun c =>
  decidable_of_iff (('\t' ∉ c.entry.path.toList ∧ '\n' ∉ c.entry.path.toList) ∧
    c.entry.path.toList ≠ [] ∧ c.entry.path.toList.getLast?.any isBlank = false ∧
    ∀ source ∈ c.entry.source, '\t' ∉ source.toList ∧ '\n' ∉ source.toList)
    ⟨fun h => ⟨h.1, h.2.1, (Option.any_eq_false _ _).mp h.2.2.1, h.2.2.2⟩,
      fun h => ⟨h.path, h.ne_nil, (Option.any_eq_false _ _).mpr h.ending, h.source⟩⟩

/-- The first field of a line, which tells what happened to the file. -/
def code : ListedChange → List Char
  | added _ => ['A']
  | modified _ => ['M']
  | deleted _ => ['D']
  | renamed _ _ similarity => 'R' :: threeDigits similarity.toNat

/-- The fields of a line in front of the path. -/
def leadingFields (c : ListedChange) : List (List Char) :=
  c.code :: c.entry.source.toList.map String.toList

theorem line_eq (c : ListedChange) :
    c.line = ['\t'].intercalate (c.leadingFields ++ [c.entry.path.toList]) := by
  cases c <;> simp [line, leadingFields, code, entry, List.intercalate_cons_cons]

theorem ofFields?_fields {c : ListedChange} (hNil : c.entry.path.toList ≠ []) :
    StatusEntry.ofFields? (c.leadingFields ++ [c.entry.path.toList]) = some c.entry := by
  have hSome : ¬c.entry.path.toList.isEmpty = true := by rwa [List.isEmpty_iff]
  cases c with
  | added path => exact (if_neg hSome).trans (by rw [entry, String.ofList_toList]; rfl)
  | modified path => exact (if_neg hSome).trans (by rw [entry, String.ofList_toList]; rfl)
  | deleted path => exact (if_neg hSome).trans (by rw [entry, String.ofList_toList]; rfl)
  | renamed source path similarity =>
    simp [leadingFields, code, entry, StatusEntry.ofFields?]

theorem notMem_threeDigits {c : Char} (h : isAsciiDigit c = false) (n : Nat) :
    c ∉ threeDigits n := by
  have hZero : c ≠ '0' := by
    rintro rfl
    cases h
  simp [threeDigits, List.mem_replicate, hZero, Decimal.notMem_digits h]

theorem notMem_code {x : Char} (hDigit : isAsciiDigit x = false) (hLetter : x ∉ "AMDR".toList)
    (c : ListedChange) : x ∉ c.code := by
  obtain ⟨hA, hM, hD, hR⟩ : x ≠ 'A' ∧ x ≠ 'M' ∧ x ≠ 'D' ∧ x ≠ 'R' := by simpa using hLetter
  cases c <;> simp [code, hA, hM, hD, hR, notMem_threeDigits hDigit]

theorem getLast?_line {c : ListedChange} (hNil : c.entry.path.toList ≠ []) :
    c.line.getLast? = c.entry.path.toList.getLast? := by
  have hFront : ∃ front, c.line = front ++ c.entry.path.toList := by
    cases c with
    | added path => exact ⟨['A', '\t'], rfl⟩
    | modified path => exact ⟨['M', '\t'], rfl⟩
    | deleted path => exact ⟨['D', '\t'], rfl⟩
    | renamed source path similarity =>
      exact ⟨'R' :: threeDigits similarity.toNat ++ '\t' :: source.toList ++ ['\t'],
        by simp [line, entry]⟩
  obtain ⟨front, hLine⟩ := hFront
  rw [hLine, List.getLast?_append_of_ne_nil _ hNil]

theorem isBlank_of_head?_line {c : ListedChange} {first : Char} (h : c.line.head? = some first) :
    isBlank first = false := by
  cases c <;> obtain rfl := Option.some.inj h <;> decide

namespace IsPlain

variable {c : ListedChange} (h : c.IsPlain)

include h

theorem trim_line : trim c.line = c.line := by
  rw [trim_eq_self_iff, getLast?_line h.ne_nil]
  exact ⟨fun _ => isBlank_of_head?_line, h.ending⟩

theorem newline_notMem_line : '\n' ∉ c.line := by
  have hCode : '\n' ∉ c.code := notMem_code (by decide) (by decide) c
  have hSource : ∀ source ∈ c.entry.source, '\n' ∉ source.toList := fun s hs => (h.source s hs).2
  have hPath := h.path.2
  cases c <;> simp_all [line, code, entry]

theorem splitOn_line : splitOn '\t' c.line = c.leadingFields ++ [c.entry.path.toList] := by
  rw [line_eq, splitOn_eq_splitOn]
  refine List.splitOn_intercalate '\t' ?_ (by simp)
  intro field hField
  simp only [leadingFields, List.cons_append, List.mem_cons, List.mem_append, List.mem_map,
    Option.mem_toList, List.not_mem_nil, or_false] at hField
  obtain rfl | ⟨source, hSource, rfl⟩ | rfl := hField
  · exact notMem_code (by decide) (by decide) c
  · exact (h.source source hSource).1
  · exact h.path.1

theorem ofLine?_line : StatusEntry.ofLine? c.line = some c.entry := by
  have hSome : ¬(trim c.line).isEmpty = true := by
    rw [h.trim_line]
    cases c <;> simp [line]
  rw [StatusEntry.ofLine?, if_neg hSome, h.trim_line, h.splitOn_line]
  exact ofFields?_fields h.ne_nil

theorem readBack_line : readBack c.line = [c.line] := by
  rw [readBack_eq_singleton h.newline_notMem_line, dropReturn_of_trim_eq h.trim_line]

end IsPlain

theorem splitReturnLines_render {changes : List ListedChange} (h : ∀ c ∈ changes, c.IsPlain) :
    splitReturnLines (render changes).toList = changes.map line := by
  rw [render, String.toList_ofList, splitReturnLines_terminateLines, List.flatMap_map]
  induction changes with
  | nil => rfl
  | cons c rest ih =>
    rw [List.flatMap_cons, (h c List.mem_cons_self).readBack_line, List.map_cons,
      ih fun d hd => h d (List.mem_cons_of_mem c hd)]
    rfl

end ListedChange

namespace StatusEntry

/-- Reading undoes printing: a printed listing has one entry for each change, in the same order,
with the code, the path and for a rename the old path that were printed. -/
theorem ofListing_render (changes : List ListedChange) (h : ∀ c ∈ changes, c.IsPlain) :
    ofListing (ListedChange.render changes) = changes.map ListedChange.entry := by
  rw [ofListing, ListedChange.splitReturnLines_render h, List.filterMap_map]
  induction changes with
  | nil => rfl
  | cons c rest ih =>
    rw [List.filterMap_cons, Function.comp_apply, (h c List.mem_cons_self).ofLine?_line,
      List.map_cons, ih fun d hd => h d (List.mem_cons_of_mem c hd)]

/-- Paths begin with a blank, hold a carriage return or look like codes; an old path is empty. -/
theorem ofListing_render_odd_paths :
    let changes : List ListedChange := [.added " a\rb.rb", .modified "M", .deleted "R100",
      .renamed "" "A" 7, .renamed "old \r" " new.js" 255]
    (∀ c ∈ changes, c.IsPlain) ∧
      ofListing (ListedChange.render changes) = [⟨.added, " a\rb.rb", none⟩, ⟨.modified, "M", none⟩,
        ⟨.other "D", "R100", none⟩, ⟨.renamed, "A", some ""⟩,
        ⟨.renamed, " new.js", some "old \r"⟩] := by
  intro changes
  have hPlain : ∀ c ∈ changes, c.IsPlain := by decide
  exact ⟨hPlain, ofListing_render changes hPlain⟩

example : ofListing Sample.mixedListing =
    [⟨.added, "app/models/user.rb", none⟩, ⟨.modified, "app/assets/site.js", none⟩,
      ⟨.renamed, "app/views/new.html.erb", some "app/views/old.html.erb"⟩,
      ⟨.other "D", "app/assets/gone.js", none⟩] := by
  rw [ofListing, Sample.mixedListing, String.toList_join]
  decide +kernel

end StatusEntry

end TouchedLines
