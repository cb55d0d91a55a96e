import Mathlib.Data.List.Forall2
import TouchedLines.Json.Record

/-! # Fields among the members of an object

The order of the members says nothing about the fields, and neither do members that bear the name of
no field. What makes an object no record is a field that is missing or given twice, or a key that is
no text.
-/

namespace TouchedLines.Json

/-- The object has the given members, in any order and among others. The keys of the others satisfy
the condition and are none of the fields. -/
def Gives (isKey : Option String → Prop) (fields : List String) (given : List (String × Json))
    (v : Json) : Prop :=
  ∃ members others, v = object members ∧
    members.Perm (given.map (fun (key, value) => (some key, value)) ++ others) ∧
    ∀ m ∈ others, isKey m.1 ∧ ∀ name ∈ fields, m.1 ≠ some name

inductive FaultyRecord (required optional : List String) (members : List Member) : Prop where
  | missing {name : String} (hName : name ∈ required) (h : some name ∉ members.map Prod.fst)
  | repeated {name : String} (hName : name ∈ required ++ optional)
      (h : 1 < (members.map Prod.fst).count (some name))
  | unnamed (h : none ∈ members.map Prod.fst)

/-! ## One field -/

theorem field?_of_perm {members members' : List Member} (h : members.Perm members')
    (name : String) : field? members name = field? members' name := by
  have hFilter := h.filter fun m => m.1 == some name
  unfold field?
  split
  · rename_i hNone
    rw [hNone] at hFilter
    rw [← hFilter.nil_eq]
  · rename_i hOne
    rw [hOne, List.singleton_perm] at hFilter
    rw [← hFilter]
  · rename_i hNil hOne
    split
    · rename_i hNone
      rw [hNone] at hFilter
      exact (hNil hFilter.eq_nil).elim
    · rename_i hSingle
      rw [hSingle, List.perm_singleton] at hFilter
      exact (hOne _ _ hFilter).elim
    · rfl

theorem field?_append_of_forall_ne {others : List Member} {name : String}
    (h : ∀ m ∈ others, m.1 ≠ some name) (members : List Member) :
    field? (members ++ others) name = field? members name := by
  have hOthers : others.filter (fun m => m.1 == some name) = [] :=
    List.filter_eq_nil_iff.mpr fun m hm => by simpa using h m hm
  rw [field?, field?, List.filter_append, hOthers, List.append_nil]

theorem field?_eq_none_of_notMem {members : List Member} {name : String}
    (h : some name ∉ members.map Prod.fst) : field? members name = some none := by
  have hNone : members.filter (fun m => m.1 == some name) = [] := by
    rw [List.filter_eq_nil_iff]
    intro m hm hKey
    exact h (List.mem_map.mpr ⟨m, hm, by simpa using hKey⟩)
  rw [field?, hNone]

theorem field?_eq_none_of_repeated {members : List Member} {name : String}
    (h : 1 < (members.map Prod.fst).count (some name)) : field? members name = none := by
  have hLength : 1 < (members.filter fun m => m.1 == some name).length := by
    rw [List.count, List.countP_map] at h
    rwa [← List.countP_eq_length_filter]
  unfold field?
  split
  · rename_i hNone
    rw [hNone] at hLength
    cases hLength
  · rename_i hOne
    rw [hOne] at hLength
    exact absurd hLength (by simp)
  · rfl

theorem value_of_field?_of_mem {members : List Member} {name : String} {v : Json}
    {given : Option Json} (hGiven : field? members name = some given)
    (hMem : (some name, v) ∈ members) : given = some v := by
  have hFilter : (some name, v) ∈ members.filter fun m => m.1 == some name :=
    List.mem_filter.mpr ⟨hMem, by simp⟩
  unfold field? at hGiven
  split at hGiven
  · rename_i hNone
    rw [hNone] at hFilter
    cases hFilter
  · rename_i hOne
    cases hGiven
    rw [hOne, List.mem_singleton] at hFilter
    rw [← (Prod.mk.inj hFilter).2]
  · cases hGiven

/-! ## All fields -/

theorem fields?_of_gives {fields : List String} {given : List (String × Json)} {v : Json}
    (h : Gives (·.isSome = true) fields given v) (hNodup : (given.map Prod.fst).Nodup) :
    v.fields? fields = some (fields.map fun name => given.lookup name) := by
  obtain ⟨members, others, rfl, hPerm, hOthers⟩ := h
  have hKeys : members.all (·.1.isSome) = true := by
    rw [List.all_eq_true]
    intro m hm
    obtain hGiven | hOther := List.mem_append.mp (hPerm.mem_iff.mp hm)
    · obtain ⟨_, -, rfl⟩ := List.mem_map.mp hGiven
      rfl
    · exact (hOthers m hOther).1
  have hField : ∀ name ∈ fields, field? members name = some (given.lookup name) := by
    intro name hName
    rw [field?_of_perm hPerm, field?_append_of_forall_ne fun m hm => (hOthers m hm).2 name hName,
      field?_of_nodup hNodup]
  rw [fields?, if_pos hKeys, mapM_eq_some_iff, List.map_map]
  exact List.map_congr_left hField

theorem of_fields?_object {members : List Member} {names : List String}
    {values : List (Option Json)} (h : (object members).fields? names = some values) :
    none ∉ members.map Prod.fst ∧ names.map (field? members) = values.map some := by
  obtain ⟨hKeys, hValues⟩ := Option.ite_none_right_eq_some.mp h
  constructor
  · intro hNone
    obtain ⟨m, hm, hKey⟩ := List.mem_map.mp hNone
    have hSome := List.all_eq_true.mp hKeys m hm
    rw [hKey] at hSome
    cases hSome
  · exact mapM_eq_some_iff.mp hValues

theorem not_faultyRecord {required optional : List String} {members : List Member}
    (hNamed : none ∉ members.map Prod.fst)
    (hRequired : ∀ name ∈ required, ∃ v, field? members name = some (some v))
    (hOptional : ∀ name ∈ optional, ∃ given, field? members name = some given) :
    ¬FaultyRecord required optional members := by
  intro hFaulty
  cases hFaulty with
  | @missing name hName h =>
    obtain ⟨v, hValue⟩ := hRequired name hName
    rw [field?_eq_none_of_notMem h] at hValue
    cases hValue
  | @repeated name hName h =>
    have hNone := field?_eq_none_of_repeated h
    obtain hName | hName := List.mem_append.mp hName
    · obtain ⟨v, hValue⟩ := hRequired name hName
      rw [hNone] at hValue
      cases hValue
    · obtain ⟨given, hValue⟩ := hOptional name hName
      rw [hNone] at hValue
      cases hValue
  | unnamed h => exact hNamed h

/-! ## Values -/

theorem eq_natural_of_word? {v : Json} {n : UInt32} (h : word? v = some n) :
    v = natural n.toNat := by
  unfold word? at h
  split at h
  · rename_i k
    obtain ⟨hBound, hWord⟩ := Option.ite_none_right_eq_some.mp h
    cases hWord
    rw [UInt32.toNat_ofNat_of_lt' hBound]
    rfl
  · cases h

theorem list?_of_forall₂ {α β : Type} {read : Json → Option β} {f : α → β} {xs : List α}
    {items : List Json} (h : List.Forall₂ (fun x item => read item = some (f x)) xs items) :
    list? read (array items) = some (xs.map f) := by
  rw [list?, mapM_eq_some_iff, List.map_map]
  induction h with
  | nil => rfl
  | cons hItem _ ih => rw [List.map_cons, List.map_cons, hItem, ih, Function.comp_apply]

theorem exists_of_list?_array {α : Type} {read : Json → Option α} {items : List Json}
    {xs : List α} (h : list? read (array items) = some xs) {item : Json} (hItem : item ∈ items) :
    ∃ x, read item = some x := by
  have hRead : read item ∈ xs.map some := by
    rw [← mapM_eq_some_iff.mp h]
    exact List.mem_map_of_mem hItem
  obtain ⟨x, -, hx⟩ := List.mem_map.mp hRead
  exact ⟨x, hx.symm⟩

end TouchedLines.Json
