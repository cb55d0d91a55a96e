import TouchedLines.Json.Basic

/-! # Records in JSON

A record is an object with the fields of the record among its members, or an array of its fields in
their order. Members that are no field of the record say nothing, whatever their values.
-/

namespace TouchedLines.Json

/-- The value of a field, if it is given; no answer if it is given twice. -/
def field? (members : List Member) (name : String) : Option (Option Json) :=
  match members.filter fun m => m.1 == some name with
  | [] => some none
  | [(_, v)] => some (some v)
  | _ => none

theorem field?_of_nodup {members : List (String × Json)} (h : (members.map Prod.fst).Nodup)
    (name : String) :
    field? (members.map fun (key, value) => (some key, value)) name =
      some (members.lookup name) := by
  induction members with
  | nil => rfl
  | cons m members ih =>
    obtain ⟨hFresh, hNodup⟩ := List.nodup_cons.mp h
    obtain ⟨key, v⟩ := m
    rw [field?, List.map_cons, List.filter_cons, List.lookup_cons]
    by_cases hKey : key = name
    · subst hKey
      have hOther : (members.map fun (key, value) => (some key, value)).filter
          (fun m => m.1 == some key) = [] := by
        rw [List.filter_eq_nil_iff]
        intro m hm hEq
        obtain ⟨⟨k, w⟩, hMem, rfl⟩ := List.mem_map.mp hm
        obtain rfl : k = key := by simpa using hEq
        exact hFresh (List.mem_map.mpr ⟨_, hMem, rfl⟩)
      simp [hOther]
    · have hBelow := ih hNodup
      rw [field?] at hBelow
      have hLookup : (name == key) = false := beq_eq_false_iff_ne.mpr (Ne.symm hKey)
      simp [hKey, hLookup, hBelow]

/-- The values of the named fields of a record. Fields may be missing, from an array those at its
end; a key that is no text and an item beyond the last field make the value no record. -/
def fields? (names : List String) : Json → Option (List (Option Json))
  | .object members =>
    if members.all (·.1.isSome) then names.mapM (field? members) else none
  | .array items =>
    if items.length ≤ names.length then
      some (items.map some ++ List.replicate (names.length - items.length) none)
    else none
  | .atom _ => none

/-- A record whose keys are distinct gives each field the value that its key is paired with. -/
theorem fields?_record {members : List (String × Json)} (h : (members.map Prod.fst).Nodup)
    (names : List String) :
    (record members).fields? names = some (names.map fun name => members.lookup name) := by
  have hKeys : (members.map fun (key, value) => (some key, value)).all (·.1.isSome) = true := by
    simp
  have hField : field? (members.map fun (key, value) => (some key, value)) =
      fun name => pure (members.lookup name) := funext (field?_of_nodup h)
  rw [record, fields?, if_pos hKeys, hField, List.mapM_pure]
  rfl

def text? : Json → Option String
  | .atom (.string s) => s
  | _ => none

def word? : Json → Option UInt32
  | .atom (.natural n) => if n < 4294967296 then some (UInt32.ofNat n) else none
  | _ => none

def list? {α : Type} (read : Json → Option α) : Json → Option (List α)
  | .array items => items.mapM read
  | _ => none

theorem word?_natural (n : UInt32) : word? (natural n.toNat) = some n := by
  have hBound := n.toNat_lt
  rw [natural, word?, if_pos hBound, UInt32.ofNat_toNat]

theorem list?_array_map {α β : Type} {read : Json → Option β} {write : α → Json} {f : α → β}
    (h : ∀ x, read (write x) = some (f x)) (xs : List α) :
    list? read (array (xs.map write)) = some (xs.map f) := by
  have hRead : read ∘ write = fun x => pure (f x) := funext h
  rw [list?, List.mapM_map, hRead, List.mapM_pure]
  rfl

theorem mapM_eq_some_iff {α β : Type} {f : α → Option β} {xs : List α} {ys : List β} :
    xs.mapM f = some ys ↔ xs.map f = ys.map some := by
  induction xs generalizing ys with
  | nil =>
    constructor
    · intro h
      cases h
      rfl
    · intro h
      rw [List.map_eq_nil_iff.mp h.symm]
      rfl
  | cons x xs ih =>
    rw [List.mapM_cons, List.map_cons]
    constructor
    · intro h
      obtain ⟨y, hFirst, h⟩ := Option.bind_eq_some_iff.mp h
      obtain ⟨others, hOthers, h⟩ := Option.bind_eq_some_iff.mp h
      cases h
      rw [hFirst, ih.mp hOthers, List.map_cons]
    · intro h
      obtain ⟨y, others, rfl, hFirst, hOthers⟩ := List.map_eq_cons_iff.mp h.symm
      rw [← hFirst, ih.mpr hOthers.symm]
      rfl

theorem exists_of_mem_list? {α : Type} {read : Json → Option α} {v : Json} {xs : List α}
    (h : list? read v = some xs) {x : α} (hx : x ∈ xs) : ∃ item, read item = some x := by
  cases v with
  | atom => cases h
  | object => cases h
  | array items =>
    have hItems : some x ∈ items.map read := by
      rw [mapM_eq_some_iff.mp h]
      exact List.mem_map_of_mem hx
    obtain ⟨item, -, hItem⟩ := List.mem_map.mp hItems
    exact ⟨item, hItem⟩

end TouchedLines.Json
