/-! # Line numbers and sets of them

Lines are numbered from 1 in 32 bits. A set of line numbers is kept as its ascending list, so that
two sets with the same members are equal and a scan can follow the set from its smallest member.
-/

namespace TouchedLines

abbrev LineNumber := UInt32

def LineNumber.last : LineNumber := 4294967295

structure LineSet where
  toList : List LineNumber
  ascending : toList.Pairwise (· < ·)

namespace LineSet

instance : Membership LineNumber LineSet := ⟨fun s n => n ∈ s.toList⟩

theorem mem_def {n : LineNumber} {s : LineSet} : n ∈ s ↔ n ∈ s.toList := Iff.rfl

instance (n : LineNumber) (s : LineSet) : Decidable (n ∈ s) :=
  inferInstanceAs (Decidable (n ∈ s.toList))

theorem toList_inj {s t : LineSet} : s.toList = t.toList ↔ s = t := by
  cases s; cases t; simp

instance : DecidableEq LineSet := fun s t =>
  decidable_of_iff (s.toList = t.toList) toList_inj

def empty : LineSet := ⟨[], .nil⟩

instance : EmptyCollection LineSet := ⟨empty⟩

instance : Inhabited LineSet := ⟨empty⟩

def isEmpty (s : LineSet) : Bool := s.toList.isEmpty

def singleton (n : LineNumber) : LineSet := ⟨[n], List.pairwise_singleton _ n⟩

/-- Both lists in one, in ascending order if both are, and without the members they share. -/
def merge : List LineNumber → List LineNumber → List LineNumber
  | [], ys => ys
  | x :: xs, [] => x :: xs
  | x :: xs, y :: ys =>
    if x < y then x :: merge xs (y :: ys)
    else if y < x then y :: merge (x :: xs) ys
    else x :: merge xs ys
termination_by xs ys => xs.length + ys.length

theorem mem_merge {n : LineNumber} {xs ys : List LineNumber} :
    n ∈ merge xs ys ↔ n ∈ xs ∨ n ∈ ys := by
  fun_induction merge xs ys with
  | case1 => simp
  | case2 => simp
  | case3 x xs y ys h ih => simp [ih, or_assoc]
  | case4 x xs y ys h h' ih =>
    simp only [List.mem_cons, ih]
    grind
  | case5 x xs y ys h h' ih =>
    have : x = y := UInt32.le_antisymm (UInt32.not_lt.1 h') (UInt32.not_lt.1 h)
    simp only [List.mem_cons, ih, this]
    grind

theorem pairwise_merge {xs ys : List LineNumber} (hx : xs.Pairwise (· < ·))
    (hy : ys.Pairwise (· < ·)) : (merge xs ys).Pairwise (· < ·) := by
  fun_induction merge xs ys with
  | case1 => exact hy
  | case2 => exact hx
  | case3 x xs y ys h ih =>
    rw [List.pairwise_cons] at hx
    refine List.pairwise_cons.2 ⟨fun n hn => ?_, ih hx.2 hy⟩
    rcases mem_merge.1 hn with hn | hn
    · exact hx.1 n hn
    · rcases List.mem_cons.1 hn with rfl | hn
      · exact h
      · exact UInt32.lt_trans h ((List.pairwise_cons.1 hy).1 n hn)
  | case4 x xs y ys h h' ih =>
    rw [List.pairwise_cons] at hy
    refine List.pairwise_cons.2 ⟨fun n hn => ?_, ih hx hy.2⟩
    rcases mem_merge.1 hn with hn | hn
    · rcases List.mem_cons.1 hn with rfl | hn
      · exact h'
      · exact UInt32.lt_trans h' ((List.pairwise_cons.1 hx).1 n hn)
    · exact hy.1 n hn
  | case5 x xs y ys h h' ih =>
    have hxy : x = y := UInt32.le_antisymm (UInt32.not_lt.1 h') (UInt32.not_lt.1 h)
    rw [List.pairwise_cons] at hx hy
    refine List.pairwise_cons.2 ⟨fun n hn => ?_, ih hx.2 hy.2⟩
    rcases mem_merge.1 hn with hn | hn
    · exact hx.1 n hn
    · exact hxy ▸ hy.1 n hn

def union (s t : LineSet) : LineSet :=
  ⟨merge s.toList t.toList, pairwise_merge s.ascending t.ascending⟩

instance : Union LineSet := ⟨union⟩

theorem mem_union {n : LineNumber} {s t : LineSet} : n ∈ s ∪ t ↔ n ∈ s ∨ n ∈ t := mem_merge

def ofList (lines : List LineNumber) : LineSet :=
  lines.foldl (fun s n => s ∪ singleton n) ∅

/-- The numbers from `start` up to but without `stop`. -/
def range (start stop : LineNumber) : LineSet where
  toList := (List.range (stop.toNat - start.toNat)).map fun i => UInt32.ofNat (start.toNat + i)
  ascending := by
    rw [List.pairwise_map]
    refine List.Pairwise.imp_of_mem ?_ List.pairwise_lt_range
    intro i j hi hj hij
    have hs := stop.toNat_lt
    rw [List.mem_range] at hi hj
    rw [UInt32.lt_iff_toNat_lt, UInt32.toNat_ofNat', UInt32.toNat_ofNat',
      Nat.mod_eq_of_lt (by omega), Nat.mod_eq_of_lt (by omega)]
    omega

theorem mem_range {n start stop : LineNumber} : n ∈ range start stop ↔ start ≤ n ∧ n < stop := by
  rw [UInt32.le_iff_toNat_le, UInt32.lt_iff_toNat_lt]
  have hs := stop.toNat_lt
  simp only [range, mem_def, List.mem_map, List.mem_range]
  constructor
  · rintro ⟨i, hi, rfl⟩
    rw [UInt32.toNat_ofNat', Nat.mod_eq_of_lt (by omega)]
    omega
  · rintro ⟨h₁, h₂⟩
    refine ⟨n.toNat - start.toNat, by omega, ?_⟩
    rw [← UInt32.toNat_inj, UInt32.toNat_ofNat', Nat.mod_eq_of_lt (by omega)]
    omega

theorem mem_ofList {n : LineNumber} {lines : List LineNumber} : n ∈ ofList lines ↔ n ∈ lines := by
  suffices h : ∀ s : LineSet,
      n ∈ lines.foldl (fun s n => s ∪ singleton n) s ↔ n ∈ s ∨ n ∈ lines by
    simpa [ofList, mem_def, empty, EmptyCollection.emptyCollection] using h ∅
  induction lines with
  | nil => simp
  | cons m rest ih =>
    intro s
    rw [List.foldl_cons, ih, mem_union, List.mem_cons, or_assoc]
    simp [mem_def, singleton]

theorem ext {s t : LineSet} (h : ∀ n, n ∈ s ↔ n ∈ t) : s = t := by
  rw [← toList_inj]
  obtain ⟨xs, hx⟩ := s
  obtain ⟨ys, hy⟩ := t
  simp only [mem_def] at h
  induction xs generalizing ys with
  | nil =>
    cases ys with
    | nil => rfl
    | cons y ys => exact absurd ((h y).2 (List.mem_cons_self)) (by simp)
  | cons x xs ih =>
    cases ys with
    | nil => exact absurd ((h x).1 (List.mem_cons_self)) (by simp)
    | cons y ys =>
      rw [List.pairwise_cons] at hx hy
      have hirrefl : ∀ m : LineNumber, ¬m < m := fun m => UInt32.lt_irrefl m
      have hxy : x = y := by
        rcases List.mem_cons.1 ((h x).1 List.mem_cons_self) with e | hmem
        · exact e
        · rcases List.mem_cons.1 ((h y).2 List.mem_cons_self) with e | hmem'
          · exact e.symm
          · exact absurd (UInt32.lt_trans (hx.1 y hmem') (hy.1 x hmem)) (hirrefl x)
      subst hxy
      have htail : ∀ n, n ∈ xs ↔ n ∈ ys := by
        intro n
        have hn := h n
        simp only [List.mem_cons] at hn
        constructor
        · intro hmem
          rcases hn.1 (Or.inr hmem) with rfl | hmem'
          · exact absurd (hx.1 n hmem) (hirrefl n)
          · exact hmem'
        · intro hmem
          rcases hn.2 (Or.inr hmem) with rfl | hmem'
          · exact absurd (hy.1 n hmem) (hirrefl n)
          · exact hmem'
      simpa using ih hx.2 ys hy.2 htail

end LineSet

end TouchedLines
