import Mathlib.Data.List.Nodup
import TouchedLines.Proofs.Resolution

/-! # Change sets and their histories

A change set is built by steps: a change is inserted, the set starts over from a list of changes, or
lines of a file are touched. What has happened since the set last started over is its history, and
the set is the map that the history describes, with its paths in the order of their first insertion.
Each step extends the set as it extends the history; a whole run follows by induction.
-/

namespace TouchedLines

/-- A step by which a change set is built. -/
inductive ChangeStep where
  | insert (c : Change)
  /-- Starts over from some changes. -/
  | collect (changes : List Change)
  /-- Touches lines of the file at a path, if the set has a change for it. -/
  | touch (path : String) (lines : List LineNumber)

/-- What a history tells. -/
inductive ChangeEvent where
  | inserted (c : Change)
  | touched (path : String) (lines : List LineNumber)

namespace ChangeStep

def apply (s : ChangeSet) : ChangeStep → ChangeSet
  | insert c => s.insert c
  | collect changes => .ofList changes
  | touch path lines => s.touch path (.ofList lines)

def startsOver : ChangeStep → Bool
  | collect _ => true
  | _ => false

def events : ChangeStep → List ChangeEvent
  | insert c => [.inserted c]
  | collect changes => changes.map .inserted
  | touch path lines => [.touched path lines]

/-- The steps from the last one on that starts over, all of them if none does. -/
def recent : List ChangeStep → List ChangeStep
  | [] => []
  | step :: later => if later.any startsOver then recent later else step :: later

/-- What has happened since the set last started over. -/
def history (steps : List ChangeStep) : List ChangeEvent := (recent steps).flatMap events

/-- The only path that a step has something to say about; none if it starts over. -/
def path? : ChangeStep → Option String
  | insert c => some c.path
  | collect _ => none
  | touch path _ => some path

theorem recent_append_singleton (steps : List ChangeStep) (step : ChangeStep) :
    recent (steps ++ [step]) = if step.startsOver then [step] else recent steps ++ [step] := by
  induction steps with
  | nil => cases step <;> rfl
  | cons first later ih =>
    rw [List.cons_append, recent, ih, recent, List.any_append]
    cases hStep : step.startsOver with
    | true => simp [hStep]
    | false =>
      cases later.any startsOver <;> simp [hStep]

end ChangeStep

namespace ChangeEvent

def apply (s : ChangeSet) : ChangeEvent → ChangeSet
  | inserted c => s.insert c
  | touched path lines => s.touch path (.ofList lines)

def insertedPath? : ChangeEvent → Option String
  | inserted c => some c.path
  | touched _ _ => none

/-- The lines of the file at `path` that an event touches. -/
def linesOf (path : String) : ChangeEvent → List LineNumber
  | inserted _ => []
  | touched p lines => if p = path then lines else []

def Inserts (path : String) (e : ChangeEvent) : Prop := e.insertedPath? = some path

end ChangeEvent

namespace LineSet

theorem union_assoc (s t u : LineSet) : s ∪ t ∪ u = s ∪ (t ∪ u) := by
  apply ext
  intro n
  simp only [mem_union, or_assoc]

theorem ofList_append (lines more : List LineNumber) :
    ofList (lines ++ more) = ofList lines ∪ ofList more := by
  apply ext
  intro n
  simp only [mem_union, mem_ofList, List.mem_append]

end LineSet

namespace Change

theorem touch_touch (c : Change) (lines more : LineSet) :
    (c.touch lines).touch more = c.touch (lines ∪ more) := by
  cases hLines : c.lines with
  | none => simp [touch, hLines]
  | some old => simp [touch, hLines, LineSet.union_assoc]

theorem touch_of_lines_eq_none {c : Change} (h : c.lines = none) (lines : LineSet) :
    c.touch lines = c := by
  cases c
  cases h
  rfl

end Change

namespace ChangeSet

theorem find?_eq_some_iff {s : ChangeSet} {path : String} {c : Change} :
    s.find? path = some c ↔ c ∈ s.changes ∧ c.path = path := by
  constructor
  · intro h
    exact ⟨List.mem_of_find?_eq_some h, by simpa using List.find?_some h⟩
  · rintro ⟨hMem, rfl⟩
    have hSome : (s.find? c.path).isSome = true :=
      List.find?_isSome.mpr ⟨c, hMem, beq_self_eq_true _⟩
    obtain ⟨d, hd⟩ := Option.isSome_iff_exists.mp hSome
    have hPath : d.path = c.path := by simpa using List.find?_some hd
    have hSame : d = c :=
      List.inj_on_of_nodup_map s.nodup (List.mem_of_find?_eq_some hd) hMem hPath
    rw [hd, hSame]

theorem find?_insert (s : ChangeSet) (c : Change) (path : String) :
    (s.insert c).find? path = if c.path = path then some c else s.find? path := by
  apply Option.ext
  intro d
  rw [find?_eq_some_iff, mem_changes_insert]
  split
  · rename_i hPath
    simp only [Option.some.injEq]
    constructor
    · rintro ⟨rfl | ⟨_, hNe⟩, hd⟩
      · rfl
      · exact absurd (hd.trans hPath.symm) hNe
    · rintro rfl
      exact ⟨.inl rfl, hPath⟩
  · rename_i hPath
    rw [find?_eq_some_iff]
    constructor
    · rintro ⟨rfl | ⟨hMem, _⟩, hd⟩
      · exact absurd hd hPath
      · exact ⟨hMem, hd⟩
    · rintro ⟨hMem, rfl⟩
      exact ⟨.inr ⟨hMem, fun hEq => hPath hEq.symm⟩, rfl⟩

theorem find?_touch (s : ChangeSet) (path : String) (lines : LineSet) (other : String) :
    (s.touch path lines).find? other =
      if path = other then (s.find? other).map (·.touch lines) else s.find? other := by
  have hFind : (s.touch path lines).find? other =
      (s.find? other).map fun c => if c.path = path then c.touch lines else c := by
    have hPath : ((fun c : Change => c.path == other) ∘ fun c =>
        if c.path = path then c.touch lines else c) = fun c => c.path == other := by
      funext c
      rw [Function.comp_apply]
      split <;> rfl
    rw [find?, changes_touch, List.find?_map, hPath]
    rfl
  rw [hFind]
  cases hFound : s.find? other with
  | none => simp
  | some c =>
    obtain rfl := (find?_eq_some_iff.mp hFound).2
    rw [Option.map_some, Option.map_some, ← apply_ite some]
    simp only [eq_comm]

theorem modifiedPaths_eq_filter (s : ChangeSet) :
    s.modifiedPaths = s.paths.filter fun path =>
      (s.find? path).any fun c => c.kind == .modified := by
  rw [modifiedPaths, paths, List.filter_map]
  apply congrArg
  apply List.filter_congr
  intro c hc
  rw [Function.comp_apply, find?_eq_some_iff.mpr ⟨hc, rfl⟩]
  rfl

/-! ### Sets and histories -/

/-- The set is the map that a history describes. Its paths stand in the order of their first
insertion. A path has the change that was last inserted for it, with the lines that were touched
since then added to its own if it has any; a path for which nothing was inserted has none. -/
structure Tells (s : ChangeSet) (history : List ChangeEvent) : Prop where
  paths : s.paths = (history.filterMap ChangeEvent.insertedPath?).eraseDups
  found : ∀ before c later, history = before ++ .inserted c :: later →
    (∀ e ∈ later, ¬e.Inserts c.path) →
      s.find? c.path = some { c with
        lines := c.lines.map (· ∪ .ofList (later.flatMap (ChangeEvent.linesOf c.path))) }
  absent : ∀ path, (∀ e ∈ history, ¬e.Inserts path) → s.find? path = none

theorem tells_empty : (∅ : ChangeSet).Tells [] where
  paths := rfl
  found before c later h := by simp at h
  absent _ _ := rfl

theorem paths_apply (s : ChangeSet) (e : ChangeEvent) :
    (e.apply s).paths =
      match e.insertedPath? with
      | none => s.paths
      | some path => if path ∈ s.paths then s.paths else s.paths ++ [path] := by
  cases e with
  | inserted c => exact paths_insert s c
  | touched path lines => exact paths_touch s path _

theorem find?_apply_of_not_inserts {s : ChangeSet} {e : ChangeEvent} {path : String}
    (h : ¬e.Inserts path) :
    (e.apply s).find? path = (s.find? path).map (·.touch (.ofList (e.linesOf path))) := by
  cases e with
  | inserted c =>
    have hPath : c.path ≠ path := fun hEq => h (congrArg some hEq)
    have hSame : ∀ c : Change, c.touch (.ofList []) = c := touch_empty
    rw [ChangeEvent.apply, find?_insert, if_neg hPath, ChangeEvent.linesOf]
    simp [hSame]
  | touched p lines =>
    have hSame : ∀ c : Change, c.touch (.ofList []) = c := touch_empty
    rw [ChangeEvent.apply, find?_touch, ChangeEvent.linesOf]
    split
    · rfl
    · simp [hSame]

theorem Tells.step {s : ChangeSet} {history : List ChangeEvent} (h : s.Tells history)
    (e : ChangeEvent) : (e.apply s).Tells (history ++ [e]) := by
  refine ⟨?_, ?_, ?_⟩
  · rw [paths_apply, List.filterMap_append, h.paths]
    cases hPath : e.insertedPath? with
    | none => simp [hPath]
    | some path =>
      simp only [List.filterMap_cons, hPath, List.filterMap_nil, eraseDups_append_singleton,
        List.mem_eraseDups]
  · intro before c later hHistory hLater
    obtain rfl | ⟨between, last, rfl⟩ := later.eq_nil_or_concat'
    · -- the event is the last insertion itself
      obtain ⟨rfl, hEvent⟩ := List.append_inj' hHistory rfl
      obtain rfl := (List.cons.inj hEvent).1
      rw [ChangeEvent.apply, find?_insert, if_pos rfl]
      exact congrArg some (touch_empty c).symm
    · rw [← List.cons_append, ← List.append_assoc] at hHistory
      obtain ⟨rfl, hEvent⟩ := List.append_inj' hHistory rfl
      obtain rfl := (List.cons.inj hEvent).1
      have hBefore := h.found before c between rfl fun e he =>
        hLater e (List.mem_append_left _ he)
      have hLast := hLater e (List.mem_append_right _ List.mem_cons_self)
      rw [find?_apply_of_not_inserts hLast, hBefore, Option.map_some, List.flatMap_append,
        LineSet.ofList_append, List.flatMap_singleton]
      exact congrArg some (c.touch_touch _ _)
  · intro path hPath
    have hOld : s.find? path = none :=
      h.absent path fun e he => hPath e (List.mem_append_left _ he)
    have hNot : ¬e.Inserts path := hPath e (List.mem_append_right _ List.mem_cons_self)
    rw [find?_apply_of_not_inserts hNot, hOld]
    rfl

theorem Tells.run {s : ChangeSet} {history : List ChangeEvent} (h : s.Tells history)
    (events : List ChangeEvent) : (events.foldl ChangeEvent.apply s).Tells (history ++ events) := by
  induction events generalizing s history with
  | nil => simpa using h
  | cons e rest ih => simpa using ih (h.step e)

/-! ### Runs of steps -/

def build (steps : List ChangeStep) : ChangeSet := steps.foldl ChangeStep.apply ∅

theorem build_append_singleton (steps : List ChangeStep) (step : ChangeStep) :
    build (steps ++ [step]) = step.apply (build steps) :=
  List.foldl_append

theorem apply_of_startsOver {step : ChangeStep} (h : step.startsOver = true) (s : ChangeSet) :
    step.apply s = step.events.foldl ChangeEvent.apply ∅ := by
  cases step with
  | insert c => cases h
  | touch path lines => cases h
  | collect changes =>
    rw [ChangeStep.events, List.foldl_map]
    rfl

theorem apply_of_not_startsOver {step : ChangeStep} (h : step.startsOver = false)
    (s : ChangeSet) : step.apply s = step.events.foldl ChangeEvent.apply s := by
  cases step with
  | insert c => rfl
  | touch path lines => rfl
  | collect changes => cases h

theorem tells_build (steps : List ChangeStep) :
    (build steps).Tells (ChangeStep.history steps) := by
  induction steps using List.reverseRecOn with
  | nil => exact tells_empty
  | append_singleton steps step ih =>
    rw [build_append_singleton, ChangeStep.history, ChangeStep.recent_append_singleton]
    cases hStep : step.startsOver with
    | true =>
      rw [apply_of_startsOver hStep, if_pos rfl, List.flatMap_singleton]
      exact tells_empty.run step.events
    | false =>
      rw [apply_of_not_startsOver hStep, if_neg Bool.false_ne_true, List.flatMap_append,
        List.flatMap_singleton]
      exact ih.run step.events

theorem find?_apply_of_ne {step : ChangeStep} {path other : String} (h : step.path? = some path)
    (hOther : other ≠ path) (s : ChangeSet) : (step.apply s).find? other = s.find? other := by
  cases step with
  | collect changes => cases h
  | insert c =>
    cases h
    exact (find?_insert s c other).trans (if_neg hOther.symm)
  | touch p lines =>
    cases h
    exact (find?_touch s path _ other).trans (if_neg hOther.symm)

theorem filter_paths_apply {step : ChangeStep} {path : String} (h : step.path? = some path)
    (s : ChangeSet) : ((step.apply s).paths.filter fun other => decide (other ≠ path)) =
      s.paths.filter fun other => decide (other ≠ path) := by
  cases step with
  | collect changes => cases h
  | insert c =>
    cases h
    rw [ChangeStep.apply, paths_insert]
    split
    · rfl
    · simp
  | touch p lines =>
    cases h
    rw [ChangeStep.apply, paths_touch]

theorem mem_changes_touch_of_lines_eq_none {s : ChangeSet} {c : Change} (hMem : c ∈ s.changes)
    (hLines : c.lines = none) (path : String) (lines : LineSet) :
    c ∈ (s.touch path lines).changes := by
  rw [changes_touch]
  refine List.mem_map.mpr ⟨c, hMem, ?_⟩
  rw [Change.touch_of_lines_eq_none hLines, ite_self]

/-- Whatever steps build a change set, it is the map that their history tells, over paths that do
not repeat. A step about one path leaves every other path with its change and in its place, a change
without a line set is never given one, and the modified paths are those of the modified changes in
the order of the set. -/
theorem build_tells_history (steps : List ChangeStep) :
    let s := build steps
    s.paths.Nodup ∧
    s.Tells (ChangeStep.history steps) ∧
    (∀ (step : ChangeStep) (path : String), step.path? = some path →
      (∀ other, other ≠ path → (step.apply s).find? other = s.find? other) ∧
      ((step.apply s).paths.filter fun other => decide (other ≠ path)) =
        s.paths.filter fun other => decide (other ≠ path)) ∧
    (∀ c ∈ s.changes, c.lines = none → ∀ path lines,
      c ∈ (ChangeStep.apply s (.touch path lines)).changes) ∧
    s.modifiedPaths = s.paths.filter fun path =>
      (s.find? path).any fun c => c.kind == .modified := by
  intro s
  refine ⟨s.nodup, tells_build steps, ?_, ?_, modifiedPaths_eq_filter s⟩
  · intro step path hPath
    exact ⟨fun other hOther => find?_apply_of_ne hPath hOther s, filter_paths_apply hPath s⟩
  · intro c hMem hLines path lines
    exact mem_changes_touch_of_lines_eq_none hMem hLines path _

/-- A path keeps its place when its change is replaced, and the lines of the old change are gone. -/
example :
    let s := build [.insert (.modified "a.js" .javascript), .touch "a.js" [4],
      .insert (.newFile "b.rb" .ruby), .touch "b.rb" [1], .insert (.modified "a.js" .javascript),
      .touch "a.js" [7, 2, 7]]
    s.changes =
      [⟨"a.js", .modified, some (.ofList [2, 7]), .javascript⟩, .newFile "b.rb" .ruby] := by
  decide +kernel

end ChangeSet

end TouchedLines
