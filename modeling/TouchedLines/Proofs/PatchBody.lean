import Mathlib.Data.List.Forall2
import TouchedLines.Diff.Patch
import TouchedLines.Proofs.Attribution

/-! # Bodies of hunks

The lines of a hunk body are data: a printed patch is read line by line, and a body line leaves the
reading as it is. The exception are added lines that begin with `++ b/`: with their plus sign they
are target lines.
-/

namespace TouchedLines

namespace Text

/-- The lines that a printed line is read back as: one if its text holds no newline. -/
def readBack (line : Line) : List Line := splitReturnLines (line ++ ['\n'])

/-- Without a carriage return at the end. -/
def dropReturn : Line → Line
  | [] => []
  | c :: cs => if c = '\r' ∧ cs = [] then [] else c :: dropReturn cs

theorem splitReturnLines_cons {c : Char} {cs : List Char}
    (h : ¬(c = '\r' ∧ cs.head? = some '\n')) :
    splitReturnLines (c :: cs) =
      if c = '\n' then [] :: splitReturnLines cs
      else match splitReturnLines cs with
        | [] => [[c]]
        | line :: lines => (c :: line) :: lines := by
  have hOther : ∀ rest, c = '\r' → cs = '\n' :: rest → False := by
    rintro rest rfl rfl
    exact h ⟨rfl, rfl⟩
  exact splitReturnLines.eq_3 c cs hOther

/-- A carriage return before a newline is not seen. -/
theorem splitReturnLines_return {cs : List Char} (h : cs.head? = some '\n') :
    splitReturnLines ('\r' :: cs) = splitReturnLines cs := by
  obtain ⟨rest, rfl⟩ := List.head?_eq_some_iff.mp h
  rw [splitReturnLines, splitReturnLines_cons (by simp)]
  rfl

theorem splitReturnLines_cons_ne_nil (c : Char) (cs : List Char) :
    splitReturnLines (c :: cs) ≠ [] := by
  by_cases h : c = '\r' ∧ cs.head? = some '\n'
  · obtain ⟨rest, rfl⟩ := List.head?_eq_some_iff.mp h.2
    rw [h.1, splitReturnLines]
    exact List.cons_ne_nil _ _
  · rw [splitReturnLines_cons h]
    split
    · exact List.cons_ne_nil _ _
    · split <;> exact List.cons_ne_nil _ _

theorem readBack_ne_nil (line : Line) : readBack line ≠ [] := by
  cases line with
  | nil => exact splitReturnLines_cons_ne_nil _ _
  | cons c cs => exact splitReturnLines_cons_ne_nil _ _

theorem splitReturnLines_append_newline (line rest : List Char) :
    splitReturnLines (line ++ '\n' :: rest) = readBack line ++ splitReturnLines rest := by
  induction line with
  | nil =>
    rw [readBack, List.nil_append, List.nil_append, splitReturnLines_cons (by simp),
      splitReturnLines_cons (by simp)]
    rfl
  | cons c cs ih =>
    have hHead : (cs ++ '\n' :: rest).head? = (cs ++ ['\n']).head? := by cases cs <;> rfl
    rw [readBack, List.cons_append, List.cons_append]
    -- only a carriage return looks ahead, and what follows `cs` is a newline on both sides
    by_cases h : c = '\r' ∧ (cs ++ ['\n']).head? = some '\n'
    · rw [h.1, splitReturnLines_return (hHead.trans h.2), splitReturnLines_return h.2]
      exact ih
    · rw [splitReturnLines_cons (hHead.symm ▸ h), splitReturnLines_cons h, ih]
      have hSome := readBack_ne_nil cs
      unfold readBack at hSome ⊢
      split
      · rfl
      · cases hBack : splitReturnLines (cs ++ ['\n']) with
        | nil => exact absurd hBack hSome
        | cons line lines => rfl

theorem splitReturnLines_terminateLines (lines : List Line) :
    splitReturnLines (terminateLines lines) = lines.flatMap readBack := by
  induction lines with
  | nil => rfl
  | cons line lines ih =>
    rw [List.flatMap_cons, ← ih, ← splitReturnLines_append_newline, terminateLines_cons]

theorem readBack_eq_singleton {line : Line} (h : '\n' ∉ line) :
    readBack line = [dropReturn line] := by
  induction line with
  | nil => rfl
  | cons c cs ih =>
    obtain ⟨hc, hcs⟩ : '\n' ≠ c ∧ '\n' ∉ cs := by simpa using h
    have hHead : (cs ++ ['\n']).head? = some '\n' ↔ cs = [] := by
      cases cs with
      | nil => simp
      | cons d ds => simpa using fun hd : d = '\n' => hcs (hd ▸ List.mem_cons_self)
    have hRest : splitReturnLines (cs ++ ['\n']) = [dropReturn cs] := ih hcs
    rw [readBack, List.cons_append]
    by_cases hReturn : c = '\r' ∧ cs = []
    · rw [hReturn.1, splitReturnLines_return (hHead.mpr hReturn.2), hRest, hReturn.2]
      rfl
    · rw [dropReturn, if_neg hReturn, splitReturnLines_cons (by rwa [hHead]),
        if_neg hc.symm, hRest]

theorem isPrefix_dropReturn (line : Line) : dropReturn line <+: line := by
  induction line with
  | nil => exact List.prefix_rfl
  | cons c cs ih =>
    rw [dropReturn]
    split
    · exact List.nil_prefix
    · exact (List.prefix_cons_inj c).mpr ih

theorem dropReturn_cons {c : Char} (h : c ≠ '\r') (cs : List Char) :
    dropReturn (c :: cs) = c :: dropReturn cs :=
  if_neg fun hReturn => h hReturn.1

theorem dropReturn_append {word : List Char} (h : '\r' ∉ word) (rest : List Char) :
    dropReturn (word ++ rest) = word ++ dropReturn rest := by
  induction word with
  | nil => rfl
  | cons c cs ih =>
    obtain ⟨hc, hcs⟩ : '\r' ≠ c ∧ '\r' ∉ cs := by simpa using h
    rw [List.cons_append, dropReturn_cons hc.symm, ih hcs, List.cons_append]

theorem dropReturn_of_notMem {line : Line} (h : '\r' ∉ line) : dropReturn line = line := by
  have hAppend := dropReturn_append h []
  rwa [List.append_nil, dropReturn, List.append_nil] at hAppend

end Text

open Text

namespace PatchLine

def text : PatchLine → String
  | added text => text
  | removed text => text

/-- Printed, the text stays on one line. -/
def OnOneLine (l : PatchLine) : Prop := '\n' ∉ l.text.toList

/-- An added line that looks like a target line once it has its plus sign. -/
def LooksLikeTarget : PatchLine → Prop
  | added text => "++ b/".toList <+: text.toList
  | removed _ => False

instance : DecidablePred OnOneLine := fun _ => inferInstanceAs (Decidable (¬_))

instance : DecidablePred LooksLikeTarget
  | added _ => inferInstanceAs (Decidable (_ <+: _))
  | removed _ => inferInstanceAs (Decidable False)

/-- A line of text and no more than that. -/
def IsData (l : PatchLine) : Prop := l.OnOneLine ∧ ¬l.LooksLikeTarget

instance : DecidablePred IsData := fun _ => inferInstanceAs (Decidable (_ ∧ _))

theorem newline_notMem_line {l : PatchLine} (h : l.OnOneLine) : '\n' ∉ l.line := by
  cases l <;> simpa [line, OnOneLine, text] using h

theorem ofHeader?_line (l : PatchLine) : Hunk.ofHeader? (dropReturn l.line) = none := by
  cases l <;> rw [line, dropReturn_cons (by decide)] <;> rfl

theorem isSome_targetOf?_line {l : PatchLine} :
    (PatchReading.targetOf? (dropReturn l.line)).isSome = true ↔ l.LooksLikeTarget := by
  rw [PatchReading.targetOf?, Option.isSome_map, isSome_dropStart?_iff]
  cases l with
  | removed content =>
    rw [line, dropReturn_cons (by decide)]
    refine iff_of_false ?_ id
    rintro ⟨rest, hRest⟩
    exact absurd (List.cons.inj hRest).1 (by decide)
  | added content =>
    have hMark : PatchReading.targetMark = '+' :: "++ b/".toList := rfl
    rw [line, dropReturn_cons (by decide), hMark, List.prefix_cons_inj]
    constructor
    · intro h
      exact h.trans (isPrefix_dropReturn _)
    · rintro ⟨rest, hRest⟩
      rw [← hRest, dropReturn_append (by decide)]
      exact List.prefix_append _ _

end PatchLine

namespace PatchReading

/-- What is known after a printed line. -/
def readPrinted (r : PatchReading) (line : Line) : PatchReading := (readBack line).foldl read r

theorem read_eq_self {r : PatchReading} {line : Line} (hTarget : targetOf? line = none)
    (hHeader : Hunk.ofHeader? line = none) : r.read line = r := by
  rw [read, hTarget, hHeader]

theorem targetOf?_append {path : String} (h : trim path.toList = path.toList) :
    targetOf? (targetMark ++ path.toList) = some path := by
  rw [targetOf?, dropStart?_append, Option.map_some, h, String.ofList_toList]

theorem readPrinted_of_isData {l : PatchLine} (h : l.IsData) (r : PatchReading) :
    r.readPrinted l.line = r := by
  have hTarget : targetOf? (dropReturn l.line) = none := by
    rw [← Option.not_isSome_iff_eq_none, PatchLine.isSome_targetOf?_line]
    exact h.2
  rw [readPrinted, readBack_eq_singleton (PatchLine.newline_notMem_line h.1)]
  exact read_eq_self hTarget (PatchLine.ofHeader?_line l)

end PatchReading

theorem Patch.splitReturnLines_render (p : Patch) :
    splitReturnLines p.render.toList = (p.files.flatMap PatchFile.lines).flatMap readBack := by
  rw [render, String.toList_ofList, splitReturnLines_terminateLines]

theorem LineTable.ofPatch_render (p : Patch) :
    LineTable.ofPatch p.render =
      ((p.files.flatMap PatchFile.lines).foldl PatchReading.readPrinted ⟨∅, none⟩).table := by
  rw [ofPatch, p.splitReturnLines_render, List.foldl_flatMap]
  rfl

/-! ### Patches without data -/

/-- Without the body lines that are data. -/
def PatchHunk.withoutData (h : PatchHunk) : PatchHunk :=
  { h with body := h.body.filter fun l => decide ¬l.IsData }

def PatchFile.withoutData (f : PatchFile) : PatchFile :=
  { f with hunks := f.hunks.map PatchHunk.withoutData }

def Patch.withoutData (p : Patch) : Patch := ⟨p.files.map PatchFile.withoutData⟩

theorem PatchHunk.foldl_lines_withoutData (h : PatchHunk) (r : PatchReading) :
    h.withoutData.lines.foldl PatchReading.readPrinted r =
      h.lines.foldl PatchReading.readPrinted r := by
  have hBody : ∀ (body : List PatchLine) (r : PatchReading),
      ((body.filter fun l => decide ¬l.IsData).map PatchLine.line).foldl
          PatchReading.readPrinted r =
        (body.map PatchLine.line).foldl PatchReading.readPrinted r := by
    intro body r
    induction body generalizing r with
    | nil => rfl
    | cons l rest ih =>
      by_cases hData : l.IsData
      · rw [List.filter_cons_of_neg (by simpa using hData), List.map_cons, List.foldl_cons,
          PatchReading.readPrinted_of_isData hData]
        exact ih r
      · rw [List.filter_cons_of_pos (by simpa using hData)]
        exact ih _
  exact hBody h.body _

theorem PatchFile.foldl_contentLines_withoutData (f : PatchFile) (r : PatchReading) :
    f.withoutData.contentLines.foldl PatchReading.readPrinted r =
      f.contentLines.foldl PatchReading.readPrinted r := by
  rw [contentLines, contentLines, List.foldl_append, List.foldl_append, List.foldl_flatMap,
    List.foldl_flatMap, withoutData, List.foldl_map]
  simp only [PatchHunk.foldl_lines_withoutData]
  rfl

theorem PatchFile.foldl_lines_withoutData (f : PatchFile) (r : PatchReading) :
    f.withoutData.lines.foldl PatchReading.readPrinted r =
      f.lines.foldl PatchReading.readPrinted r := by
  have hEmpty : f.withoutData.hunks.isEmpty = f.hunks.isEmpty := List.isEmpty_map
  have hOld : f.withoutData.oldPath = f.oldPath := rfl
  rw [lines, lines, List.foldl_cons, List.foldl_cons, hOld]
  cases f.oldPath with
  | none => exact f.foldl_contentLines_withoutData _
  | some old =>
    -- a rename without hunks has no content part, before and after
    simp only [List.foldl_append, hEmpty]
    split
    · rfl
    · exact f.foldl_contentLines_withoutData _

theorem LineTable.ofPatch_render_withoutData (p : Patch) :
    LineTable.ofPatch p.withoutData.render = LineTable.ofPatch p.render := by
  rw [ofPatch_render, ofPatch_render, List.foldl_flatMap, List.foldl_flatMap, Patch.withoutData,
    List.foldl_map]
  simp only [PatchFile.foldl_lines_withoutData]

/-! ### Other words -/

/-- A line itself, or two lines of one side that both satisfy `P`. -/
inductive PatchLine.Reworded (P : PatchLine → Prop) : PatchLine → PatchLine → Prop
  | kept (l : PatchLine) : Reworded P l l
  | added {s t : String} (hs : P (.added s)) (ht : P (.added t)) : Reworded P (.added s) (.added t)
  | removed {s t : String} (hs : P (.removed s)) (ht : P (.removed t)) :
      Reworded P (.removed s) (.removed t)

def PatchHunk.Reworded (P : PatchLine → Prop) (h k : PatchHunk) : Prop :=
  k = { h with body := k.body } ∧ List.Forall₂ (PatchLine.Reworded P) h.body k.body

def PatchFile.Reworded (P : PatchLine → Prop) (f g : PatchFile) : Prop :=
  g = { f with hunks := g.hunks } ∧ List.Forall₂ (PatchHunk.Reworded P) f.hunks g.hunks

/-- The patches agree but for the texts of body lines that satisfy `P` before and after. -/
def Patch.Reworded (P : PatchLine → Prop) (p q : Patch) : Prop :=
  List.Forall₂ (PatchFile.Reworded P) p.files q.files

theorem map_eq_of_forall₂ {α β : Type} {R : α → α → Prop} {f : α → β} {xs ys : List α}
    (h : List.Forall₂ R xs ys) (hEq : ∀ x y, R x y → f x = f y) : xs.map f = ys.map f := by
  induction h with
  | nil => rfl
  | cons hHead _ ih => rw [List.map_cons, List.map_cons, hEq _ _ hHead, ih]

theorem filter_not_isData_eq {body body' : List PatchLine}
    (h : List.Forall₂ (PatchLine.Reworded PatchLine.IsData) body body') :
    body.filter (fun l => decide ¬l.IsData) = body'.filter fun l => decide ¬l.IsData := by
  induction h with
  | nil => rfl
  | cons hLine _ ih =>
    cases hLine with
    | kept l => rw [List.filter_cons, List.filter_cons, ih]
    | added hs ht => simpa [hs, ht] using ih
    | removed hs ht => simpa [hs, ht] using ih

theorem PatchHunk.Reworded.withoutData_eq {h k : PatchHunk}
    (hWords : h.Reworded PatchLine.IsData k) : h.withoutData = k.withoutData := by
  obtain ⟨hSame, hBody⟩ := hWords
  rw [withoutData, filter_not_isData_eq hBody, hSame]
  rfl

theorem PatchFile.Reworded.withoutData_eq {f g : PatchFile}
    (h : f.Reworded PatchLine.IsData g) : f.withoutData = g.withoutData := by
  obtain ⟨hSame, hHunks⟩ := h
  rw [withoutData, map_eq_of_forall₂ hHunks fun _ _ hHunk => hHunk.withoutData_eq, hSame]
  rfl

theorem Patch.Reworded.withoutData_eq {p q : Patch} (h : p.Reworded PatchLine.IsData q) :
    p.withoutData = q.withoutData :=
  congrArg Patch.mk (map_eq_of_forall₂ h fun _ _ hFile => hFile.withoutData_eq)

/-- Other words in the body lines of a patch leave its table as it is, if none of them makes an
added line begin with `++ b/`. What is read of a patch is read line by line, a body line never as a
hunk header, a removed line never as a target line, and an added line exactly if it begins so. -/
theorem LineTable.ofPatch_render_reworded :
    (∀ p q : Patch, p.Reworded PatchLine.IsData q →
      LineTable.ofPatch p.render = LineTable.ofPatch q.render) ∧
    (∀ p : Patch, splitReturnLines p.render.toList =
      (p.files.flatMap PatchFile.lines).flatMap readBack) ∧
    ∀ l : PatchLine, l.OnOneLine → ∃ line, readBack l.line = [line] ∧
      Hunk.ofHeader? line = none ∧
      ((PatchReading.targetOf? line).isSome = true ↔ l.LooksLikeTarget) := by
  refine ⟨?_, Patch.splitReturnLines_render, ?_⟩
  · intro p q h
    rw [← ofPatch_render_withoutData p, ← ofPatch_render_withoutData q, h.withoutData_eq]
  · intro l h
    exact ⟨_, readBack_eq_singleton (PatchLine.newline_notMem_line h), l.ofHeader?_line,
      PatchLine.isSome_targetOf?_line⟩

theorem LineTable.ofPatch_render_reworded_headers :
    let p (removed added : String) : Patch :=
      ⟨[⟨"a.js", none, [⟨1, 1, 1, 1, false, [.removed removed, .added added]⟩]⟩]⟩
    (p "x" "y").Reworded PatchLine.IsData (p "++ b/b.js" "@@ -1 +9 @@\r") ∧
      LineTable.ofPatch (p "x" "y").render =
        LineTable.ofPatch (p "++ b/b.js" "@@ -1 +9 @@\r").render := by
  intro p
  have hWords : (p "x" "y").Reworded PatchLine.IsData (p "++ b/b.js" "@@ -1 +9 @@\r") :=
    .cons ⟨rfl, .cons ⟨rfl, .cons (.removed (by decide) (by decide))
      (.cons (.added (by decide) (by decide)) .nil)⟩ .nil⟩ .nil
  exact ⟨hWords, LineTable.ofPatch_render_reworded.1 _ _ hWords⟩

/-- An added line that begins with `++ b/` takes the lines of later hunks to another file. -/
theorem not_ofPatch_render_reworded :
    let p (added : String) : Patch :=
      ⟨[⟨"a.js", none, [⟨1, 0, 1, 1, false, [.added added]⟩, ⟨5, 0, 6, 1, false, [.added "y"]⟩]⟩]⟩
    (p "x").Reworded PatchLine.OnOneLine (p "++ b/b.js") ∧
      Touches (p "x").render "a.js" 6 ∧
      ¬Touches (p "++ b/b.js").render "a.js" 6 ∧ Touches (p "++ b/b.js").render "b.js" 6 ∧
      LineTable.ofPatch (p "x").render ≠ LineTable.ofPatch (p "++ b/b.js").render := by
  intro p
  have hWords : (p "x").Reworded PatchLine.OnOneLine (p "++ b/b.js") :=
    .cons ⟨rfl, .cons ⟨rfl, .cons (.added (by decide) (by decide)) .nil⟩
      (.cons ⟨rfl, .cons (.kept _) .nil⟩ .nil)⟩ .nil
  have hKept : Touches (p "x").render "a.js" 6 := by
    rw [← mem_linesOf_ofPatch, LineTable.ofPatch, Patch.splitReturnLines_render]
    decide +kernel
  have hLost : ¬Touches (p "++ b/b.js").render "a.js" 6 := by
    rw [← mem_linesOf_ofPatch, LineTable.ofPatch, Patch.splitReturnLines_render]
    decide +kernel
  have hMoved : Touches (p "++ b/b.js").render "b.js" 6 := by
    rw [← mem_linesOf_ofPatch, LineTable.ofPatch, Patch.splitReturnLines_render]
    decide +kernel
  refine ⟨hWords, hKept, hLost, hMoved, ?_⟩
  intro hEq
  rw [← mem_linesOf_ofPatch, ← hEq, mem_linesOf_ofPatch] at hLost
  exact hLost hKept

end TouchedLines
