import Mathlib.Data.List.Infix
import TouchedLines.Config.Expansion

/-! # The grammar of references

A text is cut at its references in one way only. It can be expanded if each of its segments stands
for a text, and then these texts are put one after another; otherwise the leftmost segment that
stands for none says what is wrong. The environment is looked at only for the variables that the
references name.
-/

namespace TouchedLines

open Text

namespace Segment

theorem splitAtFirst_opening {before : List Char} (h : ¬opening <:+: before) (after : List Char) :
    splitAtFirst opening (before ++ (opening ++ after)) = some (before, after) :=
  splitAtFirst_pair_append (by decide) h after

theorem splitAtFirst_closing {body : List Char} (h : '\x7d' ∉ body) (after : List Char) :
    splitAtFirst closing (body ++ (closing ++ after)) = some (body, after) := by
  refine splitAtFirst_append (by decide) ?_
  rintro tail hTail hNil ⟨rest, hRest⟩
  obtain ⟨c, tail, rfl⟩ := List.exists_cons_of_ne_nil hNil
  obtain rfl := (List.cons.inj hRest).1
  exact h (hTail.mem List.mem_cons_self)

theorem splitAtFirst_closing_eq_none_iff {body : List Char} :
    splitAtFirst closing body = none ↔ '\x7d' ∉ body := by
  rw [splitAtFirst_eq_none_iff, closing, List.singleton_infix_iff]

/-- The cut of a text into plain parts without an opening brace and references up to the first
closing one. The last reference may lack it. -/
inductive IsCut : List Segment → Prop
  | plain {text : List Char} (hText : ¬opening <:+: text) : IsCut [.plain text]
  | unclosed {text body : List Char} (hText : ¬opening <:+: text) (hBody : '\x7d' ∉ body) :
      IsCut [.plain text, .unclosed body]
  | reference {text body : List Char} {rest : List Segment} (hText : ¬opening <:+: text)
      (hBody : '\x7d' ∉ body) (hRest : IsCut rest) : IsCut (.plain text :: .reference body :: rest)

theorem isCut_ofText (text : List Char) : IsCut (ofText text) := by
  fun_induction ofText text with
  | case1 text hNone => exact .plain (splitAtFirst_eq_none_iff.mp hNone)
  | case2 text before body hOpening hNone =>
    exact .unclosed (not_isInfix_of_splitAtFirst (by decide) hOpening)
      (splitAtFirst_closing_eq_none_iff.mp hNone)
  | case3 text before body hOpening inside rest hClosing _ ih =>
    refine .reference (not_isInfix_of_splitAtFirst (by decide) hOpening) ?_ ih
    have hInside := not_isInfix_of_splitAtFirst (by decide) hClosing
    rwa [closing, List.singleton_infix_iff] at hInside

theorem ofText_of_none {text : List Char} (h : splitAtFirst opening text = none) :
    ofText text = [.plain text] := by
  -- the matches of the recursion carry equations, so no rewriting reaches into them
  rw [ofText]
  split
  · rfl
  · rename_i hSome
    rw [h] at hSome
    cases hSome

theorem ofText_of_some {text before body : List Char}
    (h : splitAtFirst opening text = some (before, body)) :
    ofText text = .plain before ::
      (splitAtFirst closing body).elim [.unclosed body] fun (inside, rest) =>
        .reference inside :: ofText rest := by
  rw [ofText]
  split
  · rename_i hNone
    rw [h] at hNone
    cases hNone
  · rename_i hSome
    obtain ⟨rfl, rfl⟩ := Prod.mk.inj (Option.some.inj (h.symm.trans hSome))
    split
    · rename_i hClosing
      simp only [hClosing, Option.elim_none]
    · rename_i hClosing
      simp only [hClosing, Option.elim_some]

theorem IsCut.ofText_flatMap_source {segments : List Segment} (h : IsCut segments) :
    ofText (segments.flatMap source) = segments := by
  induction h with
  | @plain text hText =>
    have hNone : splitAtFirst opening text = none := splitAtFirst_eq_none_iff.mpr hText
    simpa [source] using ofText_of_none hNone
  | @unclosed text body hText hBody =>
    have hSome := splitAtFirst_opening hText body
    have hNone := splitAtFirst_closing_eq_none_iff.mpr hBody
    simpa [source, hNone] using ofText_of_some hSome
  | @reference text body rest hText hBody hRest ih =>
    have hSome := splitAtFirst_opening hText (body ++ (closing ++ rest.flatMap source))
    have hClosing := splitAtFirst_closing hBody (rest.flatMap source)
    simpa [source, hClosing, ih] using ofText_of_some hSome

end Segment

namespace Expansion

variable {env : Environment} {body : List Char} {place : Nat} {segment : Segment}
  {segments : List Segment} {e : ExpansionError}

/-- A name of a variable. -/
def IsVariable (name : List Char) : Prop :=
  ∃ first rest, name = first :: rest ∧ (isAsciiLetter first = true ∨ first = '_') ∧
    ∀ c ∈ rest, isAsciiWord c = true

/-- The name in a reference: what stands in front of the first `:-`, or all of it. -/
def HasName (body name : List Char) : Prop :=
  (name = body ∧ ¬":-".toList <:+: body) ∨
    ∃ default, body = name ++ (":-".toList ++ default) ∧ ¬":-".toList <:+: name

/-- What a segment stands for. -/
inductive StandsFor (env : Environment) : Segment → List Char → Prop
  | plain (text : List Char) : StandsFor env (.plain text) text
  | value {name : List Char} {value : String} (hName : IsVariable name)
      (hValue : env (String.ofList name) = some value) :
      StandsFor env (.reference name) value.toList
  | given {name default : List Char} {value : String} (hName : IsVariable name)
      (hValue : env (String.ofList name) = some value) (hSome : value ≠ "") :
      StandsFor env (.reference (name ++ (":-".toList ++ default))) value.toList
  | default {name default : List Char} (hName : IsVariable name)
      (hValue : env (String.ofList name) = none ∨ env (String.ofList name) = some "") :
      StandsFor env (.reference (name ++ (":-".toList ++ default))) default

/-- What is wrong with a name. -/
inductive Misnames : List Char → ExpansionError → Prop
  | empty : Misnames [] .emptyName
  | start {first : Char} {rest : List Char} (hFirst : ¬(isAsciiLetter first = true ∨ first = '_')) :
      Misnames (first :: rest) (.badStart (first :: rest))
  | character {first c : Char} {front rest : List Char}
      (hFirst : isAsciiLetter first = true ∨ first = '_')
      (hFront : ∀ d ∈ front, isAsciiWord d = true) (hc : isAsciiWord c = false) :
      Misnames (first :: (front ++ c :: rest)) (.badCharacter (first :: (front ++ c :: rest)) c)

/-- What is wrong with a segment that begins after `place` bytes. -/
inductive FailsWith (env : Environment) (place : Nat) : Segment → ExpansionError → Prop
  | unclosed (body : List Char) : FailsWith env place (.unclosed body) (.unclosed place body)
  | name {body name : List Char} {e : ExpansionError} (hName : HasName body name)
      (h : Misnames name e) : FailsWith env place (.reference body) e
  | unset {name : List Char} (hName : IsVariable name) (hValue : env (String.ofList name) = none) :
      FailsWith env place (.reference name) (.unset name)

theorem not_isStart_iff {c : Char} : (!(isAsciiLetter c || c == '_')) = true ↔
    ¬(isAsciiLetter c = true ∨ c = '_') := by
  rw [Bool.not_eq_true', ← Bool.not_eq_true, Bool.or_eq_true, beq_iff_eq]

theorem checkName_eq_ok_iff {name : List Char} : checkName name = .ok () ↔ IsVariable name := by
  constructor
  · intro h
    cases name with
    | nil => cases h
    | cons first rest =>
      rw [checkName] at h
      split at h
      · cases h
      · rename_i hFirst
        split at h
        · cases h
        · rename_i hNone
          rw [not_isStart_iff, not_not] at hFirst
          exact ⟨first, rest, rfl, hFirst, by simpa using hNone⟩
  · rintro ⟨first, rest, rfl, hFirst, hRest⟩
    have hNone : (rest.find? fun d => !isAsciiWord d) = none := by simpa using hRest
    rw [checkName, if_neg (not_isStart_iff.not.mpr (not_not.mpr hFirst)), hNone]

theorem checkName_eq_error_iff {name : List Char} :
    checkName name = .error e ↔ Misnames name e := by
  constructor
  · intro h
    cases name with
    | nil =>
      cases h
      exact .empty
    | cons first rest =>
      rw [checkName] at h
      split at h
      · rename_i hFirst
        cases h
        exact .start (not_isStart_iff.mp hFirst)
      · rename_i hFirst
        split at h
        · rename_i c hFind
          cases h
          obtain ⟨hc, front, back, rfl, hFront⟩ := List.find?_eq_some_iff_append.mp hFind
          rw [not_isStart_iff, not_not] at hFirst
          exact .character hFirst (by simpa using hFront) (by simpa using hc)
        · cases h
  · rintro (_ | hFirst | ⟨hFirst, hFront, hc⟩)
    · rfl
    · rw [checkName, if_pos (not_isStart_iff.mpr hFirst)]
    · rename_i first c front rest
      have hFind : ((front ++ c :: rest).find? fun d => !isAsciiWord d) = some c := by
        rw [List.find?_eq_some_iff_append]
        exact ⟨by simpa using hc, front, rest, rfl, by simpa using hFront⟩
      rw [checkName, if_neg (not_isStart_iff.not.mpr (not_not.mpr hFirst)), hFind]

theorem IsVariable.not_isInfix {name : List Char} (h : IsVariable name) :
    ¬":-".toList <:+: name := by
  obtain ⟨first, rest, rfl, hFirst, hRest⟩ := h
  intro hInfix
  have hColon : ':' ∈ first :: rest := hInfix.mem (by simp)
  obtain rfl | hMem := List.mem_cons.mp hColon
  · exact absurd hFirst (by decide)
  · exact absurd (hRest ':' hMem) (by decide)

theorem splitReference_of_not_isInfix (h : ¬":-".toList <:+: body) :
    splitReference body = (body, none) := by
  have hNone : splitAtFirst [':', '-'] body = none := splitAtFirst_eq_none_iff.mpr h
  rw [splitReference, hNone]

theorem splitReference_append {name : List Char} (h : ¬":-".toList <:+: name)
    (default : List Char) :
    splitReference (name ++ (":-".toList ++ default)) = (name, some default) := by
  have hSome : splitAtFirst [':', '-'] (name ++ (":-".toList ++ default)) = some (name, default) :=
    splitAtFirst_pair_append (by decide) h default
  rw [splitReference, hSome]

theorem splitReference_cases (body : List Char) :
    (¬":-".toList <:+: body ∧ splitReference body = (body, none)) ∨
      ∃ name default, body = name ++ (":-".toList ++ default) ∧ ¬":-".toList <:+: name ∧
        splitReference body = (name, some default) := by
  cases hSplit : splitAtFirst [':', '-'] body with
  | none =>
    have hNot := splitAtFirst_eq_none_iff.mp hSplit
    exact .inl ⟨hNot, splitReference_of_not_isInfix hNot⟩
  | some parts =>
    obtain ⟨name, default⟩ := parts
    have hBody := eq_append_of_splitAtFirst hSplit
    rw [List.append_assoc] at hBody
    have hName := not_isInfix_of_splitAtFirst (by decide) hSplit
    subst hBody
    exact .inr ⟨name, default, rfl, hName, splitReference_append hName default⟩

theorem hasName_iff {name : List Char} : HasName body name ↔ (splitReference body).1 = name := by
  constructor
  · rintro (⟨rfl, hNot⟩ | ⟨default, rfl, hNot⟩)
    · rw [splitReference_of_not_isInfix hNot]
    · rw [splitReference_append hNot]
  · rintro rfl
    obtain ⟨hNot, hSplit⟩ | ⟨name, default, rfl, hNot, hSplit⟩ := splitReference_cases body
    · exact .inl ⟨by rw [hSplit], hNot⟩
    · rw [hSplit]
      exact .inr ⟨default, rfl, hNot⟩

theorem resolve_of_isVariable {name : List Char} {default : Option (List Char)}
    (hSplit : splitReference body = (name, default)) (hName : IsVariable name) :
    resolve env body = valueOf env name default := by
  simp only [resolve, hSplit, checkName_eq_ok_iff.mpr hName]

theorem resolve_of_misnames {name : List Char} (hName : HasName body name)
    (h : Misnames name e) : resolve env body = .error e := by
  obtain rfl := hasName_iff.mp hName
  simp only [resolve, checkName_eq_error_iff.mpr h]

theorem valueOf_default_of_ne {name default : List Char} {value : String}
    (hValue : env (String.ofList name) = some value) (hSome : value ≠ "") :
    valueOf env name (some default) = .ok value.toList := by
  have hFilter : (some value).filter (fun value => !value.isEmpty) = some value := by
    simpa [Option.filter_eq_some_iff] using hSome
  rw [valueOf, hValue, hFilter, Option.elim_some]

theorem valueOf_default_of_eq {name default : List Char}
    (hValue : env (String.ofList name) = none ∨ env (String.ofList name) = some "") :
    valueOf env name (some default) = .ok default := by
  obtain hNone | hEmpty := hValue
  · rw [valueOf, hNone, Option.filter_none, Option.elim_none]
  · rw [valueOf, hEmpty]
    rfl

theorem isVariable_or_misnames (name : List Char) : IsVariable name ∨ ∃ e, Misnames name e := by
  cases hName : checkName name with
  | ok _ => exact .inl (checkName_eq_ok_iff.mp hName)
  | error e => exact .inr ⟨e, checkName_eq_error_iff.mp hName⟩

theorem standsFor_or_failsWith (env : Environment) (place : Nat) (segment : Segment) :
    (∃ value, StandsFor env segment value) ∨ ∃ e, FailsWith env place segment e := by
  cases segment with
  | plain text => exact .inl ⟨text, .plain text⟩
  | unclosed body => exact .inr ⟨_, .unclosed body⟩
  | reference body =>
    obtain ⟨hNot, -⟩ | ⟨name, default, rfl, hNot, -⟩ := splitReference_cases body
    · obtain hName | ⟨e, hBad⟩ := isVariable_or_misnames body
      · cases hValue : env (String.ofList body) with
        | none => exact .inr ⟨_, .unset hName hValue⟩
        | some value => exact .inl ⟨_, .value hName hValue⟩
      · exact .inr ⟨e, .name (.inl ⟨rfl, hNot⟩) hBad⟩
    · obtain hName | ⟨e, hBad⟩ := isVariable_or_misnames name
      · cases hValue : env (String.ofList name) with
        | none => exact .inl ⟨_, .default hName (.inl hValue)⟩
        | some value =>
          obtain rfl | hSome := eq_or_ne value ""
          · exact .inl ⟨_, .default hName (.inr hValue)⟩
          · exact .inl ⟨_, .given hName hValue hSome⟩
      · exact .inr ⟨e, .name (.inr ⟨default, rfl, hNot⟩) hBad⟩

theorem resolve_of_standsFor {value : List Char} (h : StandsFor env (.reference body) value) :
    resolve env body = .ok value := by
  cases h with
  | value hName hValue =>
    rw [resolve_of_isVariable (splitReference_of_not_isInfix hName.not_isInfix) hName, valueOf,
      hValue]
  | given hName hValue hSome =>
    rw [resolve_of_isVariable (splitReference_append hName.not_isInfix _) hName,
      valueOf_default_of_ne hValue hSome]
  | default hName hValue =>
    rw [resolve_of_isVariable (splitReference_append hName.not_isInfix _) hName,
      valueOf_default_of_eq hValue]

theorem resolve_of_failsWith (h : FailsWith env place (.reference body) e) :
    resolve env body = .error e := by
  cases h with
  | name hName hBad => exact resolve_of_misnames hName hBad
  | unset hName hValue =>
    rw [resolve_of_isVariable (splitReference_of_not_isInfix hName.not_isInfix) hName, valueOf,
      hValue]

theorem expandFrom_cons_of_standsFor {value : List Char} (h : StandsFor env segment value)
    (place : Nat) (rest : List Segment) :
    expandFrom env place (segment :: rest) =
      (expandFrom env (place + Utf8.size segment.source) rest).map (value ++ ·) := by
  cases segment with
  | plain text =>
    cases h
    rfl
  | unclosed body => cases h
  | reference body => simp only [expandFrom, resolve_of_standsFor h]

theorem expandFrom_cons_of_failsWith (h : FailsWith env place segment e) (rest : List Segment) :
    expandFrom env place (segment :: rest) = .error e := by
  cases segment with
  | plain text => cases h
  | unclosed body =>
    cases h
    rfl
  | reference body => simp only [expandFrom, resolve_of_failsWith h]

theorem expandFrom_append {front : List Segment} {values : List (List Char)}
    (h : List.Forall₂ (StandsFor env) front values) (place : Nat) (rest : List Segment) :
    expandFrom env place (front ++ rest) =
      (expandFrom env (place + Utf8.size (front.flatMap Segment.source)) rest).map
        (values.flatten ++ ·) := by
  induction h generalizing place with
  | nil =>
    rw [List.flatMap_nil, Utf8.size_nil, Nat.add_zero, List.nil_append]
    cases expandFrom env place rest <;> rfl
  | @cons segment value front values hHead hTail ih =>
    rw [List.cons_append, expandFrom_cons_of_standsFor hHead, ih, List.flatMap_cons,
      Utf8.size_append, ← Nat.add_assoc]
    cases expandFrom env _ rest with
    | error e => rfl
    | ok out => simp [Except.map]

theorem expandFrom_of_standsFor {values : List (List Char)}
    (h : List.Forall₂ (StandsFor env) segments values) (place : Nat) :
    expandFrom env place segments = .ok values.flatten := by
  have hAll := expandFrom_append h place []
  rw [List.append_nil] at hAll
  rw [hAll, expandFrom, Except.map, List.append_nil]

theorem expandFrom_of_failsWith {front : List Segment} {values : List (List Char)}
    (hFront : List.Forall₂ (StandsFor env) front values)
    (hBad : FailsWith env (place + Utf8.size (front.flatMap Segment.source)) segment e)
    (back : List Segment) : expandFrom env place (front ++ segment :: back) = .error e := by
  rw [expandFrom_append hFront, expandFrom_cons_of_failsWith hBad]
  rfl

theorem forall_standsFor_or_failsWith (env : Environment) (place : Nat) (segments : List Segment) :
    (∃ values, List.Forall₂ (StandsFor env) segments values) ∨
      ∃ front bad back values e, segments = front ++ bad :: back ∧
        List.Forall₂ (StandsFor env) front values ∧
        FailsWith env (place + Utf8.size (front.flatMap Segment.source)) bad e := by
  induction segments generalizing place with
  | nil => exact .inl ⟨[], .nil⟩
  | cons segment rest ih =>
    obtain ⟨value, hValue⟩ | ⟨e, hBad⟩ := standsFor_or_failsWith env place segment
    · obtain ⟨values, hRest⟩ | ⟨front, bad, back, values, e, rfl, hFront, hBad⟩ :=
        ih (place + Utf8.size segment.source)
      · exact .inl ⟨value :: values, .cons hValue hRest⟩
      · refine .inr ⟨segment :: front, bad, back, value :: values, e, rfl, .cons hValue hFront, ?_⟩
        rwa [List.flatMap_cons, Utf8.size_append, ← Nat.add_assoc]
    · exact .inr ⟨[], segment, rest, [], e, rfl, .nil, hBad⟩

theorem expandFrom_eq_ok_iff {out : List Char} :
    expandFrom env place segments = .ok out ↔
      ∃ values, List.Forall₂ (StandsFor env) segments values ∧ out = values.flatten := by
  constructor
  · intro h
    obtain ⟨values, hValues⟩ | ⟨front, bad, back, values, e, rfl, hFront, hBad⟩ :=
      forall_standsFor_or_failsWith env place segments
    · rw [expandFrom_of_standsFor hValues] at h
      cases h
      exact ⟨values, hValues, rfl⟩
    · rw [expandFrom_of_failsWith hFront hBad] at h
      cases h
  · rintro ⟨values, hValues, rfl⟩
    exact expandFrom_of_standsFor hValues place

theorem expandFrom_eq_error_iff :
    expandFrom env place segments = .error e ↔
      ∃ front bad back values, segments = front ++ bad :: back ∧
        List.Forall₂ (StandsFor env) front values ∧
        FailsWith env (place + Utf8.size (front.flatMap Segment.source)) bad e := by
  constructor
  · intro h
    obtain ⟨values, hValues⟩ | ⟨front, bad, back, values, e', rfl, hFront, hBad⟩ :=
      forall_standsFor_or_failsWith env place segments
    · rw [expandFrom_of_standsFor hValues] at h
      cases h
    · rw [expandFrom_of_failsWith hFront hBad] at h
      cases h
      exact ⟨front, bad, back, values, rfl, hFront, hBad⟩
  · rintro ⟨front, bad, back, values, rfl, hFront, hBad⟩
    exact expandFrom_of_failsWith hFront hBad back

/-- Some reference names the variable. -/
def Refers (segments : List Segment) (name : List Char) : Prop :=
  ∃ body, .reference body ∈ segments ∧ HasName body name ∧ IsVariable name

theorem valueOf_congr {env' : Environment} {name : List Char}
    (h : env' (String.ofList name) = env (String.ofList name)) (default : Option (List Char)) :
    valueOf env' name default = valueOf env name default := by
  cases default with
  | none => simp only [valueOf, h]
  | some default => simp only [valueOf, h]

theorem resolve_congr {env' : Environment}
    (h : ∀ name, HasName body name → IsVariable name →
      env' (String.ofList name) = env (String.ofList name)) :
    resolve env' body = resolve env body := by
  obtain ⟨name, default, hSplit⟩ : ∃ name default, splitReference body = (name, default) :=
    ⟨_, _, rfl⟩
  have hName : HasName body name := hasName_iff.mpr (by rw [hSplit])
  obtain hVariable | ⟨e, hBad⟩ := isVariable_or_misnames name
  · rw [resolve_of_isVariable hSplit hVariable, resolve_of_isVariable hSplit hVariable,
      valueOf_congr (h name hName hVariable)]
  · -- a bad name is refused before the environment is asked
    rw [resolve_of_misnames hName hBad, resolve_of_misnames hName hBad]

theorem expandFrom_congr {env' : Environment}
    (h : ∀ name, Refers segments name → env' (String.ofList name) = env (String.ofList name))
    (place : Nat) : expandFrom env' place segments = expandFrom env place segments := by
  induction segments generalizing place with
  | nil => rfl
  | cons segment rest ih =>
    have hRest := ih fun name ⟨body, hBody, hName⟩ =>
      h name ⟨body, List.mem_cons_of_mem _ hBody, hName⟩
    cases segment with
    | plain text => simp only [expandFrom, hRest]
    | unclosed body => rfl
    | reference body =>
      have hHead : resolve env' body = resolve env body :=
        resolve_congr fun name hName hVariable =>
          h name ⟨body, List.mem_cons_self, hName, hVariable⟩
      simp only [expandFrom, hRest, hHead]

end Expansion

open Expansion in
/-- A text is cut in one way. It is expanded if every segment stands for a text, to these texts one
after another. Otherwise the error is the one of the leftmost segment that stands for none, at the
place where this segment begins in the text. Only variables that references name play a part. -/
theorem expand_follows_cut (text : List Char) :
    ∃ segments, Segment.IsCut segments ∧ segments.flatMap Segment.source = text ∧
      (∀ others, Segment.IsCut others → others.flatMap Segment.source = text →
        others = segments) ∧
      ∀ env,
        (∀ out, expand env text = .ok out ↔
          ∃ values, List.Forall₂ (StandsFor env) segments values ∧ out = values.flatten) ∧
        (∀ e, expand env text = .error e ↔
          ∃ front bad back values, segments = front ++ bad :: back ∧
            List.Forall₂ (StandsFor env) front values ∧
            FailsWith env (Utf8.size (front.flatMap Segment.source)) bad e) ∧
        ∀ env', (∀ name, Refers segments name →
            env' (String.ofList name) = env (String.ofList name)) →
          expand env' text = expand env text := by
  refine ⟨Segment.ofText text, Segment.isCut_ofText text, Segment.flatMap_source_ofText text,
    ?_, fun env => ⟨?_, ?_, ?_⟩⟩
  · rintro others hCut rfl
    exact hCut.ofText_flatMap_source.symm
  · intro out
    exact expandFrom_eq_ok_iff
  · intro e
    rw [expand, expandFrom_eq_error_iff]
    simp only [Nat.zero_add]
  · intro env' hEnv
    exact expandFrom_congr hEnv 0

example : expand (fun _ => none) "é$\x7bA:-$\x7bB\x7d $\x7bC".toList =
    .error (.unclosed 12 ['C']) := by
  decide +kernel

end TouchedLines
