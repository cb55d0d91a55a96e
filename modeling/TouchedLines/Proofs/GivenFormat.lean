import TouchedLines.CommandLine.Run

/-! # A format that is given on the command line

What a command line asks for does not depend on the format that it gives: it is misused in every
format or in none, it asks for the same help in all of them, and the requests for a check differ in
the format only.
-/

namespace TouchedLines

namespace Argument

/-- What can be the value of an option in front of the argument. -/
def plain? : Argument → Option String
  | plain text => some text
  | _ => none

theorem eq_of_ofText_eq_endOfOptions {text : String} (h : ofText text = endOfOptions) :
    text = "--" := by
  unfold ofText at h
  split at h
  · rename_i hText
    exact String.toList_inj.mp hText
  · split at h <;> cases h
  · cases h
  · cases h

end Argument

namespace Options

def inFormat (o : Options) (f : ReportFormat) : Options := { o with format := some f }

/-- The options that are read differ in the format only, and nothing is misused in one format that
is not in the others. -/
def Uniform (read : ReportFormat → Option Options) : Prop :=
  ∃ result : Option Options, ∀ f, read f = result.map (inFormat · f)

theorem Uniform.bind {read : ReportFormat → Option Options} (hRead : Uniform read)
    {next : Options → Option Options}
    (hNext : ∀ o : Options, Uniform fun f => next (o.inFormat f)) :
    Uniform fun f => (read f).bind next := by
  obtain ⟨result, hResult⟩ := hRead
  cases result with
  | none => exact ⟨none, fun f => congrArg (Option.bind · next) (hResult f)⟩
  | some o =>
    obtain ⟨last, hLast⟩ := hNext o
    exact ⟨last, fun f => (congrArg (Option.bind · next) (hResult f)).trans (hLast f)⟩

theorem uniform_setFlag? (o : Options) (name : String) :
    Uniform fun f => (o.inFormat f).setFlag? name := by
  refine ⟨o.setFlag? name, fun f => ?_⟩
  unfold setFlag? inFormat
  split
  · split <;> rfl
  · split <;> rfl
  · split <;> rfl
  · rfl
  · rfl

theorem uniform_setValue? (o : Options) (name value : String) :
    Uniform fun f => (o.inFormat f).setValue? name value := by
  by_cases hFormat : name = "format"
  · -- the format is given already, so it cannot be given again
    subst hFormat
    exact ⟨none, fun _ => rfl⟩
  · refine ⟨o.setValue? name value, fun f => ?_⟩
    unfold setValue? inFormat
    split
    · split <;> rfl
    · split <;> rfl
    · exact absurd rfl hFormat
    · rfl

theorem uniform_setLetters? (o : Options) (letters : List Char) :
    Uniform fun f => (o.inFormat f).setLetters? letters := by
  induction letters generalizing o with
  | nil => exact ⟨some o, fun _ => rfl⟩
  | cons c letters ih =>
    by_cases hVerbose : c = 'v'
    · simp only [setLetters?, if_pos hVerbose]
      exact (o.uniform_setFlag? "verbose").bind ih
    · by_cases hHelp : c = 'h'
      · simp only [setLetters?, if_neg hVerbose, if_pos hHelp]
        exact o.uniform_setFlag? "help"
      · simp only [setLetters?, if_neg hVerbose, if_neg hHelp]
        exact ⟨none, fun _ => rfl⟩

theorem take?_nil (o : Options) : o.take? [] = some o := by
  rw [take?, ite_self]

section Reading

variable {o : Options} {argument : String}

theorem take?_of_plain {file : String} (hHelp : o.help = false)
    (hArgument : Argument.ofText argument = .plain file) (rest : List String) :
    o.take? (argument :: rest) = take? { o with files := o.files ++ [file] } rest := by
  rw [take?]
  simp only [hHelp, Bool.false_eq_true, if_false, hArgument]

theorem take?_of_endOfOptions (hHelp : o.help = false)
    (hArgument : Argument.ofText argument = .endOfOptions) (rest : List String) :
    o.take? (argument :: rest) = some { o with files := o.files ++ rest } := by
  rw [take?]
  simp only [hHelp, Bool.false_eq_true, if_false, hArgument]

theorem take?_of_short {letters : List Char} (hHelp : o.help = false)
    (hArgument : Argument.ofText argument = .short letters) (rest : List String) :
    o.take? (argument :: rest) = (o.setLetters? letters).bind fun o => o.take? rest := by
  rw [take?]
  simp only [hHelp, Bool.false_eq_true, if_false, hArgument]
  cases o.setLetters? letters <;> rfl

theorem take?_of_value {name value : String} (hHelp : o.help = false)
    (hArgument : Argument.ofText argument = .long name (some value)) (rest : List String) :
    o.take? (argument :: rest) = (o.setValue? name value).bind fun o => o.take? rest := by
  rw [take?]
  simp only [hHelp, Bool.false_eq_true, if_false, hArgument]
  cases o.setValue? name value <;> rfl

theorem take?_of_flag {name : String} (hHelp : o.help = false)
    (hArgument : Argument.ofText argument = .long name none) (hTakes : takesValue name = false)
    (rest : List String) :
    o.take? (argument :: rest) = (o.setFlag? name).bind fun o => o.take? rest := by
  rw [take?]
  simp only [hHelp, hArgument, hTakes, Bool.false_eq_true, if_false]
  cases o.setFlag? name <;> rfl

theorem take?_of_missing {name : String} (hHelp : o.help = false)
    (hArgument : Argument.ofText argument = .long name none) (hTakes : takesValue name = true) :
    o.take? [argument] = none := by
  rw [take?]
  simp only [hHelp, Bool.false_eq_true, if_false, hArgument, hTakes, if_true]

theorem take?_of_next {name : String} (hHelp : o.help = false)
    (hArgument : Argument.ofText argument = .long name none) (hTakes : takesValue name = true)
    (word : String) (rest : List String) :
    o.take? (argument :: word :: rest) = (Argument.ofText word).plain?.bind fun value =>
      (o.setValue? name value).bind fun o => o.take? rest := by
  rw [take?]
  simp only [hHelp, Bool.false_eq_true, if_false, hArgument, hTakes, if_true]
  cases Argument.ofText word with
  | plain value =>
    change _ = (o.setValue? name value).bind fun o => o.take? rest
    dsimp only
    cases o.setValue? name value <;> rfl
  | long => rfl
  | short => rfl
  | endOfOptions => rfl

end Reading

/-- An argument that is not `--` is read on its own, or it is an option whose value is the plain
argument behind it. -/
theorem take?_cons_cases (argument : String) :
    (∃ next : Options → Option Options,
      (∀ o : Options, Uniform fun f => next (o.inFormat f)) ∧
        ∀ o rest, o.help = false →
          take? o (argument :: rest) = (next o).bind fun o => o.take? rest) ∨
    (argument = "--" ∧ ∀ o rest, o.help = false →
      take? o (argument :: rest) = some { o with files := o.files ++ rest }) ∨
    ∃ name, (∀ o, o.help = false → take? o [argument] = none) ∧
      ∀ o word rest, o.help = false → take? o (argument :: word :: rest) =
        (Argument.ofText word).plain?.bind fun value =>
          (o.setValue? name value).bind fun o => o.take? rest := by
  cases hArgument : Argument.ofText argument with
  | plain file =>
    refine .inl ⟨fun o => some { o with files := o.files ++ [file] }, fun o => ?_,
      fun _ rest hHelp => take?_of_plain hHelp hArgument rest⟩
    exact ⟨some { o with files := o.files ++ [file] }, fun _ => rfl⟩
  | endOfOptions =>
    exact .inr (.inl ⟨Argument.eq_of_ofText_eq_endOfOptions hArgument,
      fun _ rest hHelp => take?_of_endOfOptions hHelp hArgument rest⟩)
  | short letters =>
    exact .inl ⟨(setLetters? · letters), (uniform_setLetters? · letters),
      fun _ rest hHelp => take?_of_short hHelp hArgument rest⟩
  | long name value =>
    cases value with
    | some value =>
      exact .inl ⟨(setValue? · name value), (uniform_setValue? · name value),
        fun _ rest hHelp => take?_of_value hHelp hArgument rest⟩
    | none =>
      cases hTakes : takesValue name with
      | false =>
        exact .inl ⟨(setFlag? · name), (uniform_setFlag? · name),
          fun _ rest hHelp => take?_of_flag hHelp hArgument hTakes rest⟩
      | true =>
        exact .inr (.inr ⟨name, fun _ hHelp => take?_of_missing hHelp hArgument hTakes,
          fun _ word rest hHelp => take?_of_next hHelp hArgument hTakes word rest⟩)

theorem uniform_take? (arguments : List String) (o : Options) :
    Uniform fun f => (o.inFormat f).take? arguments := by
  induction hLength : arguments.length using Nat.strongRecOn generalizing arguments o with
  | ind length ih =>
    cases hHelp : o.help with
    | true =>
      have hAsked : ∀ f, (o.inFormat f).help = true := fun _ => hHelp
      exact ⟨some o, fun f => take?_of_help (hAsked f) arguments⟩
    | false =>
      have hReads : ∀ f, (o.inFormat f).help = false := fun _ => hHelp
      cases arguments with
      | nil => exact ⟨some o, fun f => take?_nil (o.inFormat f)⟩
      | cons argument rest =>
        subst hLength
        obtain ⟨next, hNext, h⟩ | ⟨-, h⟩ | ⟨name, hAlone, h⟩ := take?_cons_cases argument
        · simp only [h _ _ (hReads _)]
          exact (hNext o).bind fun o => ih rest.length (Nat.lt_succ_self _) rest o rfl
        · simp only [h _ _ (hReads _)]
          exact ⟨some { o with files := o.files ++ rest }, fun _ => rfl⟩
        · cases rest with
          | nil =>
            simp only [hAlone _ (hReads _)]
            exact ⟨none, fun _ => rfl⟩
          | cons word rest =>
            simp only [h _ _ _ (hReads _)]
            cases (Argument.ofText word).plain? with
            | none => exact ⟨none, fun _ => rfl⟩
            | some value =>
              exact (o.uniform_setValue? name value).bind fun o =>
                ih rest.length (Nat.lt_succ_of_lt (Nat.lt_succ_self _)) rest o rfl

theorem take?_format {o : Options} (hHelp : o.help = false) (f : ReportFormat)
    (rest : List String) :
    o.take? ("--format" :: f.name :: rest) =
      (o.setValue? "format" f.name).bind fun o => o.take? rest := by
  have hOption : Argument.ofText "--format" = .long "format" none := by decide
  have hName : Argument.ofText f.name = .plain f.name := by cases f <;> decide
  rw [take?_of_next hHelp hOption (by decide), hName]
  rfl

theorem setValue?_format (o : Options) (f : ReportFormat) :
    o.setValue? "format" f.name = if o.format.isSome then none else some (o.inFormat f) := by
  have hName : ReportFormat.ofName? f.name = some f := by cases f <;> decide
  simp only [setValue?, hName]
  rfl

theorem uniform_take?_format {o : Options} (hHelp : o.help = false) (rest : List String) :
    Uniform fun f : ReportFormat => o.take? ("--format" :: f.name :: rest) := by
  simp only [take?_format hHelp, setValue?_format]
  cases o.format with
  | some given => exact ⟨none, fun _ => rfl⟩
  | none => exact o.uniform_take? rest

/-- If help is asked for in front of the format, the format is not read. -/
theorem take?_append_cases (rest : List String) {middle : List String} (hMiddle : "--" ∉ middle)
    (o : Options) :
    (∃ asked : Options, asked.help = true ∧
      ∀ f : ReportFormat, o.take? (middle ++ "--format" :: f.name :: rest) = some asked) ∨
    Uniform fun f : ReportFormat => o.take? (middle ++ "--format" :: f.name :: rest) := by
  induction hLength : middle.length using Nat.strongRecOn generalizing middle o with
  | ind length ih =>
    cases hHelp : o.help with
    | true => exact .inl ⟨o, hHelp, fun _ => take?_of_help hHelp _⟩
    | false =>
      cases middle with
      | nil => exact .inr (uniform_take?_format hHelp rest)
      | cons argument middle =>
        subst hLength
        obtain ⟨hArgument, hMiddle⟩ := not_or.mp (mt List.mem_cons.mpr hMiddle)
        have hNone : Uniform fun _ => none := ⟨none, fun _ => rfl⟩
        obtain ⟨next, -, h⟩ | ⟨hEnd, -⟩ | ⟨name, -, h⟩ := take?_cons_cases argument
        · simp only [List.cons_append, h _ _ hHelp]
          cases next o with
          | none => exact .inr hNone
          | some o => exact ih middle.length (Nat.lt_succ_self _) hMiddle o rfl
        · exact absurd hEnd.symm hArgument
        · cases middle with
          | nil =>
            -- the name of the format option cannot be the value of the option in front of it
            have hPlain : (Argument.ofText "--format").plain? = none := by decide
            simp only [List.cons_append, List.nil_append, h _ _ _ hHelp, hPlain]
            exact .inr hNone
          | cons word middle =>
            simp only [List.cons_append, h _ _ _ hHelp]
            cases (Argument.ofText word).plain? with
            | none => exact .inr hNone
            | some value =>
              simp only [Option.bind_some]
              cases o.setValue? name value with
              | none => exact .inr hNone
              | some o =>
                exact ih middle.length (Nat.lt_succ_of_lt (Nat.lt_succ_self _))
                  (fun hEnd => hMiddle (List.mem_cons_of_mem word hEnd)) o rfl

end Options

def CheckRequest.inFormat (r : CheckRequest) (f : ReportFormat) : CheckRequest :=
  { r with format := some f }

namespace Command

/-- The arguments of a check that gives the format, with options before the name of the command and
other arguments around the format. -/
def checkIn (f : ReportFormat) (before middle rest : List String) : List String :=
  before ++ "check" :: (middle ++ "--format" :: f.name :: rest)

/-- Misused in every format, a request for the same help in every format, or requests for a check
that differ in the format only. -/
def Uniform (read : ReportFormat → Option Command) : Prop :=
  (∀ f, read f = none) ∨ (∃ topic, ∀ f, read f = some (.help topic)) ∨
    ∃ r : CheckRequest, ∀ f, read f = some (.check (r.inFormat f))

theorem uniform_ofCheckOptions? (o : Options) :
    Uniform fun f => ofCheckOptions? (o.inFormat f) := by
  by_cases hHelp : o.help = true
  · exact .inr (.inl ⟨.check, fun _ => if_pos hHelp⟩)
  by_cases hMisused : (!o.files.isEmpty && (o.base.isSome || o.staged)) = true
  · exact .inl fun _ => (if_neg hHelp).trans (if_pos hMisused)
  · exact .inr (.inr ⟨⟨o.files, o.base, o.staged, o.config, none⟩,
      fun _ => (if_neg hHelp).trans (if_neg hMisused)⟩)

theorem readName?_option {argument : String}
    (h : ∀ text, Argument.ofText argument ≠ .plain text) {o : Options} (hHelp : o.help = false) :
    ∃ next : Option Options, ∀ rest,
      readName? o (argument :: rest) = next.bind fun o => readName? o rest := by
  cases hArgument : Argument.ofText argument with
  | plain text => exact absurd hArgument (h text)
  | endOfOptions =>
    refine ⟨none, fun rest => ?_⟩
    rw [readName?]
    simp only [hHelp, Bool.false_eq_true, if_false, hArgument]
    rfl
  | short letters =>
    refine ⟨o.setLetters? letters, fun rest => ?_⟩
    rw [readName?]
    simp only [hHelp, Bool.false_eq_true, if_false, hArgument]
    cases o.setLetters? letters <;> rfl
  | long name value =>
    cases value with
    | some =>
      refine ⟨none, fun rest => ?_⟩
      rw [readName?]
      simp only [hHelp, Bool.false_eq_true, if_false, hArgument]
      rfl
    | none =>
      refine ⟨if name = "staged" then none else o.setFlag? name, fun rest => ?_⟩
      rw [readName?]
      simp only [hHelp, Bool.false_eq_true, if_false, hArgument]
      split
      · rfl
      · cases o.setFlag? name <;> rfl

theorem uniform_readName?_checkIn (rest : List String) {before middle : List String}
    (hBefore : ∀ argument ∈ before, ∀ text, Argument.ofText argument ≠ .plain text)
    (hMiddle : "--" ∉ middle) (o : Options) :
    Uniform fun f => readName? o (checkIn f before middle rest) := by
  cases hHelp : o.help with
  | true => exact .inr (.inl ⟨.commands, fun _ => readName?_of_help hHelp _⟩)
  | false =>
    induction before generalizing o with
    | nil =>
      have hCheck : Argument.ofText "check" = .plain "check" := by decide
      have hRead : ∀ f : ReportFormat, readName? o (checkIn f [] middle rest) =
          (Options.take? {} (middle ++ "--format" :: f.name :: rest)).bind ofCheckOptions? := by
        intro f
        rw [checkIn, List.nil_append, readName?]
        simp only [hHelp, Bool.false_eq_true, if_false, hCheck]
      simp only [hRead]
      obtain ⟨asked, hAsked, hTake⟩ | ⟨result, hResult⟩ :=
        Options.take?_append_cases rest hMiddle {}
      · simp only [hTake]
        exact .inr (.inl ⟨.check, fun _ => if_pos hAsked⟩)
      · simp only [hResult]
        cases result with
        | none => exact .inl fun _ => rfl
        | some o => exact uniform_ofCheckOptions? o
    | cons argument before ih =>
      obtain ⟨next, hNext⟩ := readName?_option (hBefore argument List.mem_cons_self) hHelp
      have hRead : ∀ f, readName? o (checkIn f (argument :: before) middle rest) =
          next.bind fun o => readName? o (checkIn f before middle rest) :=
        fun _ => hNext _
      simp only [hRead]
      cases next with
      | none => exact .inl fun _ => rfl
      | some o =>
        cases hAsked : o.help with
        | true => exact .inr (.inl ⟨.commands, fun _ => readName?_of_help hAsked _⟩)
        | false => exact ih (fun a ha => hBefore a (List.mem_cons_of_mem _ ha)) o hAsked

/-- A check is misused in every format, or the same is asked for in all of them. -/
theorem ofArguments?_checkIn (rest : List String) {before middle : List String}
    (hBefore : ∀ argument ∈ before, ∀ text, Argument.ofText argument ≠ .plain text)
    (hMiddle : "--" ∉ middle) :
    (∀ f, ofArguments? (checkIn f before middle rest) = none) ∨
      (∃ topic, ∀ f, ofArguments? (checkIn f before middle rest) = some (.help topic)) ∨
      ∃ r : CheckRequest, ∀ f,
        ofArguments? (checkIn f before middle rest) = some (.check (r.inFormat f)) :=
  uniform_readName?_checkIn rest hBefore hMiddle {}

example : ofArguments? (checkIn .json [] ["a.js", "--base", "dev", "-vh"] ["--base"]) =
    some (.help .check) := by
  decide +kernel

end Command

end TouchedLines
