import TouchedLines.Config.Basic

/-! # Arguments of the command line

There are two commands: one checks files, one lists the rules. Options come before or after the
files that are listed, each at most once; after `--` there are only files. Help can be asked for in
place of either command, and nothing behind such a request is read.
-/

namespace TouchedLines

/-- What a single argument is by its form. -/
inductive Argument where
  /-- Not an option. A lone hyphen counts as one of these. -/
  | plain (text : String)
  /-- `--name` or `--name=value`. -/
  | long (name : String) (value : Option String)
  /-- Letters after a single hyphen. -/
  | short (letters : List Char)
  /-- `--`. -/
  | endOfOptions
  deriving Repr, DecidableEq

def Argument.ofText (text : String) : Argument :=
  match text.toList with
  | ['-', '-'] => endOfOptions
  | '-' :: '-' :: rest =>
    match Text.splitAtFirst ['='] rest with
    | some (name, value) => long (String.ofList name) (some (String.ofList value))
    | none => long (String.ofList rest) none
  | '-' :: c :: rest => short (c :: rest)
  | _ => plain text

/-- The options of a command that are given so far, and the files that are listed. -/
structure Options where
  verbose : Bool := false
  debug : Bool := false
  staged : Bool := false
  base : Option String := none
  config : Option String := none
  format : Option ReportFormat := none
  files : List String := []
  /-- Whether the last argument that was read asks for help. -/
  help : Bool := false
  deriving Repr, DecidableEq

namespace Options

def takesValue (name : String) : Bool := ["base", "config", "format"].contains name

/-- Gives an option without a value, unless it is given already. -/
def setFlag? (o : Options) (name : String) : Option Options :=
  match name with
  | "verbose" => if o.verbose then none else some { o with verbose := true }
  | "debug" => if o.debug then none else some { o with debug := true }
  | "staged" => if o.staged then none else some { o with staged := true }
  | "help" => some { o with help := true }
  | _ => none

/-- Gives an option its value, unless it has one already. -/
def setValue? (o : Options) (name value : String) : Option Options :=
  match name with
  | "base" => if o.base.isSome then none else some { o with base := some value }
  | "config" =>
    if o.config.isSome || value.isEmpty then none else some { o with config := some value }
  | "format" =>
    if o.format.isSome then none
    else (ReportFormat.ofName? value).map fun f => { o with format := some f }
  | _ => none

def setLetters? (o : Options) : List Char → Option Options
  | [] => some o
  | c :: letters =>
    if c = 'v' then (o.setFlag? "verbose").bind (setLetters? · letters)
    else if c = 'h' then o.setFlag? "help"
    else none

def take? (o : Options) (arguments : List String) : Option Options :=
  if o.help then some o
  else
    match arguments with
    | [] => some o
    | argument :: rest =>
      match Argument.ofText argument with
      | .plain file => take? { o with files := o.files ++ [file] } rest
      | .endOfOptions => some { o with files := o.files ++ rest }
      | .short letters =>
        match o.setLetters? letters with
        | none => none
        | some o => take? o rest
      | .long name (some value) =>
        match o.setValue? name value with
        | none => none
        | some o => take? o rest
      | .long name none =>
        if takesValue name then
          match rest with
          | [] => none
          | value :: rest =>
            match Argument.ofText value with
            | .plain value =>
              match o.setValue? name value with
              | none => none
              | some o => take? o rest
            | _ => none
        else
          match o.setFlag? name with
          | none => none
          | some o => take? o rest

/-- Nothing is read behind a request for help. -/
theorem take?_of_help {o : Options} (h : o.help = true) (arguments : List String) :
    o.take? arguments = some o := by
  cases arguments <;> rw [take?, if_pos h]

end Options

/-- What help is about: all commands or one of them. -/
inductive HelpTopic where
  | commands
  | check
  | rules
  | help
  deriving Repr, DecidableEq

/-- The topic behind the name of the help command. -/
def HelpTopic.ofNames? : List String → Option HelpTopic
  | [] => some commands
  | ["check"] => some check
  | ["rules"] => some rules
  | ["help"] => some help
  | _ => none

structure CheckRequest where
  /-- The files to check; what has changed is asked only if none is listed. -/
  files : List String
  base : Option String
  staged : Bool
  config : Option String
  format : Option ReportFormat
  deriving Repr, DecidableEq

inductive Command where
  | check (request : CheckRequest)
  | rules (format : ReportFormat)
  | help (topic : HelpTopic)
  deriving Repr, DecidableEq

namespace Command

/-- Files cannot be listed together with what else says which lines to check, unless it is help that
is asked for. -/
def ofCheckOptions? (o : Options) : Option Command :=
  if o.help then some (.help .check)
  else if !o.files.isEmpty && (o.base.isSome || o.staged) then none
  else some (.check ⟨o.files, o.base, o.staged, o.config, o.format⟩)

def ofRulesOptions? (o : Options) : Option Command :=
  if o.staged || o.base.isSome || o.config.isSome || !o.files.isEmpty then none
  else if o.help then some (.help .rules)
  else some (.rules (o.format.getD .text))

/-- The command that arguments ask for, after the options in front of its name. -/
def readName? (before : Options) (arguments : List String) : Option Command :=
  if before.help then some (.help .commands)
  else
    match arguments with
    | [] => none
    | argument :: rest =>
      match Argument.ofText argument with
      | .plain "check" => (Options.take? {} rest).bind ofCheckOptions?
      | .plain "rules" => (Options.take? {} rest).bind ofRulesOptions?
      | .plain "help" => (HelpTopic.ofNames? rest).map help
      | .short letters =>
        match before.setLetters? letters with
        | none => none
        | some before => readName? before rest
      | .long name none =>
        if name = "staged" then none
        else
          match before.setFlag? name with
          | none => none
          | some before => readName? before rest
      | _ => none

theorem readName?_of_help {o : Options} (h : o.help = true) (arguments : List String) :
    readName? o arguments = some (.help .commands) := by
  cases arguments <;> rw [readName?, if_pos h]

/-- The command that arguments ask for; none if they are misused. -/
def ofArguments? (arguments : List String) : Option Command := readName? {} arguments

end Command

end TouchedLines
