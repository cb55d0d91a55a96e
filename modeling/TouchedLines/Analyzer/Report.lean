import TouchedLines.Json.Document
import TouchedLines.Json.Record
import TouchedLines.Offense

/-! # Reports of an analyzer

A report is a JSON document that lists files and the offenses of each. Only the first file counts,
but the whole document has to be a report.
-/

namespace TouchedLines

open Text

/-- Why a text is no report. Places are a line and a column, both in the text up to the fault. -/
inductive ReportFault where
  | missing (line column : Nat)
  /-- The first character starts no value. -/
  | noValue (line column : Nat)
  /-- A value starts in the text, but it is none or no report. -/
  | malformed (text : List Char)
  deriving Repr, DecidableEq

namespace ReportFault

def place (line column : Nat) : String :=
  " at line " ++ String.ofList (Decimal.digits line) ++
    " column " ++ String.ofList (Decimal.digits column)

/-- What is said of the fault; of a malformed text a reader of documents tells in its own words. -/
def message (tell : List Char → String) : ReportFault → String
  | missing line column => "EOF while parsing a value" ++ place line column
  | noValue line column => "expected value" ++ place line column
  | malformed text => tell text

def startsValue (c : Char) : Bool := isAsciiDigit c || "-\"[\x7bntf".toList.contains c

/-- The line on which the blanks end, and how many of them stand on it. -/
def placeAfter (blanks : List Char) : Nat × Nat :=
  (blanks.count '\n' + 1, (blanks.reverse.takeWhile (· != '\n')).length)

def ofText (text : List Char) : ReportFault :=
  let (line, column) := placeAfter (text.takeWhile Json.isSpace)
  match text.dropWhile Json.isSpace with
  | [] => missing line column
  | c :: _ => if startsValue c then malformed text else noValue line (column + 1)

end ReportFault

namespace Report

open Json

def location? (v : Json) : Option Location :=
  match v.fields? ["line", "column", "length"] with
  | some [some line, some column, length] => do
    return ⟨← line.word?, ← column.word?, ← (length.getD (natural 0)).word?⟩
  | _ => none

/-- The rule of a reported offense is known by its cop; the line is not reported. -/
def offense? (v : Json) : Option Offense :=
  match v.fields? ["severity", "cop_name", "message", "location"] with
  | some [some severity, some cop, some message, some location] => do
    let severity ← severity.text?
    let cop ← cop.text?
    let message ← message.text?
    let location ← location? location
    return {
      rule := cop
      message := message
      severity := .ofReported severity
      cop := cop
      lineContent := ""
      location := location }
  | _ => none

def file? (v : Json) : Option (List Offense) :=
  match v.fields? ["offenses"] with
  | some [offenses] => (offenses.getD (array [])).list? offense?
  | _ => none

def files? (v : Json) : Option (List (List Offense)) :=
  match v.fields? ["files"] with
  | some [files] => (files.getD (array [])).list? file?
  | _ => none

/-- The offenses that a report gives, those of its first file. -/
def read (text : List Char) : Except ReportFault (List Offense) :=
  match (Json.ofText? text).bind files? with
  | some files => .ok (files.headD [])
  | none => .error (.ofText text)

end Report

end TouchedLines
