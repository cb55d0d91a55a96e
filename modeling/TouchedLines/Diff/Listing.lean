import TouchedLines.Text.Decimal
import TouchedLines.Text.Lines

/-! # Listings of changed files

One line for each changed file: a code, a tab and a path, or for a rename the code with its
similarity, the old path and the new path.
-/

namespace TouchedLines

open Text

inductive StatusCode where
  | added
  | modified
  | renamed
  /-- Every other code, such as a deletion, and a rename that lacks a path. -/
  | other (code : String)
  deriving Repr, DecidableEq

structure StatusEntry where
  code : StatusCode
  path : String
  source : Option String
  deriving Repr, DecidableEq

namespace StatusEntry

def codeOf (code : List Char) : StatusCode :=
  if code = ['A'] then .added
  else if code = ['M'] then .modified
  else if code = ['R'] then .renamed
  else .other (String.ofList code)

def ofFields? : List (List Char) → Option StatusEntry
  | ['R' :: _, source, path] => some ⟨.renamed, String.ofList path, some (String.ofList source)⟩
  | code :: path :: _ =>
    if path.isEmpty then none else some ⟨codeOf code, String.ofList path, none⟩
  | _ => none

/-- The entry of a line; a blank line and a line without a path have none. -/
def ofLine? (line : Line) : Option StatusEntry :=
  if (trim line).isEmpty then none else ofFields? (splitOn '\t' (trim line))

/-- The entries of a listing, without the lines that have none. -/
def ofListing (text : String) : List StatusEntry :=
  (splitReturnLines text.toList).filterMap ofLine?

end StatusEntry

inductive ListedChange where
  | added (path : String)
  | modified (path : String)
  | deleted (path : String)
  | renamed (source path : String) (similarity : UInt8)
  deriving Repr, DecidableEq

namespace ListedChange

/-- A numeral with zeros in front up to three digits. -/
def threeDigits (n : Nat) : List Char :=
  let numeral := Decimal.digits n
  List.replicate (3 - numeral.length) '0' ++ numeral

def line : ListedChange → Line
  | added path => 'A' :: '\t' :: path.toList
  | modified path => 'M' :: '\t' :: path.toList
  | deleted path => 'D' :: '\t' :: path.toList
  | renamed source path similarity =>
    'R' :: threeDigits similarity.toNat ++ '\t' :: source.toList ++ '\t' :: path.toList

def render (changes : List ListedChange) : String :=
  String.ofList (terminateLines (changes.map line))

end ListedChange

end TouchedLines
