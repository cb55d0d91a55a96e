import TouchedLines.Text.Decimal
import TouchedLines.Text.Lines

/-! # Zero-context patches to be written

A patch as a value, its text, and the bounds within which sample patches are kept.
-/

namespace TouchedLines

open Text

inductive PatchLine where
  | added (text : String)
  | removed (text : String)
  deriving Repr, DecidableEq

structure PatchHunk where
  oldStart : UInt32
  oldCount : UInt32
  newStart : UInt32
  newCount : UInt32
  /-- Leaves the count of the new side out. -/
  abbreviated : Bool
  body : List PatchLine
  deriving Repr, DecidableEq

structure PatchFile where
  path : String
  oldPath : Option String
  hunks : List PatchHunk
  deriving Repr, DecidableEq

structure Patch where
  files : List PatchFile
  deriving Repr, DecidableEq

def PatchLine.line : PatchLine → Line
  | added text => '+' :: text.toList
  | removed text => '-' :: text.toList

namespace PatchHunk

def newSide (h : PatchHunk) : List Char :=
  '+' :: Decimal.digits h.newStart.toNat ++
    if h.abbreviated then [] else ',' :: Decimal.digits h.newCount.toNat

def header (h : PatchHunk) : Line :=
  "@@ -".toList ++ Decimal.digits h.oldStart.toNat ++ ',' :: Decimal.digits h.oldCount.toNat ++
    ' ' :: h.newSide ++ " @@".toList

def lines (h : PatchHunk) : List Line := h.header :: h.body.map PatchLine.line

end PatchHunk

namespace PatchFile

def sourcePath (f : PatchFile) : String := f.oldPath.getD f.path

def renameLines (f : PatchFile) : List Line :=
  ["similarity index 100%".toList, "rename from ".toList ++ f.sourcePath.toList,
    "rename to ".toList ++ f.path.toList]

def contentLines (f : PatchFile) : List Line :=
  ["index 1111111..2222222 100644".toList, "--- a/".toList ++ f.sourcePath.toList,
    "+++ b/".toList ++ f.path.toList] ++ f.hunks.flatMap PatchHunk.lines

/-- A rename without hunks has no content part. -/
def lines (f : PatchFile) : List Line :=
  ("diff --git a/".toList ++ f.sourcePath.toList ++ " b/".toList ++ f.path.toList) ::
    match f.oldPath with
    | none => f.contentLines
    | some _ => f.renameLines ++ if f.hunks.isEmpty then [] else f.contentLines

end PatchFile

def Patch.render (p : Patch) : String :=
  String.ofList (terminateLines (p.files.flatMap PatchFile.lines))

inductive PatchBound where
  | files
  | hunks
  | lines
  deriving Repr, DecidableEq

namespace PatchBound

def limit : PatchBound → Nat
  | files => 5
  | hunks => 5
  | lines => 20

def message (b : PatchBound) : String :=
  let count := String.ofList (Decimal.digits b.limit)
  match b with
  | files => "Cannot add more than " ++ count ++ " files to a diff"
  | hunks => "Cannot add more than " ++ count ++ " hunks to a file"
  | lines => "Cannot add more than " ++ count ++ " lines to a hunk"

/-- Refuses one more when there are already `present`. -/
def check (b : PatchBound) (present : Nat) : Except PatchBound Unit :=
  if present < b.limit then .ok () else .error b

end PatchBound

namespace PatchFile

/-- The hunks are added one by one, each after its lines. -/
def checkHunks : Nat → List PatchHunk → Except PatchBound Unit
  | _, [] => .ok ()
  | present, h :: rest => do
    if h.body.length > PatchBound.lines.limit then .error .lines
    PatchBound.hunks.check present
    checkHunks (present + 1) rest

def check (f : PatchFile) : Except PatchBound Unit := checkHunks 0 f.hunks

end PatchFile

namespace Patch

def checkFiles (fileFirst : Bool) : Nat → List PatchFile → Except PatchBound Unit
  | _, [] => .ok ()
  | present, f :: rest => do
    if fileFirst then PatchBound.files.check present
    f.check
    PatchBound.files.check present
    checkFiles fileFirst (present + 1) rest

/-- The bound that a patch exceeds first. Files are added one by one, each after its hunks, or
before them if `fileFirst`. -/
def check (fileFirst : Bool) (p : Patch) : Except PatchBound Unit := checkFiles fileFirst 0 p.files

end Patch

end TouchedLines
