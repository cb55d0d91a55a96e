import TouchedLines.Toml.Basic

/-! # Tables in the making

A key may be written only once. What may still be added to a table depends on how it came about: a
table with a header of its own is complete once the next header comes, a table that only the
headers below it name may get a header later, and a table that dotted keys made takes dotted keys
only.
-/

namespace TouchedLines.Toml

inductive TableOrigin where
  | header
  /-- From a header of a table inside it. -/
  | implied
  /-- From a key with dots. -/
  | dotted
  deriving Repr, DecidableEq

/-- What stands under a key of a document that is still being read. -/
inductive Node where
  | value (v : Toml)
  | table (origin : TableOrigin) (entries : List (String × Node))
  /-- Tables under one header in double brackets, the last one first. -/
  | tables (items : List (List (String × Node)))

abbrev Entries := List (String × Node)

namespace Entries

def set (entries : Entries) (key : String) (node : Node) : Entries :=
  entries.map fun (k, n) => if k = key then (k, node) else (k, n)

def remove (entries : Entries) (key : String) : Entries := entries.filter fun e => e.1 != key

/-- Adds a key that is not there yet. -/
def add? (entries : Entries) (key : String) (node : Node) : Option Entries :=
  if (entries.lookup key).isSome then none else some (entries ++ [(key, node)])

/-- Adds a value under a key with the tables that dots in front of it name. A table in front of the
last dot has to be one that dotted keys made. -/
def addDotted? (entries : Entries) : List String → String → Toml → Option Entries
  | [], key, v => entries.add? key (.value v)
  | name :: path, key, v =>
    match entries.lookup name with
    | none =>
      (addDotted? [] path key v).map fun inner => entries ++ [(name, .table .dotted inner)]
    | some (.table origin inner) =>
      if origin = .header ∨ (path.isEmpty ∧ origin ≠ .dotted) then none
      else
        (addDotted? inner path key v).map fun inner => entries.set name (.table origin inner)
    | some (.tables (last :: earlier)) =>
      if path.isEmpty then none
      else
        (addDotted? last path key v).map fun last => entries.set name (.tables (last :: earlier))
    | some _ => none

/-- Changes the table that the names of a header lead to. Of several tables under one name the last
is meant; one that is not there yet is implied. -/
def update? (change : Entries → Option Entries) : List String → Entries → Option Entries
  | [], entries => change entries
  | name :: path, entries =>
    match entries.lookup name with
    | none =>
      (update? change path []).map fun inner => entries ++ [(name, .table .implied inner)]
    | some (.table origin inner) =>
      (update? change path inner).map fun inner => entries.set name (.table origin inner)
    | some (.tables (last :: earlier)) =>
      (update? change path last).map fun last => entries.set name (.tables (last :: earlier))
    | some _ => none

/-- The table that the names of a header lead to; an empty one if it is not there yet. -/
def find (entries : Entries) : List String → Entries
  | [] => entries
  | name :: path =>
    match entries.lookup name with
    | some (.table _ inner) => find inner path
    | some (.tables (last :: _)) => find last path
    | _ => []

end Entries

mutual

def Node.toToml : Node → Toml
  | .value v => v
  | .table _ entries => .table (Entries.toToml entries)
  | .tables items => .array (Entries.tablesToToml items).reverse

def Entries.toToml : List (String × Node) → List (String × Toml)
  | [] => []
  | (key, node) :: entries => (key, node.toToml) :: Entries.toToml entries

def Entries.tablesToToml : List (List (String × Node)) → List Toml
  | [] => []
  | entries :: items => .table (Entries.toToml entries) :: Entries.tablesToToml items

end

structure Draft where
  /-- All tables but the one being filled. -/
  root : Entries
  /-- The table being filled. -/
  current : Entries
  /-- The names of the header of that table; none above the first header. -/
  path : List String
  /-- The header stands in double brackets. -/
  inArray : Bool

namespace Draft

def empty : Draft := ⟨[], [], [], false⟩

/-- Puts the table being filled in its place. -/
def close? (d : Draft) : Option Entries :=
  match d.path.getLast? with
  | none => some d.current
  | some name =>
    d.root.update? (fun entries =>
      match d.inArray, entries.lookup name with
      | false, _ => entries.add? name (.table .header d.current)
      | true, none => entries.add? name (.tables [d.current])
      | true, some (.tables items) => some (entries.set name (.tables (d.current :: items)))
      | true, some _ => none) d.path.dropLast

/-- Starts a table. A table may be there already only if it was implied. -/
def openTable? (d : Draft) (path : List String) : Option Draft := do
  let root ← d.close?
  let name ← path.getLast?
  let remaining ← root.update? (fun entries =>
    match entries.lookup name with
    | none => some entries
    | some (.table .implied _) => some (entries.remove name)
    | some _ => none) path.dropLast
  return ⟨remaining, root.find path, path, false⟩

/-- Starts one more table under a name. -/
def openItem? (d : Draft) (path : List String) : Option Draft := do
  let root ← d.close?
  let name ← path.getLast?
  let root ← root.update? (fun entries =>
    match entries.lookup name with
    | none => some entries
    | some (.tables _) => some entries
    | some _ => none) path.dropLast
  return ⟨root, [], path, true⟩

def add? (d : Draft) (path : List String) (key : String) (v : Toml) : Option Draft := do
  return { d with current := ← d.current.addDotted? path key v }

end Draft

end TouchedLines.Toml
