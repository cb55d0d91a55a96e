/-! # JSON values

A value keeps the members of an object in the order in which they are written, repeated keys
included: what a repeated key means is for the reader of the object to say.
-/

namespace TouchedLines

inductive Json.Atom where
  | null
  | bool (b : Bool)
  /-- A number written with digits only. -/
  | natural (n : Nat)
  /-- Every other number, as it is written. -/
  | number (literal : String)
  /-- No text where the escapes of a string name half of a surrogate pair alone. -/
  | string (text : Option String)
  deriving Repr, DecidableEq

inductive Json where
  | atom (a : Json.Atom)
  | array (items : List Json)
  | object (members : List (Option String × Json))
  deriving Repr

namespace Json

abbrev Member := Option String × Json

def null : Json := atom .null

def bool (b : Bool) : Json := atom (.bool b)

def natural (n : Nat) : Json := atom (.natural n)

def text (s : String) : Json := atom (.string (some s))

/-- An object whose keys are all texts. -/
def record (members : List (String × Json)) : Json :=
  object (members.map fun (key, value) => (some key, value))

end Json

end TouchedLines
