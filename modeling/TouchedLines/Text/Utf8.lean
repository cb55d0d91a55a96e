/-! # UTF-8

Bytes are read one at a time. What is no character is a *maximal malformed part*: the longest run of
bytes that starts like a character and cannot be continued to one. Lenient reading puts one
replacement character in its place, strict reading refuses it.
-/

namespace TouchedLines.Text.Utf8

/-- How far the reading of one character has come. -/
inductive Progress where
  /-- Between characters. -/
  | idle
  /-- `owed` bytes are missing, the next of them from `low` to `high`; the bits read are `code`. -/
  | within (owed : Nat) (low high : UInt8) (code : Nat)
  deriving Repr, DecidableEq

/-- What is known after a byte: the characters completed, `none` for a malformed part. -/
structure Step where
  found : List (Option Char)
  progress : Progress

def between (low high b : UInt8) : Bool := decide (low ≤ b) && decide (b ≤ high)

def firstByte (b : UInt8) : Step :=
  let n := b.toNat
  if n < 0x80 then ⟨[some (Char.ofNat n)], .idle⟩
  else if between 0xC2 0xDF b then ⟨[], .within 1 0x80 0xBF (n - 0xC0)⟩
  else if b == 0xE0 then ⟨[], .within 2 0xA0 0xBF (n - 0xE0)⟩
  else if b == 0xED then ⟨[], .within 2 0x80 0x9F (n - 0xE0)⟩
  else if between 0xE1 0xEF b then ⟨[], .within 2 0x80 0xBF (n - 0xE0)⟩
  else if b == 0xF0 then ⟨[], .within 3 0x90 0xBF (n - 0xF0)⟩
  else if between 0xF1 0xF3 b then ⟨[], .within 3 0x80 0xBF (n - 0xF0)⟩
  else if b == 0xF4 then ⟨[], .within 3 0x80 0x8F (n - 0xF0)⟩
  else ⟨[none], .idle⟩

def step : Progress → UInt8 → Step
  | .idle, b => firstByte b
  | .within owed low high code, b =>
    if between low high b then
      let longer := 64 * code + (b.toNat - 0x80)
      if owed ≤ 1 then ⟨[some (Char.ofNat longer)], .idle⟩
      else ⟨[], .within (owed - 1) 0x80 0xBF longer⟩
    else
      let again := firstByte b
      ⟨none :: again.found, again.progress⟩

def scanFrom : Progress → List UInt8 → List (Option Char)
  | .idle, [] => []
  | .within .., [] => [none]
  | p, b :: bs => (step p b).found ++ scanFrom (step p b).progress bs

/-- The characters of a byte string, `none` for each maximal malformed part. -/
def scan (bytes : List UInt8) : List (Option Char) := scanFrom .idle bytes

/-- Lenient reading: U+FFFD for each malformed part. -/
def decodeLossy (bytes : List UInt8) : List Char := (scan bytes).map (·.getD '\ufffd')

/-- Strict reading: only well-formed bytes have a text. -/
def decode? (bytes : List UInt8) : Option (List Char) :=
  if (scan bytes).all Option.isSome then some ((scan bytes).filterMap id) else none

def encode (text : List Char) : List UInt8 := text.flatMap String.utf8EncodeChar

def size (text : List Char) : Nat := (encode text).length

@[simp] theorem size_nil : size [] = 0 := rfl

@[simp] theorem size_append (text text' : List Char) :
    size (text ++ text') = size text + size text' := by
  rw [size, encode, List.flatMap_append, List.length_append]
  rfl

end TouchedLines.Text.Utf8
