import TouchedLines.Json.Token
import TouchedLines.Toml.Basic

/-! # Truth values, numbers and dates

A value without quotes or brackets is a run of characters that no value is directly followed by, so
the whole run has to be one value. Only a date and a time with a blank between them make two runs.
-/

namespace TouchedLines.Toml

open Text

def isBareCharacter (c : Char) : Bool :=
  isAsciiWord c || c == '+' || c == '-' || c == '.' || c == ':'

def splitSign : List Char → List Char × List Char
  | '+' :: rest => (['+'], rest)
  | '-' :: rest => (['-'], rest)
  | rest => ([], rest)

/-- The digits of a numeral, without the underscores that stand between two of them. -/
def joinDigits? (isDigit : Char → Bool) (numeral : List Char) : Option (List Char) :=
  let groups := splitOn '_' numeral
  if groups.all fun group => !group.isEmpty && group.all isDigit then some groups.flatten else none

/-- The digits of a numeral without a zero in front of others. -/
def wholeDigits? (numeral : List Char) : Option (List Char) :=
  if numeral.head? = some '0' ∧ numeral.length ≠ 1 then none else joinDigits? isAsciiDigit numeral

/-- The least number beyond the positive integers, 2 to the 63rd. -/
def integerBound : Nat := 9223372036854775808

def valueInBase (base : Nat) (digits : List Char) : Nat :=
  digits.foldl (fun n c => base * n + (Json.hexValue? c).getD 0) 0

/-- An integer in another base, after its mark. -/
def isBasedInteger (base : Nat) (numeral : List Char) : Bool :=
  let isDigit (c : Char) := (Json.hexValue? c).any fun v => decide (v < base)
  (joinDigits? isDigit numeral).any fun digits => decide (valueInBase base digits < integerBound)

def isInteger : List Char → Bool
  | '0' :: 'x' :: numeral => isBasedInteger 16 numeral
  | '0' :: 'o' :: numeral => isBasedInteger 8 numeral
  | '0' :: 'b' :: numeral => isBasedInteger 2 numeral
  | text =>
    let (sign, numeral) := splitSign text
    (wholeDigits? numeral).any fun digits =>
      let n := Decimal.value digits
      if sign = ['-'] then decide (n ≤ integerBound) else decide (n < integerBound)

/-- The least number that is rounded up to infinity: half a unit above the largest finite one. -/
def floatBound : Nat := (Nat.pow 2 54 - 1) * Nat.pow 2 970

/-- Whether `mantissa * 10 ^ exponent` is too large for a float. Numbers of clearly more or fewer
digits than the bound are not written out. -/
def overflows (mantissa : Nat) (exponent : Int) : Bool :=
  let magnitude := exponent + (Decimal.digits mantissa).length
  if mantissa = 0 ∨ magnitude < 300 then false
  else if magnitude > 320 then true
  else if exponent < 0 then decide (floatBound * Nat.pow 10 exponent.natAbs ≤ mantissa)
  else decide (floatBound ≤ mantissa * Nat.pow 10 exponent.natAbs)

def isExponentMark (c : Char) : Bool := c == 'e' || c == 'E'

/-- The digits of a fraction; no digits where there is none. -/
def fractionDigits? : List Char → Option (List Char)
  | [] => some []
  | '.' :: numeral => joinDigits? isAsciiDigit numeral
  | _ => none

/-- The value of an exponent, 0 where there is none. -/
def exponentValue? : List Char → Option Int
  | [] => some 0
  | _ :: text =>
    let (sign, numeral) := splitSign text
    (joinDigits? isAsciiDigit numeral).map fun digits =>
      if sign = ['-'] then -(Decimal.value digits : Int) else (Decimal.value digits : Int)

/-- A number with a fraction or an exponent. A positive one must not be too large for a float. -/
def isDecimalFloat (text : List Char) : Bool :=
  let (sign, unsigned) := splitSign text
  let base := unsigned.takeWhile (!isExponentMark ·)
  let exponent := unsigned.dropWhile (!isExponentMark ·)
  let whole := base.takeWhile (· != '.')
  let fraction := base.dropWhile (· != '.')
  match wholeDigits? whole, fractionDigits? fraction, exponentValue? exponent with
  | some whole, some digits, some e =>
    !(fraction.isEmpty && exponent.isEmpty) &&
      (sign == ['-'] || !overflows (Decimal.value (whole ++ digits)) (e - digits.length))
  | _, _, _ => false

def isFloat (text : List Char) : Bool :=
  let (_, unsigned) := splitSign text
  unsigned == "inf".toList || unsigned == "nan".toList || isDecimalFloat text

def twoDigits? (a b : Char) : Option Nat :=
  if isAsciiDigit a && isAsciiDigit b then some (Decimal.value [a, b]) else none

def daysInMonth (year month : Nat) : Nat :=
  if month = 2 then
    if year % 4 = 0 ∧ (year % 100 ≠ 0 ∨ year % 400 = 0) then 29 else 28
  else if month = 4 ∨ month = 6 ∨ month = 9 ∨ month = 11 then 30
  else 31

def afterDay? : List Char → Option (List Char)
  | a :: b :: c :: d :: '-' :: e :: f :: '-' :: g :: h :: rest =>
    match twoDigits? a b, twoDigits? c d, twoDigits? e f, twoDigits? g h with
    | some century, some year, some month, some day =>
      if 1 ≤ month ∧ month ≤ 12 ∧ 1 ≤ day ∧ day ≤ daysInMonth (100 * century + year) month then
        some rest
      else none
    | _, _, _, _ => none
  | _ => none

def afterMinutes? : List Char → Option (List Char)
  | a :: b :: ':' :: c :: d :: rest =>
    match twoDigits? a b, twoDigits? c d with
    | some hour, some minute => if hour < 24 ∧ minute < 60 then some rest else none
    | _, _ => none
  | _ => none

/-- What follows a fraction of a second, which may be missing. -/
def afterFraction? : List Char → Option (List Char)
  | '.' :: rest =>
    if rest.takeWhile isAsciiDigit = [] then none else some (rest.dropWhile isAsciiDigit)
  | rest => some rest

/-- What follows a time. A minute may have a second 60. -/
def afterTime? (text : List Char) : Option (List Char) :=
  match afterMinutes? text with
  | some (':' :: a :: b :: rest) =>
    match twoDigits? a b with
    | some second => if second ≤ 60 then afterFraction? rest else none
    | none => none
  | _ => none

def isOffset : List Char → Bool
  | [] => true
  | ['Z'] => true
  | ['z'] => true
  | c :: rest => (c == '+' || c == '-') && afterMinutes? rest == some []

def isOffsetTime (text : List Char) : Bool := (afterTime? text).any isOffset

def isDayAlone (text : List Char) : Bool := afterDay? text == some []

/-- A day, a time, or both with a letter between them. -/
def isDate (text : List Char) : Bool :=
  afterTime? text == some [] ||
    match afterDay? text with
    | some [] => true
    | some (c :: time) => (c == 'T' || c == 't') && isOffsetTime time
    | none => false

def bareValue? (run : List Char) : Option Toml :=
  if run = "true".toList then some (.boolean true)
  else if run = "false".toList then some (.boolean false)
  else if isInteger run || isFloat run then some .number
  else if isDate run then some .date
  else none

def readBare (text : List Char) : Option (Toml × List Char) :=
  let run := text.takeWhile isBareCharacter
  let rest := text.dropWhile isBareCharacter
  match isDayAlone run, rest with
  | true, ' ' :: c :: more =>
    if isAsciiDigit c then
      let time := (c :: more).takeWhile isBareCharacter
      if isOffsetTime time then some (.date, (c :: more).dropWhile isBareCharacter) else none
    else some (.date, rest)
  | _, _ => (bareValue? run).map fun v => (v, rest)

end TouchedLines.Toml
