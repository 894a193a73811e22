import Overlay.Json.Lexeme

/-!
Numbers as they are written. One that is kept has to lie in the range of double precision, where its
first digits are taken as a coefficient of 64 bits and the others only count as powers of ten.
-/

set_option autoImplicit false

namespace Overlay.Json

structure Number where
  negative : Bool
  whole : List Char
  /-- The digits after the point. -/
  fraction : List Char
  /-- The sign and the digits after the mark of the exponent. -/
  exponent : Option (Bool × List Char)

namespace Number

def digits? (input : List Char) : Option (List Char × List Char) :=
  match digits input with
  | ([], _) => none
  | (found, rest) => some (found, rest)

/-- An integer part: a zero alone or digits that start with another one. -/
def whole? : List Char → Option (List Char × List Char)
  | '0' :: rest =>
    match rest with
    | c :: _ => if c.isDigit then none else some (['0'], rest)
    | [] => some (['0'], rest)
  | input => digits? input

def fraction? : List Char → Option (List Char × List Char)
  | '.' :: rest => digits? rest
  | input => some ([], input)

def sign : List Char → Bool × List Char
  | '+' :: rest => (false, rest)
  | '-' :: rest => (true, rest)
  | input => (false, input)

def exponent? : List Char → Option (Option (Bool × List Char) × List Char)
  | 'e' :: rest | 'E' :: rest =>
    (digits? (sign rest).2).map fun (found, rest') => (some ((sign rest).1, found), rest')
  | input => some (none, input)

def unsigned? (negative : Bool) (input : List Char) : Option (Number × List Char) := do
  let (whole, rest) ← whole? input
  let (fraction, rest) ← fraction? rest
  let (exponent, rest) ← exponent? rest
  return (⟨negative, whole, fraction, exponent⟩, rest)

def read? : List Char → Option (Number × List Char)
  | '-' :: rest => unsigned? true rest
  | input => unsigned? false input

def lexeme (number : Number) : String :=
  (if number.negative then "-" else "") ++ String.ofList number.whole ++
    (if number.fraction.isEmpty then "" else "." ++ String.ofList number.fraction) ++
    match number.exponent with
    | none => ""
    | some (negative, found) => (if negative then "e-" else "e") ++ String.ofList found

def nat? (number : Number) : Option Nat :=
  if number.negative || !number.fraction.isEmpty || number.exponent.isSome then none
  else some (Nat.ofDigitChars 10 number.whole 0)

def byte? (number : Number) : Option UInt8 :=
  number.nat?.bind fun value => if value < 256 then some (UInt8.ofNat value) else none

def toJson (number : Number) : Json :=
  match number.nat? with
  | some value => .nat value
  | none => .decimal number.lexeme

/-! ## Range -/

def append (coefficient : Nat) (digit : Char) : Nat :=
  10 * coefficient + (digit.toNat - '0'.toNat)

/-- Appends digits as long as the coefficient has 64 bits. Also counts those left over. -/
def appendWhole (coefficient : Nat) : List Char → Nat × Nat
  | [] => (coefficient, 0)
  | digit :: rest =>
    if append coefficient digit < 2 ^ 64 then appendWhole (append coefficient digit) rest
    else (coefficient, rest.length + 1)

def appendFraction (coefficient count : Nat) : List Char → Nat × Nat
  | [] => (coefficient, count)
  | digit :: rest =>
    if append coefficient digit < 2 ^ 64 then
      appendFraction (append coefficient digit) (count + 1) rest
    else (coefficient, count)

/-- The coefficient and the power of ten that it is multiplied by. -/
def scaled (number : Number) : Nat × Int :=
  let (coefficient, skipped) := appendWhole 0 number.whole
  let (coefficient, places) := appendFraction coefficient 0 number.fraction
  let shift : Int := match number.exponent with
    | none => 0
    | some (negative, found) =>
      let size : Int := Nat.ofDigitChars 10 found 0
      if negative then -size else size
  (coefficient, skipped - places + shift)

/-- The nearest number of 53 significant bits; of two that are as near, the one whose last bit is
zero. -/
def nearest (value : Nat) : Nat :=
  let unit := 2 ^ (value.log2 - 52)
  let count := value / unit
  let rest := value % unit
  if unit < 2 * rest ∨ unit = 2 * rest ∧ count % 2 = 1 then (count + 1) * unit else count * unit

/-- The least number above the range: numbers from here on round to a power of two beyond it. -/
def limit : Nat := 2 ^ 1024 - 2 ^ 970

/-- The number lies in the range, its coefficient and power of ten both rounded before they are
multiplied. -/
def isFinite (number : Number) : Bool :=
  let (coefficient, power) := number.scaled
  coefficient = 0 || power ≤ 0 ||
    power ≤ 308 && nearest coefficient * nearest (10 ^ power.toNat) < limit

end Number

end Overlay.Json
