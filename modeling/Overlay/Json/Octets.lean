import Overlay.Json.Number

/-!
Arrays of a fixed number of bytes. When they are complete one more byte is tried. If there is one,
the array is too long. If the attempt fails, what it took is passed over, and the array has to end
where it stopped.
-/

set_option autoImplicit false

namespace Overlay.Json.Octets

/-- Passes over one byte of text. An attempt that stops inside a longer character stops for good. -/
def pass? : List Char → Option (List Char)
  | c :: rest => if c.utf8Size = 1 then some rest else none
  | [] => none

def passBytes? : (count : Nat) → List Char → Option (List Char)
  | 0, rest => some rest
  | _ + 1, [] => none
  | count + 1, c :: rest =>
    if c.utf8Size ≤ count + 1 then passBytes? (count + 1 - c.utf8Size) rest else none

/-- A word is taken up to its end or past the first character that is wrong. -/
def word? : (expected : List Char) → List Char → Option (List Char)
  | [], rest => some rest
  | letter :: expected, input =>
    match input with
    | [] => none
    | c :: rest => if c = letter then word? expected rest else pass? input

/-- A string is taken up to its end or past the first escape or character that is wrong. -/
def string? : (fuel : Nat) → List Char → Option (List Char)
  | 0, _ | _, [] => none
  | _ + 1, '"' :: rest => some rest
  | fuel + 1, '\\' :: 'u' :: rest =>
    match hex4? rest with
    | none => passBytes? 4 rest
    | some (unit, rest) =>
      if isHighSurrogate unit then
        match rest with
        | '\\' :: 'u' :: rest =>
          match hex4? rest with
          | none => passBytes? 4 rest
          | some (low, rest) => if isLowSurrogate low then string? fuel rest else some rest
        | '\\' :: rest => pass? rest
        | rest => pass? rest
      else if isLowSurrogate unit then some rest
      else string? fuel rest
  | fuel + 1, '\\' :: c :: rest =>
    if (escaped? c).isSome then string? fuel rest else pass? (c :: rest)
  | fuel + 1, c :: rest => if c.toNat < 32 then some rest else string? fuel rest

/-- An exponent is taken up to its end, or past the character that is there instead of a digit. One
that makes a number too large is given up at the digit where it leaves 31 bits. -/
def exponent? (isZero : Bool) (input : List Char) : Option (List Char) :=
  let (negative, rest) := Number.sign input
  match digits rest with
  | ([], rest) => pass? rest
  | (found, rest) =>
    if !negative && !isZero && 2 ^ 31 ≤ Nat.ofDigitChars 10 found.dropLast 0 then none
    else some rest

/-- A number is taken up to its end or to where it is ill-formed, unless it is a byte. -/
def number? (negative : Bool) (input : List Char) : Option (List Char) :=
  match digits input with
  | ([], rest) => pass? rest
  | ('0' :: _ :: _, _) => none
  | (whole, rest) =>
    match rest with
    | '.' :: rest =>
      match digits rest with
      | ([], rest) => some rest
      | (fraction, 'e' :: rest) | (fraction, 'E' :: rest) =>
        exponent? ((whole ++ fraction).all (· = '0')) rest
      | (_, rest) => some rest
    | 'e' :: rest | 'E' :: rest => exponent? (whole.all (· = '0')) rest
    | rest => if !negative && Nat.ofDigitChars 10 whole 0 < 256 then none else some rest

def attempt? : List Char → Option (List Char)
  | 'n' :: rest => word? ['u', 'l', 'l'] rest
  | 't' :: rest => word? ['r', 'u', 'e'] rest
  | 'f' :: rest => word? ['a', 'l', 's', 'e'] rest
  | '"' :: rest => string? (rest.length + 1) rest
  | '-' :: rest => number? true rest
  | c :: rest => if c.isDigit then number? false (c :: rest) else none
  | [] => none

/-- The end of an array whose bytes are complete. A comma may stand before it. -/
def close? (input : List Char) : Option (List Char) :=
  match skipBlanks input with
  | ']' :: rest => some rest
  | ',' :: rest =>
    match skipBlanks rest with
    | ']' :: rest => some rest
    | rest =>
      match (attempt? rest).map skipBlanks with
      | some (']' :: rest) => some rest
      | _ => none
  | _ => none

/-- The bytes of an array and its end; `seen` holds those read, last first. -/
def read? : (missing : Nat) → (seen : Bytes) → List Char → Option (Bytes × List Char)
  | 0, seen, input => (close? input).map fun rest => (seen.reverse, rest)
  | missing + 1, seen, input => do
    let input ← match seen, skipBlanks input with
      | [], rest => some rest
      | _, ',' :: rest => some (skipBlanks rest)
      | _, _ => none
    let (number, rest) ← Number.read? input
    read? missing ((← number.byte?) :: seen) rest

end Overlay.Json.Octets
