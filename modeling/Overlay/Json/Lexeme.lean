import Overlay.Json
import Overlay.Text.Hex

/-!
Blanks, digits and strings. Every reader takes what lies before it off the front of its input and
returns the rest.
-/

set_option autoImplicit false

namespace Overlay.Json

def isBlank (c : Char) : Bool :=
  c = ' ' || c = '\n' || c = '\t' || c = '\r'

def skipBlanks (input : List Char) : List Char := input.dropWhile isBlank

def digits (input : List Char) : List Char × List Char :=
  (input.takeWhile Char.isDigit, input.dropWhile Char.isDigit)

def hex4? : List Char → Option (Nat × List Char)
  | a :: b :: c :: d :: rest => do
    let a ← Hex.digit? a
    let b ← Hex.digit? b
    let c ← Hex.digit? c
    let d ← Hex.digit? d
    return (((a * 16 + b) * 16 + c) * 16 + d, rest)
  | _ => none

/-- The first of two UTF-16 units that make a character. -/
def isHighSurrogate (unit : Nat) : Bool := 0xD800 ≤ unit && unit < 0xDC00

def isLowSurrogate (unit : Nat) : Bool := 0xDC00 ≤ unit && unit < 0xE000

/-- A character after `\u`: one UTF-16 unit, or a high and a low one in two escapes. A surrogate
without its partner is refused. -/
def unicodeEscape? (input : List Char) : Option (Char × List Char) :=
  match hex4? input with
  | none => none
  | some (unit, rest) =>
    if isHighSurrogate unit then
      match rest with
      | '\\' :: 'u' :: rest =>
        match hex4? rest with
        | none => none
        | some (low, rest) =>
          if isLowSurrogate low then
            some (Char.ofNat (0x10000 + (unit - 0xD800) * 0x400 + (low - 0xDC00)), rest)
          else none
      | _ => none
    else if isLowSurrogate unit then none
    else some (Char.ofNat unit, rest)

def escaped? : Char → Option Char
  | '"' => some '"'
  | '\\' => some '\\'
  | '/' => some '/'
  | 'b' => some '\x08'
  | 'f' => some '\x0c'
  | 'n' => some '\n'
  | 'r' => some '\r'
  | 't' => some '\t'
  | _ => none

def escape? : List Char → Option (Char × List Char)
  | 'u' :: rest => unicodeEscape? rest
  | c :: rest => (escaped? c).map fun c => (c, rest)
  | [] => none

/-- The characters of a string up to its closing quote, escapes still in place; `seen` holds those
so far, last first. -/
def quoted? (seen : List Char) : List Char → Option (List Char × List Char)
  | [] => none
  | '"' :: rest => some (seen.reverse, rest)
  | '\\' :: c :: rest => quoted? (c :: '\\' :: seen) rest
  | c :: rest => if c.toNat < 32 then none else quoted? (c :: seen) rest

def unescape? : (fuel : Nat) → (seen : List Char) → List Char → Option String
  | _, seen, [] => some (String.ofList seen.reverse)
  | 0, _, _ => none
  | fuel + 1, seen, '\\' :: rest =>
    match escape? rest with
    | none => none
    | some (c, rest) => unescape? fuel (c :: seen) rest
  | fuel + 1, seen, c :: rest => unescape? fuel (c :: seen) rest

def string? (input : List Char) : Option (String × List Char) :=
  match quoted? [] input with
  | none => none
  | some (body, rest) => (unescape? body.length [] body).map fun text => (text, rest)

/-- All escapes have their form, though surrogates may lack their partners. -/
def isEscaped : List Char → Bool
  | [] => true
  | '\\' :: 'u' :: a :: b :: c :: d :: rest => (hex4? [a, b, c, d]).isSome && isEscaped rest
  | '\\' :: c :: rest => (escaped? c).isSome && isEscaped rest
  | _ :: rest => isEscaped rest

def skipString? (input : List Char) : Option (List Char) :=
  match quoted? [] input with
  | none => none
  | some (body, rest) => if isEscaped body then some rest else none

end Overlay.Json
