import Overlay.Text.Hex

/-!
The text of a byte of flags: the names of those that are set, in the order of the table, and the
bits without a name as one hexadecimal number, with `" | "` between them.
-/

set_option autoImplicit false

namespace Overlay.Flags

abbrev Table := List (String × UInt8)

def isSpace (c : Char) : Bool :=
  let code := c.toNat
  (9 ≤ code && code ≤ 13) || (0x2000 ≤ code && code ≤ 0x200A) ||
    [0x20, 0x85, 0xA0, 0x1680, 0x2028, 0x2029, 0x202F, 0x205F, 0x3000].contains code

def trim (text : List Char) : List Char :=
  ((text.dropWhile isSpace).reverse.dropWhile isSpace).reverse

def pieces : List Char → List (List Char)
  | [] => [[]]
  | '|' :: rest => [] :: pieces rest
  | c :: rest =>
    match pieces rest with
    | [] => [[c]]
    | piece :: later => (c :: piece) :: later

def named (table : Table) (byte : UInt8) : Table :=
  table.filter fun flag => byte &&& flag.2 ≠ 0

def unnamed (table : Table) (byte : UInt8) : UInt8 :=
  table.foldl (fun bits flag => bits &&& ~~~ flag.2) byte

def write (table : Table) (byte : UInt8) : String :=
  let rest := unnamed table byte
  " | ".intercalate ((named table byte).map Prod.fst ++
    if rest = 0 then [] else ["0x" ++ String.ofList (Nat.toDigits 16 rest.toNat)])

/-- One or more hexadecimal digits, a plus sign allowed before them. -/
def number? (digits : List Char) : Option UInt8 :=
  let digits := match digits with
    | '+' :: rest => rest
    | digits => digits
  if digits.isEmpty then none
  else do
    let digits ← digits.mapM Hex.digit?
    let value := digits.foldl (fun value digit => 16 * value + digit) 0
    if value < 256 then some (UInt8.ofNat value) else none

def piece? (table : Table) (piece : List Char) : Option UInt8 :=
  match trim piece with
  | '0' :: 'x' :: digits => number? digits
  | name => (table.find? fun flag => flag.1 = String.ofList name).map Prod.snd

/-- Reads names and numbers in any order; blanks around each are left out. -/
def read? (table : Table) (text : String) : Option UInt8 :=
  if text.toList.all isSpace then some 0
  else do
    let bits ← (pieces text.toList).mapM (piece? table)
    return bits.foldl (· ||| ·) 0

end Overlay.Flags
