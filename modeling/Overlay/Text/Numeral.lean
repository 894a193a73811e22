/-! Natural numbers written in a radix up to thirty-six, the radix named by a marker in front. -/

set_option autoImplicit false

namespace Overlay.Numeral

def digit? (c : Char) : Option Nat :=
  if '0' ≤ c ∧ c ≤ '9' then some (c.toNat - '0'.toNat)
  else if 'a' ≤ c ∧ c ≤ 'z' then some (c.toNat - 'a'.toNat + 10)
  else if 'A' ≤ c ∧ c ≤ 'Z' then some (c.toNat - 'A'.toNat + 10)
  else none

/-- Appends the digits of a text to `value`; underscores between digits are skipped. -/
def extend? (radix value : Nat) : List Char → Option Nat
  | [] => some value
  | '_' :: rest => extend? radix value rest
  | c :: rest =>
    match digit? c with
    | none => none
    | some d => if d < radix then extend? radix (radix * value + d) rest else none

/-- Reads a number: hexadecimal, octal or binary after its marker, decimal without one. -/
def read? : List Char → Option Nat
  | '0' :: 'x' :: digits | '0' :: 'X' :: digits => extend? 16 0 digits
  | '0' :: 'o' :: digits | '0' :: 'O' :: digits => extend? 8 0 digits
  | '0' :: 'b' :: digits | '0' :: 'B' :: digits => extend? 2 0 digits
  | digits => extend? 10 0 digits

theorem digit?_digitChar {value : Nat} (small : value < 16) :
    digit? (Nat.digitChar value) = some value := by
  have all : ∀ v : Fin 16, digit? (Nat.digitChar v.val) = some v.val := by decide
  exact all ⟨value, small⟩

end Overlay.Numeral
