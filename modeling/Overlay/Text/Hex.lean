import Overlay.Bytes
import Overlay.Text.Numeral

/-! Hexadecimal text of byte strings: two lower-case digits a byte, either case when read. -/

set_option autoImplicit false

namespace Overlay.Hex

def digit? (c : Char) : Option Nat :=
  (Numeral.digit? c).filter (· < 16)

def pair (byte : UInt8) : List Char :=
  [Nat.digitChar (byte.toNat / 16), Nat.digitChar (byte.toNat % 16)]

def encode (bytes : Bytes) : List Char :=
  bytes.flatMap pair

def decode? : List Char → Option Bytes
  | [] => some []
  | [_] => none
  | high :: low :: rest => do
    let upper ← digit? high
    let lower ← digit? low
    let bytes ← decode? rest
    return UInt8.ofNat (16 * upper + lower) :: bytes

def text (bytes : Bytes) : String :=
  "0x" ++ String.ofList (encode bytes)

def read? (text : String) : Option Bytes :=
  match text.toList with
  | '0' :: 'x' :: digits => decode? digits
  | _ => none

/-- Reads digits with or without the marker, whose letter may be of either case. -/
def readLoose? (text : String) : Option Bytes :=
  match text.toList with
  | '0' :: 'x' :: digits | '0' :: 'X' :: digits => decode? digits
  | digits => decode? digits

theorem digit?_digitChar {value : Nat} (small : value < 16) :
    digit? (Nat.digitChar value) = some value := by
  simp [digit?, Numeral.digit?_digitChar small, small]

theorem decode?_encode (bytes : Bytes) : decode? (encode bytes) = some bytes := by
  induction bytes with
  | nil => rfl
  | cons byte rest ih =>
    have small := byte.toNat_lt
    have upper : digit? (Nat.digitChar (byte.toNat / 16)) = some (byte.toNat / 16) :=
      digit?_digitChar (by omega)
    have lower : digit? (Nat.digitChar (byte.toNat % 16)) = some (byte.toNat % 16) :=
      digit?_digitChar (by omega)
    have whole : UInt8.ofNat (16 * (byte.toNat / 16) + byte.toNat % 16) = byte := by
      rw [Nat.div_add_mod, UInt8.ofNat_toNat]
    show decode? (Nat.digitChar (byte.toNat / 16) :: Nat.digitChar (byte.toNat % 16) ::
      encode rest) = _
    rw [decode?, upper, lower, ih]
    exact congrArg (fun b => some (b :: rest)) whole

theorem read?_text (bytes : Bytes) : read? (text bytes) = some bytes := by
  simp [read?, text, decode?_encode]

theorem readLoose?_text (bytes : Bytes) : readLoose? (text bytes) = some bytes := by
  simp [readLoose?, text, decode?_encode]

end Overlay.Hex
