import Overlay.Json.Layout
import Overlay.Word

/-! Bytes, addresses, hashes and words in JSON: hexadecimal strings. -/

set_option autoImplicit false

namespace Overlay

def Bytes.toJson (bytes : Bytes) : Json := .string (Hex.text bytes)

/-- Bytes may also be given as an array of numbers. -/
def Bytes.ofJson? : Json → Option Bytes
  | .string text => Hex.readLoose? text
  | .array items => items.mapM Json.byte?
  | _ => none

namespace FixedBytes

variable {size : Nat}

def toJson (value : FixedBytes size) : Json := .string value.text

/-- Behind the bytes of an array one item is passed over if it is no byte. -/
def ofJson? : Json → Option (FixedBytes size)
  | .array items =>
    let extra := items.drop size
    if extra.length ≤ 1 && extra.all (·.byte?.isNone) then
      ((items.take size).mapM Json.byte?).bind (ofBytes? size)
    else none
  | json => (Bytes.ofJson? json).bind (ofBytes? size)

def ofText? (text : String) : Option (FixedBytes size) :=
  (Hex.readLoose? text).bind (ofBytes? size)

end FixedBytes

namespace Word

def toJson (word : Word) : Json := .string word.text

/-- A number of at most 64 bits may also be given as it is. -/
def ofJson? : Json → Option Word
  | .string text => read? text
  | json => json.nat?.bind ofNat?

end Word

end Overlay
