import Overlay.Keccak

/-!
The checksum text of an address (EIP-55): a letter is upper case where the hash of the lower-case
digits has a nibble of eight or more.
-/

set_option autoImplicit false

namespace Overlay.Address

def nibbles (bytes : Bytes) : List Nat :=
  bytes.flatMap fun byte => [byte.toNat / 16, byte.toNat % 16]

def checksumText (address : Address) : String :=
  let digits := Hex.encode address.bytes
  let hash := keccak256 (digits.map fun digit => UInt8.ofNat digit.toNat)
  "0x" ++ String.ofList (digits.zipWith
    (fun digit nibble => if 8 ≤ nibble then digit.toUpper else digit) (nibbles hash.bytes))

end Overlay.Address
