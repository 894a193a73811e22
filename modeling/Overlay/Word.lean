import Overlay.FixedBytes

/-! The 256-bit words that keys and values of storage slots and balances are. -/

set_option autoImplicit false

namespace Overlay

abbrev Word := BitVec 256

instance : Std.TransOrd Word := inferInstanceAs (Std.TransOrd (BitVec 256))

instance : Std.LawfulEqOrd Word := inferInstanceAs (Std.LawfulEqOrd (BitVec 256))

namespace Word

def ofHash (hash : Hash) : Word :=
  BitVec.ofNat 256 hash.toNat

def ofNat? (value : Nat) : Option Word :=
  if value < 2 ^ 256 then some (BitVec.ofNat 256 value) else none

def text (word : Word) : String :=
  "0x" ++ String.ofList (Nat.toDigits 16 word.toNat)

def read? (text : String) : Option Word :=
  (Numeral.read? text.toList).bind ofNat?

def checkedAdd (first second : Word) : Option Word :=
  ofNat? (first.toNat + second.toNat)

def checkedSub (first second : Word) : Option Word :=
  if second.toNat ≤ first.toNat then some (first - second) else none

theorem checkedAdd_eq (first second : Word) :
    first.checkedAdd second =
      if first.toNat + second.toNat < 2 ^ 256 then some (first + second) else none := by
  have sum : BitVec.ofNat 256 (first.toNat + second.toNat) = first + second := by
    apply BitVec.eq_of_toNat_eq
    rw [BitVec.toNat_ofNat, BitVec.toNat_add]
  rw [checkedAdd, ofNat?, sum]

theorem toNat_ofHash (hash : Hash) : (ofHash hash).toNat = hash.toNat := by
  have small := hash.toNat_lt
  rw [ofHash, BitVec.toNat_ofNat, Nat.mod_eq_of_lt (by simpa using small)]

theorem ofHash_injective {first second : Hash} (same : ofHash first = ofHash second) :
    first = second := by
  apply FixedBytes.ext_toNat
  rw [← toNat_ofHash, same, toNat_ofHash]

end Word

end Overlay
