import Overlay.Text.Hex
import Std.Data.ExtTreeMap

/-! Byte strings of a fixed length, ordered byte by byte: addresses and hashes. -/

set_option autoImplicit false

namespace Overlay

structure FixedBytes (size : Nat) where
  bytes : Bytes
  length_eq : bytes.length = size
  deriving DecidableEq

abbrev Address := FixedBytes 20

abbrev Hash := FixedBytes 32

namespace FixedBytes

variable {size : Nat}

def ofBytes? (size : Nat) (bytes : Bytes) : Option (FixedBytes size) :=
  if h : bytes.length = size then some ⟨bytes, h⟩ else none

def ofFn (byte : Fin size → UInt8) : FixedBytes size :=
  ⟨List.ofFn byte, List.length_ofFn⟩

def zero (size : Nat) : FixedBytes size :=
  ⟨List.replicate size 0, List.length_replicate⟩

def toNat (value : FixedBytes size) : Nat :=
  value.bytes.toNat

def ofNat (size value : Nat) : FixedBytes size :=
  ⟨Bytes.ofNat size value, Bytes.length_ofNat size value⟩

def text (value : FixedBytes size) : String :=
  Hex.text value.bytes

instance : Ord (FixedBytes size) := ⟨compareOn bytes⟩

instance : Std.TransOrd (FixedBytes size) :=
  inferInstanceAs (Std.TransCmp (compareOn bytes))

instance : Std.LawfulEqOrd (FixedBytes size) where
  eq_of_compare {first second} same := by
    have bytes : first.bytes = second.bytes := Std.LawfulEqOrd.eq_of_compare same
    cases first; cases second
    cases bytes
    rfl

@[ext] theorem ext_toNat {first second : FixedBytes size} (same : first.toNat = second.toNat) :
    first = second := by
  cases first with | mk bytes sized =>
  cases second with | mk bytes' sized' =>
  have : bytes = bytes' := Bytes.toNat_injective (sized.trans sized'.symm) same
  subst this
  rfl

theorem toNat_ofNat (size value : Nat) : (ofNat size value).toNat = value % 256 ^ size :=
  Bytes.toNat_ofNat size value

theorem toNat_lt (value : FixedBytes size) : value.toNat < 256 ^ size := by
  have small := Bytes.toNat_lt value.bytes
  rwa [value.length_eq] at small

theorem ofBytes?_bytes (value : FixedBytes size) : ofBytes? size value.bytes = some value := by
  simp [ofBytes?, value.length_eq]

end FixedBytes

instance : Std.TransOrd Address := inferInstanceAs (Std.TransOrd (FixedBytes 20))

instance : Std.LawfulEqOrd Address := inferInstanceAs (Std.LawfulEqOrd (FixedBytes 20))

def Address.ofUInt64 (number : UInt64) : Address :=
  ⟨List.replicate 12 0 ++ Bytes.ofNat 8 number.toNat, by simp⟩

end Overlay
