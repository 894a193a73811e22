/-! Byte strings and the numbers they spell, most significant byte first. -/

set_option autoImplicit false

-- Powers of numbers are those of the core library, whatever else a module imports.
attribute [instance (high), default_instance (high + 1)] instPowNat

namespace Overlay

abbrev Bytes := List UInt8

namespace Bytes

def toNat : Bytes → Nat
  | [] => 0
  | byte :: rest => byte.toNat * 256 ^ rest.length + toNat rest

/-- The last `size` base-256 digits of a number. -/
def ofNat : (size value : Nat) → Bytes
  | 0, _ => []
  | size + 1, value => UInt8.ofNat (value / 256 ^ size) :: ofNat size value

@[simp] theorem length_ofNat (size value : Nat) : (ofNat size value).length = size := by
  induction size with
  | zero => rfl
  | succ size ih => simp [ofNat, ih]

theorem toNat_ofNat (size value : Nat) : toNat (ofNat size value) = value % 256 ^ size := by
  induction size with
  | zero => simp [ofNat, toNat, Nat.mod_one]
  | succ size ih =>
    have split : value % (256 ^ size * 256) =
        value % 256 ^ size + 256 ^ size * (value / 256 ^ size % 256) := Nat.mod_mul
    have digit : (UInt8.ofNat (value / 256 ^ size)).toNat = value / 256 ^ size % 256 :=
      UInt8.toNat_ofNat'
    rw [ofNat, toNat, ih, length_ofNat, digit, Nat.pow_succ, split, Nat.mul_comm, Nat.add_comm]

theorem toNat_lt (bytes : Bytes) : toNat bytes < 256 ^ bytes.length := by
  induction bytes with
  | nil => simp [toNat]
  | cons byte rest ih =>
    have high : (byte.toNat + 1) * 256 ^ rest.length ≤ 256 * 256 ^ rest.length :=
      Nat.mul_le_mul_right _ byte.toNat_lt
    rw [Nat.add_mul] at high
    rw [toNat, List.length_cons, Nat.pow_succ']
    omega

theorem toNat_injective {first second : Bytes} (size : first.length = second.length)
    (same : toNat first = toNat second) : first = second := by
  induction first generalizing second with
  | nil => exact (List.length_eq_zero_iff.mp size.symm).symm
  | cons byte rest ih =>
    cases second with
    | nil => simp at size
    | cons byte' rest' =>
      have size' : rest.length = rest'.length := by simpa using size
      have small := toNat_lt rest
      have small' := toNat_lt rest'
      rw [← size'] at small'
      rw [toNat, toNat, ← size'] at same
      have positive : 0 < 256 ^ rest.length := Nat.pow_pos (by decide)
      have high : byte.toNat = byte'.toNat := by
        have split := congrArg (· / 256 ^ rest.length) same
        simpa [Nat.add_comm (_ * _), Nat.add_mul_div_right _ _ positive, Nat.div_eq_of_lt small,
          Nat.div_eq_of_lt small'] using split
      rw [high] at same
      rw [UInt8.toNat.inj high, ih size' (by omega)]

theorem ofNat_toNat (bytes : Bytes) : ofNat bytes.length (toNat bytes) = bytes :=
  toNat_injective (length_ofNat _ _) (by
    rw [toNat_ofNat, Nat.mod_eq_of_lt (toNat_lt bytes)])

end Bytes

end Overlay
