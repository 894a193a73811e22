import Mathlib.Data.List.Range
import Overlay.Precompile

/-!
One meaning of being a precompile. Read as a number, an address is one if it lies between one and
the count of the hardfork; the table of the hardfork and the look at the bytes of the address come
to just that. The order of addresses is the one of their numbers.
-/

set_option autoImplicit false

namespace Overlay

namespace Bytes

theorem toNat_append (high low : Bytes) :
    toNat (high ++ low) = toNat high * 256 ^ low.length + toNat low := by
  induction high with
  | nil => simp [toNat]
  | cons byte rest ih =>
    rw [List.cons_append, toNat, ih, toNat, List.length_append, Nat.pow_add, Nat.add_mul,
      Nat.mul_assoc, Nat.add_assoc]

theorem toNat_eq_zero_iff (bytes : Bytes) : toNat bytes = 0 ↔ ∀ byte ∈ bytes, byte = 0 := by
  induction bytes with
  | nil => simp [toNat]
  | cons byte rest ih =>
    have digit : byte.toNat = 0 ↔ byte = 0 :=
      ⟨fun zero => UInt8.toNat.inj zero, fun zero => zero ▸ rfl⟩
    have place : 256 ^ rest.length ≠ 0 := Nat.pos_iff_ne_zero.mp (Nat.pow_pos (by decide))
    rw [toNat, Nat.add_eq_zero_iff, Nat.mul_eq_zero, or_iff_left place, ih, digit,
      List.forall_mem_cons]

/-- Of two numbers with a digit in front the digits decide, and the rest only if they are equal. -/
private theorem compare_digit {digit digit' low low' base : Nat} (small : low < base)
    (small' : low' < base) :
    compare (digit * base + low) (digit' * base + low') =
      (compare digit digit').then (compare low low') := by
  rcases Nat.lt_trichotomy digit digit' with less | rfl | more
  · have carried := Nat.mul_le_mul_right base (Nat.succ_le_of_lt less)
    rw [Nat.succ_mul] at carried
    rw [Nat.compare_eq_lt.mpr less, Nat.compare_eq_lt.mpr (by omega), Ordering.lt_then]
  · rw [Nat.compare_eq_eq.mpr rfl, Ordering.eq_then, Nat.compare_eq_ite_lt, Nat.compare_eq_ite_lt]
    simp only [Nat.add_lt_add_iff_left]
  · have carried := Nat.mul_le_mul_right base (Nat.succ_le_of_lt more)
    rw [Nat.succ_mul] at carried
    rw [Nat.compare_eq_gt.mpr more, Nat.compare_eq_gt.mpr (by omega), Ordering.gt_then]

theorem compare_toNat {first second : Bytes} (sized : first.length = second.length) :
    compare first second = compare (toNat first) (toNat second) := by
  induction first generalizing second with
  | nil =>
    cases List.length_eq_zero_iff.mp sized.symm
    rfl
  | cons byte rest ih =>
    cases second with
    | nil => cases sized
    | cons byte' rest' =>
      have sized' : rest.length = rest'.length := Nat.succ.inj sized
      have small := toNat_lt rest
      have small' := toNat_lt rest'
      rw [← sized'] at small'
      rw [List.compare_cons_cons, ih sized', toNat, toNat, ← sized', compare_digit small small',
        UInt8.compare_eq_toNat_compare_toNat]

end Bytes

namespace FixedBytes

variable {size : Nat}

theorem compare_eq_compare_toNat (first second : FixedBytes size) :
    compare first second = compare first.toNat second.toNat :=
  Bytes.compare_toNat (first.length_eq.trans second.length_eq.symm)

end FixedBytes

namespace Address

theorem toNat_ofUInt64 (number : UInt64) : (ofUInt64 number).toNat = number.toNat := by
  have blank : Bytes.toNat (List.replicate 12 0) = 0 :=
    (Bytes.toNat_eq_zero_iff _).mpr fun byte member => List.eq_of_mem_replicate member
  have small : number.toNat < 256 ^ 8 := number.toNat_lt
  show Bytes.toNat (List.replicate 12 0 ++ Bytes.ofNat 8 number.toNat) = number.toNat
  rw [Bytes.toNat_append, blank, Nat.zero_mul, Nat.zero_add, Bytes.toNat_ofNat,
    Nat.mod_eq_of_lt small]

theorem toNat_ofUInt64_succ {index : Nat} (small : index + 1 < 2 ^ 64) :
    (ofUInt64 (UInt64.ofNat index + 1)).toNat = 1 + index := by
  rw [toNat_ofUInt64, UInt64.toNat_add, UInt64.toNat_ofNat', UInt64.toNat_one]
  omega

/-- The address is found from its number, and no other address has that number. -/
theorem eq_ofUInt64_iff (address : Address) (number : UInt64) :
    address = ofUInt64 number ↔ address.toNat = number.toNat := by
  rw [← toNat_ofUInt64]
  exact ⟨fun same => congrArg FixedBytes.toNat same, FixedBytes.ext_toNat⟩

theorem compare_ofUInt64 (first second : UInt64) :
    compare (ofUInt64 first) (ofUInt64 second) = compare first second := by
  rw [FixedBytes.compare_eq_compare_toNat, toNat_ofUInt64, toNat_ofUInt64,
    UInt64.compare_eq_toNat_compare_toNat]

/-- The bytes in front are blank exactly where the number fits into the two behind them. -/
theorem short?_eq (address : Address) :
    address.short? = if address.toNat < 2 ^ 16 then some address.toNat else none := by
  have parts : address.toNat =
      Bytes.toNat (address.bytes.take 18) * 256 ^ 2 + Bytes.toNat (address.bytes.drop 18) := by
    have behind : (address.bytes.drop 18).length = 2 := by
      rw [List.length_drop, address.length_eq]
    rw [← behind, ← Bytes.toNat_append, List.take_append_drop]
    rfl
  have small : Bytes.toNat (address.bytes.drop 18) < 256 ^ 2 := by
    have bound := Bytes.toNat_lt (address.bytes.drop 18)
    rwa [List.length_drop, address.length_eq] at bound
  have blank : ((address.bytes.take 18).all fun byte => byte = 0) = true ↔
      Bytes.toNat (address.bytes.take 18) = 0 := by
    rw [Bytes.toNat_eq_zero_iff, List.all_eq_true]
    simp only [decide_eq_true_iff]
  unfold short?
  by_cases front : Bytes.toNat (address.bytes.take 18) = 0
  · have fits : address.toNat < 2 ^ 16 := by omega
    rw [if_pos (blank.mpr front), if_pos fits, parts, front, Nat.zero_mul, Nat.zero_add]
  · have large : ¬ address.toNat < 2 ^ 16 := by omega
    rw [if_neg (mt blank.mp front), if_neg large]

end Address

namespace Hardfork

theorem precompileCount_le (fork : Hardfork) : fork.precompileCount ≤ 17 := by
  cases fork <;> decide

theorem map_toNat_precompiles (fork : Hardfork) :
    fork.precompiles.map FixedBytes.toNat = List.range' 1 fork.precompileCount := by
  have known := fork.precompileCount_le
  rw [precompiles, knownPrecompiles, ← List.map_take, List.take_range, Nat.min_eq_left known,
    List.map_map, List.range'_eq_map_range]
  apply List.map_congr_left
  intro index member
  have bound := List.mem_range.mp member
  rw [Function.comp_apply, Address.toNat_ofUInt64_succ (by omega)]

theorem mem_precompiles_iff (fork : Hardfork) (address : Address) :
    address ∈ fork.precompiles ↔ 1 ≤ address.toNat ∧ address.toNat ≤ fork.precompileCount := by
  have injective : Function.Injective (@FixedBytes.toNat 20) :=
    fun _ _ => FixedBytes.ext_toNat
  rw [← List.mem_map_of_injective injective, map_toNat_precompiles, List.mem_range'_1]
  omega

theorem pairwise_precompiles (fork : Hardfork) :
    fork.precompiles.Pairwise fun first second => compare first second = .lt := by
  have ascending : (fork.precompiles.map FixedBytes.toNat).Pairwise (· < ·) :=
    fork.map_toNat_precompiles ▸ List.pairwise_lt_range'
  refine (List.pairwise_map.mp ascending).imp fun {first second} less => ?_
  rw [FixedBytes.compare_eq_compare_toNat]
  exact Nat.compare_eq_lt.mpr less

theorem nodup_precompiles (fork : Hardfork) : fork.precompiles.Nodup :=
  fork.pairwise_precompiles.imp fun {first second} less same => by
    rw [same, Std.ReflOrd.compare_self] at less
    cases less

theorem isPrecompile_iff (fork : Hardfork) (address : Address) :
    fork.isPrecompile address = true ↔
      1 ≤ address.toNat ∧ address.toNat ≤ fork.precompileCount := by
  have known := fork.precompileCount_le
  rw [isPrecompile, Address.short?_eq]
  split
  · simp only [Option.any_some, decide_eq_true_iff]
  · next large =>
    simp only [Option.any_none, Bool.false_eq_true, false_iff]
    omega

/-- Being a precompile has one meaning: the look at the bytes of an address, the table of the
hardfork and the number of the address say the same, and some hardfork has the address if and only
if the latest one does. Of any 64-bit number there is one address, and the order of these addresses
is that of the numbers. -/
theorem isPrecompile_exact (fork : Hardfork) (address : Address) :
    (fork.isPrecompile address = true ↔ address ∈ fork.precompiles) ∧
    (address ∈ fork.precompiles ↔
      1 ≤ address.toNat ∧ address.toNat ≤ fork.precompileCount) ∧
    (address.isPrecompile = true ↔ ∃ other : Hardfork, other.isPrecompile address = true) ∧
    (∀ number : UInt64, address = .ofUInt64 number ↔ address.toNat = number.toNat) ∧
    Function.Injective Address.ofUInt64 ∧
    ∀ first second : UInt64,
      compare (Address.ofUInt64 first) (Address.ofUInt64 second) = .lt ↔ first < second := by
  refine ⟨?_, fork.mem_precompiles_iff address, ⟨fun found => ⟨.latest, found⟩, ?_⟩,
    address.eq_ofUInt64_iff, ?_, ?_⟩
  · rw [isPrecompile_iff, mem_precompiles_iff]
  · rintro ⟨other, found⟩
    -- No hardfork takes an address away that an earlier one has.
    obtain ⟨low, high⟩ := (other.isPrecompile_iff address).mp found
    exact (latest.isPrecompile_iff address).mpr ⟨low, high.trans other.precompileCount_le⟩
  · intro first second same
    have number := (Address.eq_ofUInt64_iff _ second).mp same
    rw [Address.toNat_ofUInt64] at number
    exact UInt64.toNat_inj.mp number
  · intro first second
    rw [Address.compare_ofUInt64]
    exact Std.compare_eq_lt

end Hardfork

end Overlay
