import Overlay.Codec.Account
import Overlay.Proofs.Flags

/-! Words, byte strings, numbers and flags are read back from what they are written as. -/

set_option autoImplicit false

namespace Overlay

namespace Numeral

theorem extend?_digitChar (value : Nat) {digit : Nat} (small : digit < 16) (rest : List Char) :
    extend? 16 value (Nat.digitChar digit :: rest) = extend? 16 (16 * value + digit) rest := by
  rw [extend?, digit?_digitChar small]
  · exact if_pos small
  · exact fun same => Nat.digitChar_ne _ rfl same

theorem extend?_toDigits (value : Nat) (rest : List Char) :
    extend? 16 0 (Nat.toDigits 16 value ++ rest) = extend? 16 value rest := by
  induction value using Nat.strongRecOn generalizing rest with
  | ind value ih =>
    by_cases small : value < 16
    · rw [Nat.toDigits_of_lt_base small, List.singleton_append, extend?_digitChar 0 small]
      simp
    · rw [Nat.toDigits_of_base_le (by decide) (by omega), List.append_assoc,
        ih (value / 16) (by omega), List.singleton_append,
        extend?_digitChar (value / 16) (Nat.mod_lt _ (by decide)), Nat.div_add_mod]

end Numeral

namespace Word

variable (word : Word)

theorem read?_text : read? word.text = some word := by
  have digits := Numeral.extend?_toDigits word.toNat []
  rw [List.append_nil] at digits
  simp [read?, text, Numeral.read?, digits, Numeral.extend?, ofNat?, word.isLt]

theorem ofJson?_toJson : ofJson? word.toJson = some word := word.read?_text

theorem optional?_toJson (value : Option Word) :
    (Json.ofOption toJson value).optional? ofJson? = some value :=
  Json.optional?_ofOption (fun _ => Json.noConfusion) ofJson?_toJson value

end Word

theorem Bytes.ofJson?_toJson (bytes : Bytes) : Bytes.ofJson? bytes.toJson = some bytes :=
  Hex.readLoose?_text bytes

namespace FixedBytes

variable {size : Nat} (value : FixedBytes size)

theorem ofText?_text : ofText? value.text = some value := by
  rw [ofText?, text, Hex.readLoose?_text]
  exact value.ofBytes?_bytes

theorem ofJson?_toJson : ofJson? value.toJson = some value := value.ofText?_text

end FixedBytes

theorem Json.uint64?_ofUInt64 (value : UInt64) : (Json.ofUInt64 value).uint64? = some value := by
  have small : value.toNat < 2 ^ 64 := value.toNat_lt
  simp [ofUInt64, uint64?, nat?, small]

theorem Access.readable_names : Flags.Readable names where
  solid := by decide
  named := by decide
  distinct := by simp [names]
  whole := Flags.forall_byte (by decide +kernel)

theorem Access.ofJson?_toJson (access : Access) : ofJson? access.toJson = some access := by
  show (Flags.read? names (Flags.write names access.toByte)).map ofByte = some access
  rw [readable_names.read?_write, Option.map_some, ofByte_toByte]

theorem Status.readable_names : Flags.Readable names where
  solid := by decide
  named := by decide
  distinct := by simp [names]
  whole := Flags.forall_byte (by decide +kernel)

theorem Status.ofJson?_toJson (status : Status) : ofJson? status.toJson = some status := by
  show (Flags.read? names (Flags.write names status.toByte)).map ofByte = some status
  rw [readable_names.read?_write, Option.map_some, ofByte_toByte]

end Overlay
