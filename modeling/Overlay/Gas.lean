import Overlay.Word

/-!
Prices of state access: the first access to an account or a slot is cold, later ones are warm
(EIP-2929), and an access list is paid by entry up front (EIP-2930). Prices saturate at the largest
64-bit number.
-/

set_option autoImplicit false

namespace Overlay

structure AccessList.Entry where
  address : Address
  keys : List Hash
  deriving DecidableEq

abbrev AccessList := List AccessList.Entry

/-- The numbers of entries and of keys, repeated ones counted again. -/
def AccessList.counts (list : AccessList) : UInt64 × UInt64 :=
  list.foldl (fun counts entry => (counts.1 + 1, counts.2 + UInt64.ofNat entry.keys.length)) (0, 0)

namespace Gas

def saturate (amount : Nat) : UInt64 := UInt64.ofNat (min amount (2 ^ 64 - 1))

def satAdd (first second : UInt64) : UInt64 := saturate (first.toNat + second.toNat)

def satMul (first second : UInt64) : UInt64 := saturate (first.toNat * second.toNat)

def satSub (first second : UInt64) : UInt64 := UInt64.ofNat (first.toNat - second.toNat)

def accessListAddress : UInt64 := 2400

def accessListStorageKey : UInt64 := 1900

def coldSload : UInt64 := 2100

def coldAccountAccess : UInt64 := 2600

def warmStorageRead : UInt64 := 100

def berlinAccountCost (isCold : Bool) : UInt64 :=
  if isCold then coldAccountAccess else warmStorageRead

def berlinStorageCost (isCold : Bool) : UInt64 :=
  if isCold then coldSload else warmStorageRead

def berlinAccessListCost (list : AccessList) : UInt64 :=
  satAdd (satMul list.counts.1 accessListAddress) (satMul list.counts.2 accessListStorageKey)

structure Schedule where
  coldAccountAccess : UInt64 := Gas.coldAccountAccess
  warmAccountAccess : UInt64 := warmStorageRead
  coldStorageAccess : UInt64 := coldSload
  warmStorageAccess : UInt64 := warmStorageRead
  accessListAddress : UInt64 := Gas.accessListAddress
  accessListStorageKey : UInt64 := Gas.accessListStorageKey
  deriving DecidableEq

namespace Schedule

def berlin : Schedule := {}

def accountCost (schedule : Schedule) (isCold : Bool) : UInt64 :=
  if isCold then schedule.coldAccountAccess else schedule.warmAccountAccess

def storageCost (schedule : Schedule) (isCold : Bool) : UInt64 :=
  if isCold then schedule.coldStorageAccess else schedule.warmStorageAccess

def coldAccountSurcharge (schedule : Schedule) : UInt64 :=
  satSub schedule.coldAccountAccess schedule.warmAccountAccess

def entriesCost (schedule : Schedule) (addresses keys : UInt64) : UInt64 :=
  satAdd (satMul schedule.accessListAddress addresses) (satMul schedule.accessListStorageKey keys)

def accessListCost (schedule : Schedule) (list : AccessList) : UInt64 :=
  schedule.entriesCost list.counts.1 list.counts.2

end Schedule

theorem toNat_saturate (amount : Nat) : (saturate amount).toNat = min amount (2 ^ 64 - 1) := by
  rw [saturate, UInt64.toNat_ofNat', Nat.mod_eq_of_lt]
  omega

end Gas

end Overlay
