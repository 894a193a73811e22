import Overlay.Info
import Overlay.Slot

/-! A cached account: its info, its warm slots and its status. -/

set_option autoImplicit false

namespace Overlay

/-- What happened to a cached account. Without any flag it is a marker: the address is in the cache
to answer questions of warmth, and its info was never fetched. -/
structure Status where
  /-- The info is known. -/
  loaded : Bool := false
  /-- There are changes that the ledger has not got yet. -/
  cached : Bool := false
  created : Bool := false
  selfDestructed : Bool := false
  /-- The four bits without a meaning. -/
  reserved : BitVec 4 := 0
  deriving DecidableEq

namespace Status

def toByte (status : Status) : UInt8 :=
  UInt8.ofNat (status.loaded.toNat + 2 * status.cached.toNat + 4 * status.created.toNat +
    8 * status.selfDestructed.toNat + 16 * status.reserved.toNat)

def ofByte (byte : UInt8) : Status where
  loaded := byte.toNat.testBit 0
  cached := byte.toNat.testBit 1
  created := byte.toNat.testBit 2
  selfDestructed := byte.toNat.testBit 3
  reserved := BitVec.ofNat 4 (byte.toNat / 16)

theorem ofByte_toByte (status : Status) : ofByte status.toByte = status := by
  have all : ∀ (loaded cached created selfDestructed : Bool) (reserved : BitVec 4),
      ofByte (toByte ⟨loaded, cached, created, selfDestructed, reserved⟩) =
        ⟨loaded, cached, created, selfDestructed, reserved⟩ := by decide +kernel
  exact all status.loaded status.cached status.created status.selfDestructed status.reserved

end Status

structure Account where
  address : Address
  info : Info := {}
  storage : Storage := ∅
  status : Status := {}
  deriving DecidableEq

namespace Account

def marker (address : Address) : Account := { address }

def loaded (address : Address) (info : Info) : Account :=
  { address, info, status := { loaded := true } }

/-- An account that was made locally. -/
def ofCode (address : Address) (nonce : UInt64) (code : Bytes) (balance : Word) : Account :=
  { address, info := Info.ofCode balance nonce code, status := { loaded := true, cached := true } }

def slot? (account : Account) (key : Word) : Option Slot := account.storage[key]?

def isSlotWarm (account : Account) (key : Word) : Bool := decide (key ∈ account.storage)

def isAlive (account : Account) : Bool := account.info.isAlive

def hasCodeOrNonce (account : Account) : Bool := !account.info.hasNoCodeOrNonce

def changedSlots (account : Account) : List (Word × Slot) :=
  account.storage.toList.filter fun entry => entry.2.isChanged

def load (account : Account) (info : Info) : Account :=
  if account.status.loaded then account
  else { account with info, status := { account.status with loaded := true } }

def change (account : Account) (info : Info) : Account :=
  { account with info, status := { account.status with loaded := true, cached := true } }

def setBalance (account : Account) (balance : Word) : Account :=
  account.change { account.info with balance }

/-- The nonce of an account that is not selfdestructed never decreases. The refusal is a debug
assertion: a release build does not have it and takes any nonce. -/
def setNonce? (account : Account) (nonce : UInt64) : Option Account :=
  if account.info.nonce ≤ nonce ∨ account.status.selfDestructed then
    some (account.change { account.info with nonce })
  else none

def incNonce? (account : Account) : Option Account :=
  if account.info.nonce.toNat + 1 < 2 ^ 64 then
    some (account.change { account.info with nonce := account.info.nonce + 1 })
  else none

def setCode (account : Account) (code : Bytes) : Account :=
  account.change (account.info.setCode code)

/-- A created account has empty storage: the slots stay warm and read as zero. -/
def create (account : Account) : Account :=
  let account := account.change account.info
  { account with
    storage := account.storage.map fun _ slot => slot.cleared
    status := { account.status with created := true } }

def selfDestruct (account : Account) : Account :=
  let account := account.change account.info
  { account with status := { account.status with selfDestructed := true } }

def putSlot (account : Account) (key : Word) (slot : Slot) : Account :=
  { account with storage := account.storage.insert key slot }

def warmSlot (account : Account) (key : Word) : Account :=
  if key ∈ account.storage then account else account.putSlot key Slot.warm

def preloadSlot (account : Account) (key : Word) : Account :=
  match account.slot? key with
  | some slot => account.putSlot key slot.recordPreload
  | none => account.putSlot key Slot.preloaded

def recordFetch (account : Account) (key fetched : Word) : Account :=
  match account.slot? key with
  | some slot => account.putSlot key (slot.recordFetch fetched)
  | none => account.putSlot key (Slot.fetched fetched)

def current? (account : Account) (key : Word) : Option Word :=
  (account.slot? key).bind Slot.current

def recordRead (account : Account) (key : Word) : Account :=
  match account.slot? key with
  | some slot => account.putSlot key slot.recordRead
  | none => account

def readKnown? (account : Account) (key : Word) : Option (Word × Account) :=
  (account.current? key).map fun value => (value, account.recordRead key)

/-- Writes a slot. The account then holds local changes, also where its info was never loaded. -/
def writeSlot (account : Account) (key value : Word) : Account :=
  let slot := (account.slot? key).getD Slot.warm
  { account.putSlot key (slot.recordWrite value) with
    status := { account.status with cached := true } }

theorem slot?_putSlot (account : Account) (key other : Word) (slot : Slot) :
    (account.putSlot key slot).slot? other =
      if key = other then some slot else account.slot? other := by
  simp only [slot?, putSlot, Std.ExtTreeMap.getElem?_insert, Std.LawfulEqOrd.compare_eq_iff_eq]

theorem slot?_create (account : Account) (key : Word) :
    account.create.slot? key = (account.slot? key).map Slot.cleared :=
  Std.ExtTreeMap.getElem?_map

theorem isSlotWarm_eq (account : Account) (key : Word) :
    account.isSlotWarm key = (account.slot? key).isSome := by
  rw [slot?, Std.ExtTreeMap.isSome_getElem?_eq_contains, Bool.eq_iff_iff, isSlotWarm,
    decide_eq_true_iff, Std.ExtTreeMap.contains_iff_mem]

/-- Equality that leaves the code bytes aside. -/
def agrees (first second : Account) : Bool :=
  decide (first.address = second.address) && first.info.agrees second.info &&
    decide (first.storage = second.storage) && decide (first.status = second.status)

end Account

end Overlay
