import Overlay.Word

/-!
One cached storage slot: the value at the start of the transaction, the current value, both absent
until they are known, and how the slot was accessed.
-/

set_option autoImplicit false

namespace Overlay

structure Access where
  read : Bool := false
  written : Bool := false
  /-- Declared in the access list of the transaction. -/
  preloaded : Bool := false
  /-- The five bits without a meaning. -/
  reserved : BitVec 5 := 0
  deriving DecidableEq

namespace Access

def toByte (access : Access) : UInt8 :=
  UInt8.ofNat (access.read.toNat + 2 * access.written.toNat + 4 * access.preloaded.toNat +
    8 * access.reserved.toNat)

def ofByte (byte : UInt8) : Access where
  read := byte.toNat.testBit 0
  written := byte.toNat.testBit 1
  preloaded := byte.toNat.testBit 2
  reserved := BitVec.ofNat 5 (byte.toNat / 8)

theorem ofByte_toByte (access : Access) : ofByte access.toByte = access := by
  have all : ∀ (read written preloaded : Bool) (reserved : BitVec 5),
      ofByte (toByte ⟨read, written, preloaded, reserved⟩) =
        ⟨read, written, preloaded, reserved⟩ := by decide +kernel
  exact all access.read access.written access.preloaded access.reserved

end Access

structure Slot where
  initial : Option Word := none
  current : Option Word := none
  access : Access := {}
  deriving DecidableEq

namespace Slot

def warm : Slot := {}

def preloaded : Slot := { access := { preloaded := true } }

def fetched (value : Word) : Slot :=
  { initial := some value, current := some value, access := { read := true } }

/-- Records a read; what is known already wins over the fetched value. -/
def recordFetch (slot : Slot) (value : Word) : Slot where
  initial := slot.initial.or (some value)
  current := slot.current.or (some value)
  access := { slot.access with read := true }

def recordRead (slot : Slot) : Slot :=
  { slot with access := { slot.access with read := true } }

def recordWrite (slot : Slot) (value : Word) : Slot :=
  { slot with current := some value, access := { slot.access with written := true } }

def recordPreload (slot : Slot) : Slot :=
  { slot with access := { slot.access with preloaded := true } }

def cleared (slot : Slot) : Slot :=
  { slot with initial := some 0, current := some 0 }

/-- Whether the slot was written and differs from the start of the transaction; a written slot
whose initial value was never fetched counts as changed. -/
def isChanged (slot : Slot) : Bool :=
  slot.access.written && decide (slot.initial ≠ slot.current)

end Slot

/-- The cached slots of an account; a slot is warm when it has an entry. -/
abbrev Storage := Std.ExtTreeMap Word Slot

end Overlay
