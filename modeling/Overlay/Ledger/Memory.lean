import Overlay.Ledger

/-! A ledger held in memory. It keeps whole infos and hands them out as they are stored. -/

set_option autoImplicit false

namespace Overlay

structure MemoryLedger.Record where
  info : Info := {}
  /-- The slots that were set. -/
  storage : Std.ExtTreeMap Word Word := ∅
  deriving DecidableEq

structure MemoryLedger where
  accounts : Std.ExtTreeMap Address MemoryLedger.Record := ∅
  deriving DecidableEq

namespace MemoryLedger

def record (ledger : MemoryLedger) (address : Address) : Record :=
  ledger.accounts.getD address {}

def insertInfo (ledger : MemoryLedger) (address : Address) (info : Info) : MemoryLedger where
  accounts := ledger.accounts.insert address { ledger.record address with info }

def insertAccount (ledger : MemoryLedger) (address : Address) (nonce : UInt64) (code : Bytes)
    (balance : Word) : MemoryLedger :=
  ledger.insertInfo address (Info.ofCode balance nonce code)

def insertStorage (ledger : MemoryLedger) (address : Address) (key value : Word) :
    MemoryLedger :=
  let record := ledger.record address
  { accounts := ledger.accounts.insert address
      { record with storage := record.storage.insert key value } }

/-- Never fails. The info of an account is the stored one, its hash not computed again. -/
def toLedger {ε : Type} (ledger : MemoryLedger) : Ledger ε :=
  let elementary : Ledger.Elementary ε :=
    { nonce := fun address => .known (ledger.record address).info.nonce
      codeHash := fun address => .known (ledger.record address).info.codeHash
      balance := fun address => .known (ledger.record address).info.balance
      code := fun address => .known (ledger.record address).info.code
      storage := fun address key => .known (ledger.record address).storage[key]? }
  { Ledger.ofElementary elementary with
    account := fun address => .known (ledger.record address).info }

end MemoryLedger

end Overlay
