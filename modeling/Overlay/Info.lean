import Overlay.Word
import Overlay.Keccak

/-! What a ledger knows about an account: balance, nonce, code and the hash of the code. -/

set_option autoImplicit false

namespace Overlay

/-- The Keccak-256 hash of no bytes at all. -/
def emptyCodeHash : Hash :=
  FixedBytes.ofNat 32 0xc5d2460186f7233c927e7db2dcc703c0e500b653ca82273b7bfad8045d85a470

def codeHashOf (code : Bytes) : Hash :=
  if code.isEmpty then emptyCodeHash else keccak256 code

structure Info where
  balance : Word := 0
  nonce : UInt64 := 0
  codeHash : Hash := emptyCodeHash
  code : Bytes := []
  deriving DecidableEq

namespace Info

instance : Inhabited Info := ⟨{}⟩

def ofCode (balance : Word) (nonce : UInt64) (code : Bytes) : Info :=
  { balance, nonce, codeHash := codeHashOf code, code }

/-- Takes a hash that is already known. A wrong one is refused by a debug assertion; in a release
build it is up to the caller that it is the hash of the code. -/
def ofCodeAndHash? (balance : Word) (nonce : UInt64) (code : Bytes) (codeHash : Hash) :
    Option Info :=
  if codeHashOf code = codeHash then some { balance, nonce, codeHash, code } else none

def ofBalance (balance : Word) : Info := { balance }

def setCode (info : Info) (code : Bytes) : Info :=
  { info with codeHash := codeHashOf code, code }

def Coherent (info : Info) : Prop :=
  info.codeHash = codeHashOf info.code

instance (info : Info) : Decidable info.Coherent :=
  inferInstanceAs (Decidable (info.codeHash = codeHashOf info.code))

def hasEmptyCodeHash (info : Info) : Bool :=
  decide (info.codeHash = emptyCodeHash)

def isEmpty (info : Info) : Bool :=
  info.code.isEmpty && decide (info.balance = 0) && decide (info.nonce = 0)

def isAlive (info : Info) : Bool := !info.isEmpty

/-- Neither code, by its hash, nor a nonce: a contract may be created here. -/
def hasNoCodeOrNonce (info : Info) : Bool :=
  info.hasEmptyCodeHash && decide (info.nonce = 0)

/-- Equality that trusts the hash and leaves the code bytes aside. -/
def agrees (first second : Info) : Bool :=
  decide (first.balance = second.balance) && decide (first.nonce = second.nonce) &&
    decide (first.codeHash = second.codeHash)

theorem coherent_ofCode (balance : Word) (nonce : UInt64) (code : Bytes) :
    (ofCode balance nonce code).Coherent := rfl

theorem coherent_setCode (info : Info) (code : Bytes) : (info.setCode code).Coherent := rfl

theorem coherent_default : (default : Info).Coherent := rfl

end Info

end Overlay
