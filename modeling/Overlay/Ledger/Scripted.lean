import Overlay.Ledger

/-! A ledger written down as a list of accounts and a list of outages. -/

set_option autoImplicit false

namespace Overlay

inductive Ledger.Method where
  | nonce
  | codeHash
  | balance
  | bytecode
  | storage
  deriving DecidableEq

structure Unavailable where
  method : Ledger.Method
  deriving DecidableEq

def Ledger.Method.name : Ledger.Method → String
  | .nonce => "nonce"
  | .codeHash => "code_hash"
  | .balance => "balance"
  | .bytecode => "bytecode"
  | .storage => "storage"

def Unavailable.message (failure : Unavailable) : String :=
  failure.method.name ++ " unavailable"

namespace ScriptedLedger

structure Entry where
  address : Address
  nonce : UInt64
  balance : Word
  code : Bytes
  codeHash : Hash
  storage : List (Word × Word)
  deriving DecidableEq

/-- The questions of one kind that stay unanswered, about one address or about all. -/
structure Outage where
  method : Ledger.Method
  address : Option Address
  deriving DecidableEq

def Outage.covers (outage : Outage) (method : Ledger.Method) (address : Address) : Bool :=
  decide (outage.method = method) && outage.address.all fun only => decide (only = address)

end ScriptedLedger

structure ScriptedLedger where
  entries : List ScriptedLedger.Entry
  outages : List ScriptedLedger.Outage
  deriving DecidableEq

namespace ScriptedLedger

/-- The last entry of an address counts. -/
def entry? (ledger : ScriptedLedger) (address : Address) : Option Entry :=
  ledger.entries.reverse.find? fun entry => decide (entry.address = address)

def Entry.slot? (entry : Entry) (key : Word) : Option Word :=
  (entry.storage.reverse.find? fun slot => decide (slot.1 = key)).map Prod.snd

def answer {α : Type} (ledger : ScriptedLedger) (method : Ledger.Method) (address : Address)
    (value : Option Entry → α) : Except Unavailable α :=
  if ledger.outages.any fun outage => outage.covers method address then .error ⟨method⟩
  else .ok (value (ledger.entry? address))

def answers (ledger : ScriptedLedger) : Ledger.Answers Unavailable where
  nonce address := ledger.answer .nonce address fun entry => entry.elim 0 Entry.nonce
  codeHash address :=
    ledger.answer .codeHash address fun entry => entry.elim emptyCodeHash Entry.codeHash
  balance address := ledger.answer .balance address fun entry => entry.elim 0 Entry.balance
  code address := ledger.answer .bytecode address fun entry => entry.elim [] Entry.code
  storage address key :=
    ledger.answer .storage address fun entry => entry.bind fun entry => entry.slot? key

def toLedger (ledger : ScriptedLedger) : Ledger Unavailable :=
  Ledger.ofAnswers ledger.answers

end ScriptedLedger

end Overlay
