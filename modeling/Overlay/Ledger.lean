import Overlay.Info

/-!
The ledger behind a cache: a read-only view of all accounts at the start of a transaction. A ledger
answers five elementary questions, which may fail, and two composed ones: the whole info of an
account and whether the account is alive. Every answer comes with the queries that were sent for it.
-/

set_option autoImplicit false

namespace Overlay

inductive Query where
  | nonce (address : Address)
  | codeHash (address : Address)
  | balance (address : Address)
  | code (address : Address)
  | storage (address : Address) (key : Word)
  deriving DecidableEq

def Query.address : Query → Address
  | .nonce address | .codeHash address | .balance address | .code address
  | .storage address _ => address

/-- An answer and the queries it took, in the order they were sent, the failing one included. -/
structure Fetch (ε α : Type) where
  queries : List Query
  result : Except ε α

namespace Fetch

variable {ε α β : Type}

def known (value : α) : Fetch ε α := ⟨[], .ok value⟩

def sent (query : Query) (result : Except ε α) : Fetch ε α := ⟨[query], result⟩

def andThen (first : Fetch ε α) (next : α → Fetch ε β) : Fetch ε β :=
  match first.result with
  | .error cause => ⟨first.queries, .error cause⟩
  | .ok value => ⟨first.queries ++ (next value).queries, (next value).result⟩

instance : Monad (Fetch ε) where
  pure := known
  bind := andThen

end Fetch

/-- The elementary questions. Unknown accounts have nonce and balance zero, no code and no storage;
the code hash of an account without code may also be zero. -/
structure Ledger.Elementary (ε : Type) where
  nonce : Address → Fetch ε UInt64
  codeHash : Address → Fetch ε Hash
  balance : Address → Fetch ε Word
  code : Address → Fetch ε Bytes
  /-- The value of a slot; none if the slot was never set. -/
  storage : Address → Word → Fetch ε (Option Word)

structure Ledger (ε : Type) extends Ledger.Elementary ε where
  account : Address → Fetch ε Info
  isAlive : Address → Fetch ε Bool

namespace Ledger

variable {ε : Type}

namespace Elementary

def gather (ledger : Elementary ε) (address : Address) : Fetch ε Info := do
  let balance ← ledger.balance address
  let nonce ← ledger.nonce address
  let code ← ledger.code address
  return Info.ofCode balance nonce code

/-- Looks for a nonce, then for code by its hash alone, then for a balance. -/
def probe (ledger : Elementary ε) (address : Address) : Fetch ε Bool := do
  let nonce ← ledger.nonce address
  if nonce ≠ 0 then return true
  let codeHash ← ledger.codeHash address
  if codeHash ≠ emptyCodeHash ∧ codeHash ≠ FixedBytes.zero 32 then return true
  let balance ← ledger.balance address
  return decide (balance ≠ 0)

end Elementary

def ofElementary (ledger : Elementary ε) : Ledger ε :=
  { ledger with account := ledger.gather, isAlive := ledger.probe }

def empty : Ledger ε :=
  ofElementary
    { nonce := fun _ => .known 0
      codeHash := fun _ => .known emptyCodeHash
      balance := fun _ => .known 0
      code := fun _ => .known []
      storage := fun _ _ => .known none }

/-- Passes the elementary questions on to whichever ledger there is and composes the rest itself. -/
def ofSum : Ledger ε ⊕ Ledger ε → Ledger ε
  | .inl ledger => ofElementary ledger.toElementary
  | .inr ledger => ofElementary ledger.toElementary

structure Answers (ε : Type) where
  nonce : Address → Except ε UInt64
  codeHash : Address → Except ε Hash
  balance : Address → Except ε Word
  code : Address → Except ε Bytes
  storage : Address → Word → Except ε (Option Word)

/-- A ledger that is asked for one elementary answer at a time, every question on record. -/
def ofAnswers (answers : Answers ε) : Ledger ε :=
  ofElementary
    { nonce := fun address => .sent (.nonce address) (answers.nonce address)
      codeHash := fun address => .sent (.codeHash address) (answers.codeHash address)
      balance := fun address => .sent (.balance address) (answers.balance address)
      code := fun address => .sent (.code address) (answers.code address)
      storage := fun address key => .sent (.storage address key) (answers.storage address key) }

end Ledger

end Overlay
