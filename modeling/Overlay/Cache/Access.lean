import Overlay.Step

/-!
Access to accounts and slots through the cache. What the cache does not know is asked of the ledger
and kept. Every change to an account loads it first, and a change that is refused leaves it loaded.
-/

set_option autoImplicit false

namespace Overlay

inductive Refusal where
  | outOfFunds
  | overflowPayment
  deriving DecidableEq

namespace Refusal

def name : Refusal → String
  | outOfFunds => "OutOfFunds"
  | overflowPayment => "OverflowPayment"

def ofName? (name : String) : Option Refusal :=
  [outOfFunds, overflowPayment].find? fun refusal => refusal.name = name

def message : Refusal → String
  | outOfFunds => "insufficient funds for transfer"
  | overflowPayment => "recipient balance overflow"

theorem ofName?_name (refusal : Refusal) : ofName? refusal.name = some refusal := by
  cases refusal <;> decide

end Refusal

namespace Cache

variable {ε α : Type}

/-- Caches the info of an account and warms its address. A marker keeps its slots. -/
def load (ledger : Ledger ε) (cache : Cache) (address : Address) : Step ε (Load Account) :=
  let isCold := !cache.isWarm address
  if (cache.entry address).status.loaded then
    .done ⟨cache.entry address, isCold⟩ (cache.touch address)
  else
    (Step.ask address (ledger.account address) cache).andThen fun info cache =>
      let account := (cache.entry address).load info
      .done ⟨account, isCold⟩ (cache.setEntry address account)

/-- Whether the account has a nonce, code or a balance. Where the info is not cached the ledger is
asked, and the answer is not kept. -/
def isAccountAlive (ledger : Ledger ε) (cache : Cache) (address : Address) : Step ε Bool :=
  if (cache.entry address).status.loaded then .done (cache.entry address).isAlive cache
  else .ask address (ledger.isAlive address) cache

/-- Reads and warms a slot; one that was never set reads as zero. The address is warmed also where
the ledger fails. The ledger is not asked about the storage of a created account. -/
def readSlot (ledger : Ledger ε) (cache : Cache) (address : Address) (key : Word) :
    Step ε (Load Word) :=
  let account := cache.entry address
  let isCold := !account.isSlotWarm key
  match account.readKnown? key with
  | some (value, read) => .done ⟨value, isCold⟩ (cache.setEntry address read)
  | none =>
    let found : Step ε (Option Word) :=
      if account.status.created then .done none (cache.touch address)
      else .ask address (ledger.storage address key) (cache.touch address)
    found.andThen fun value cache =>
      let fetched := value.getD 0
      let recorded := account.recordFetch key fetched
      .done ⟨(recorded.current? key).getD fetched, isCold⟩ (cache.setEntry address recorded)

def change (ledger : Ledger ε) (cache : Cache) (address : Address)
    (attempt : Account → Except (Fault ε) (α × Account)) : Step ε α :=
  (cache.load ledger address).andThen fun load cache =>
    match attempt load.data with
    | .error fault => .fault fault cache
    | .ok (value, account) => .done value (cache.putAccount address account)

def update (ledger : Ledger ε) (cache : Cache) (address : Address) (f : Account → Account) :
    Step ε Unit :=
  cache.change ledger address fun account => .ok ((), f account)

def writeSlot (ledger : Ledger ε) (cache : Cache) (address : Address) (key value : Word) :
    Step ε (Load Unit) :=
  cache.change ledger address fun account =>
    .ok (⟨(), !account.isSlotWarm key⟩, account.writeSlot key value)

def setNonce (ledger : Ledger ε) (cache : Cache) (address : Address) (nonce : UInt64) :
    Step ε Unit :=
  cache.change ledger address fun account =>
    match account.setNonce? nonce with
    | some changed => .ok ((), changed)
    | none => .error .nonceDecreased

def incNonce (ledger : Ledger ε) (cache : Cache) (address : Address) : Step ε UInt64 :=
  cache.change ledger address fun account =>
    match account.incNonce? with
    | some changed => .ok (changed.info.nonce, changed)
    | none => .error (.nonceOverflow address)

/-- Moves value between two accounts, both of which are loaded first. A refused transfer changes no
balance. The sender needs the funds also when it pays itself. -/
def transfer (ledger : Ledger ε) (cache : Cache) (sender recipient : Address) (value : Word) :
    Step ε (Option Refusal) :=
  (cache.load ledger sender).andThen fun payer cache =>
  (cache.load ledger recipient).andThen fun payee cache =>
    match payer.data.info.balance.checkedSub value with
    | none => .done (some .outOfFunds) cache
    | some remaining =>
      if value = 0 ∨ sender = recipient then .done none cache
      else
        match payee.data.info.balance.checkedAdd value with
        | none => .done (some .overflowPayment) cache
        | some increased =>
          let paid := (cache.putAccount sender (payer.data.setBalance remaining)).putAccount
            recipient (payee.data.setBalance increased)
          .done none (paid.recordTransfer { sender, recipient, value })

end Cache

end Overlay
