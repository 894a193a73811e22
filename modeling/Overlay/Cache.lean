import Overlay.Account
import Overlay.Gas
import Overlay.InsertionMap
import Overlay.InsertionSet

/-!
The cache of one transaction: accounts, warm addresses, logs and transfers. Nothing here asks the
ledger. A nested call runs on a `fork`, which is then taken over by `commit` or dropped.
-/

set_option autoImplicit false

namespace Overlay

/-- What was loaded, and whether this was the first access of the transaction. -/
structure Load (α : Type) where
  data : α
  isCold : Bool
  deriving DecidableEq

structure Log where
  address : Address
  topics : List Hash
  data : Bytes
  deriving DecidableEq

structure Transfer where
  sender : Address
  recipient : Address
  value : Word
  deriving DecidableEq

/-- How many logs and transfers there are. -/
structure Extent where
  logs : Nat := 0
  transfers : Nat := 0
  deriving DecidableEq

/-- Cached accounts by address, in the order they were first cached. -/
abbrev Accounts := InsertionMap Address Account

structure Cache where
  accounts : Accounts := ∅
  warm : InsertionSet Address := ∅
  logs : List Log := []
  transfers : List Transfer := []
  /-- The logs and transfers that were there when the cache was forked. -/
  inherited : Extent := {}
  deriving DecidableEq

/-- What a finished transaction hands over to its ledger. -/
structure Output where
  accounts : Accounts := ∅
  logs : List Log := []
  transfers : List Transfer := []
  deriving DecidableEq

/-- The same accounts in any order, their code bytes left aside. -/
def Accounts.agrees (first second : Accounts) : Bool :=
  InsertionMap.agrees Account.agrees first second

namespace Cache

def account? (cache : Cache) (address : Address) : Option Account :=
  cache.accounts.get? address

/-- The cached account, or the marker that stands for one. -/
def entry (cache : Cache) (address : Address) : Account :=
  (cache.account? address).getD (Account.marker address)

def isWarm (cache : Cache) (address : Address) : Bool :=
  decide (address ∈ cache.warm)

def isSlotWarm (cache : Cache) (address : Address) (key : Word) : Bool :=
  (cache.account? address).any fun account => account.isSlotWarm key

def putAccount (cache : Cache) (address : Address) (account : Account) : Cache :=
  { cache with accounts := cache.accounts.insert address account }

def warmAddress (cache : Cache) (address : Address) : Cache :=
  { cache with warm := cache.warm.insert address }

def setEntry (cache : Cache) (address : Address) (account : Account) : Cache :=
  (cache.warmAddress address).putAccount address account

def touch (cache : Cache) (address : Address) : Cache :=
  cache.setEntry address (cache.entry address)

def edit {α : Type} (cache : Cache) (address : Address) (change : Account → α × Account) :
    Load α × Cache :=
  let (data, account) := change (cache.entry address)
  (⟨data, !cache.isWarm address⟩, cache.setEntry address account)

def warmSlot (cache : Cache) (address : Address) (key : Word) : Cache :=
  cache.setEntry address ((cache.entry address).warmSlot key)

theorem account?_putAccount (cache : Cache) (address other : Address) (account : Account) :
    (cache.putAccount address account).account? other =
      if address = other then some account else cache.account? other :=
  InsertionMap.get?_insert cache.accounts address other account

theorem account?_setEntry (cache : Cache) (address other : Address) (account : Account) :
    (cache.setEntry address account).account? other =
      if address = other then some account else cache.account? other :=
  account?_putAccount _ address other account

theorem entry_setEntry (cache : Cache) (address other : Address) (account : Account) :
    (cache.setEntry address account).entry other =
      if address = other then account else cache.entry other := by
  rw [entry, account?_setEntry]
  split <;> rfl

theorem entry_touch (cache : Cache) (address other : Address) :
    (cache.touch address).entry other = cache.entry other := by
  rw [touch, entry_setEntry]
  split
  · next same => rw [same]
  · rfl

theorem mem_warm_setEntry {cache : Cache} {address other : Address} {account : Account} :
    other ∈ (cache.setEntry address account).warm ↔ other ∈ cache.warm ∨ other = address :=
  InsertionSet.mem_insert

def emit (cache : Cache) (log : Log) : Cache :=
  { cache with logs := cache.logs ++ [log] }

def recordTransfer (cache : Cache) (transfer : Transfer) : Cache :=
  { cache with transfers := cache.transfers ++ [transfer] }

def preloadAddresses (cache : Cache) (addresses : List Address) : Cache :=
  addresses.foldl touch cache

def preloadEntry (cache : Cache) (entry : AccessList.Entry) : Cache :=
  cache.setEntry entry.address <|
    entry.keys.foldl (fun account key => account.preloadSlot (Word.ofHash key))
      (cache.entry entry.address)

def preload (cache : Cache) (list : AccessList) : Cache :=
  list.foldl preloadEntry cache

def extent (cache : Cache) : Extent where
  logs := cache.logs.length
  transfers := cache.transfers.length

def fork (cache : Cache) : Cache :=
  { cache with inherited := cache.extent }

/-- Takes over a child: its accounts replace those of the parent, its warm addresses are added, and
the logs and transfers that it did not inherit are appended. -/
def commit (parent child : Cache) : Cache :=
  { parent with
    accounts := parent.accounts.union child.accounts
    warm := parent.warm.union child.warm
    logs := parent.logs ++ child.logs.drop child.inherited.logs
    transfers := parent.transfers ++ child.transfers.drop child.inherited.transfers }

def output (cache : Cache) : Output where
  accounts := cache.accounts.filter fun _ account => account.status.cached
  logs := cache.logs
  transfers := cache.transfers

def takeOutput (cache : Cache) : Output × Cache := (cache.output, {})

/-- Equality that leaves aside the order of accounts and warm addresses, and the code bytes. -/
def agrees (first second : Cache) : Bool :=
  first.accounts.agrees second.accounts && first.warm.agrees second.warm &&
    decide (first.logs = second.logs) && decide (first.transfers = second.transfers) &&
    decide (first.inherited = second.inherited)

end Cache

end Overlay
