import Overlay.Cache.Access
import Overlay.Config

/-! The operations that execution performs on one cache, each with what it answers. -/

set_option autoImplicit false

namespace Overlay

structure Context (ε : Type) where
  ledger : Ledger ε
  config : Config := {}

inductive Operation where
  | isAccountAlive (address : Address)
  | load (address : Address)
  | readSlot (address : Address) (key : Word)
  | writeSlot (address : Address) (key value : Word)
  | setBalance (address : Address) (balance : Word)
  | setNonce (address : Address) (nonce : UInt64)
  | incNonce (address : Address)
  | setCode (address : Address) (code : Bytes)
  | create (address : Address)
  | selfDestruct (address : Address)
  | transfer (sender recipient : Address) (value : Word)
  | emit (log : Log)
  | warmAddress (address : Address)
  | warmSlot (address : Address) (key : Word)
  | accountCost (address : Address)
  | storageCost (address : Address) (key : Word)
  | preload (list : AccessList)
  | preloadPrecompiles
  deriving DecidableEq

inductive Reply where
  | done
  | alive (alive : Bool)
  | account (load : Load Account)
  | value (load : Load Word)
  | written (load : Load Unit)
  | nonce (nonce : UInt64)
  | transfer (refusal : Option Refusal)
  /-- Whether the address or slot was warm before. -/
  | wasWarm (warm : Bool)
  | cost (load : Load UInt64)
  | gas (gas : UInt64)
  deriving DecidableEq

namespace Operation

variable {ε : Type}

def perform (context : Context ε) (cache : Cache) : Operation → Step ε Reply
  | isAccountAlive address => (cache.isAccountAlive context.ledger address).map .alive
  | load address => (cache.load context.ledger address).map .account
  | readSlot address key => (cache.readSlot context.ledger address key).map .value
  | writeSlot address key value => (cache.writeSlot context.ledger address key value).map .written
  | setBalance address balance =>
    (cache.update context.ledger address (·.setBalance balance)).map fun _ => .done
  | setNonce address nonce => (cache.setNonce context.ledger address nonce).map fun _ => .done
  | incNonce address => (cache.incNonce context.ledger address).map .nonce
  | setCode address code =>
    (cache.update context.ledger address (·.setCode code)).map fun _ => .done
  | create address => (cache.update context.ledger address Account.create).map fun _ => .done
  | selfDestruct address =>
    (cache.update context.ledger address Account.selfDestruct).map fun _ => .done
  | transfer sender recipient value =>
    (cache.transfer context.ledger sender recipient value).map .transfer
  | emit log => .done .done (cache.emit log)
  | warmAddress address => .done (.wasWarm (cache.isWarm address)) (cache.warmAddress address)
  | warmSlot address key =>
    .done (.wasWarm (cache.isSlotWarm address key)) (cache.warmSlot address key)
  | accountCost address =>
    let isCold := !cache.isWarm address
    .done (.cost ⟨context.config.gas.accountCost isCold, isCold⟩) (cache.warmAddress address)
  | storageCost address key =>
    let isCold := !cache.isSlotWarm address key
    .done (.cost ⟨context.config.gas.storageCost isCold, isCold⟩) (cache.warmSlot address key)
  | preload list => .done (.gas (context.config.gas.accessListCost list)) (cache.preload list)
  | preloadPrecompiles => .done .done (cache.preloadAddresses context.config.precompiles)

end Operation

end Overlay
