import Overlay.Proofs.Operation

/-!
What an operation on one account can do to a cache: nothing, warm the address, or revise the entry.
What is at other addresses stays as it is, so effects at different addresses come in any order.
-/

set_option autoImplicit false

namespace Overlay

variable {ε : Type}

/-- The same cache up to the order of the entries and of the warm addresses. -/
structure Cache.Equiv (first second : Cache) : Prop where
  accounts : first.accounts.Equiv second.accounts
  warm : ∀ address, address ∈ first.warm ↔ address ∈ second.warm
  logs : first.logs = second.logs
  transfers : first.transfers = second.transfers
  inherited : first.inherited = second.inherited

theorem Cache.Equiv.refl (cache : Cache) : cache.Equiv cache :=
  ⟨fun _ => rfl, fun _ => Iff.rfl, rfl, rfl, rfl⟩

/-- All that an operation on one account can do to the cache. -/
inductive Effect where
  | idle
  | warm
  | revise (f : Account → Account)

namespace Effect

def apply (address : Address) (cache : Cache) : Effect → Cache
  | idle => cache
  | warm => cache.warmAddress address
  | revise f => cache.setEntry address (f (cache.entry address))

def account? (address : Address) (cached : Option Account) : Effect → Option Account
  | idle | warm => cached
  | revise f => some (f (cached.getD (Account.marker address)))

def warms : Effect → Bool
  | idle => false
  | warm | revise _ => true

variable (effect other : Effect) (cache : Cache) {address distant : Address}

theorem account?_apply (distant : Address) :
    (effect.apply address cache).account? distant =
      if address = distant then effect.account? address (cache.account? address)
      else cache.account? distant := by
  cases effect with
  | idle | warm =>
    split
    · next same => exact same ▸ rfl
    · rfl
  | revise f => exact cache.account?_setEntry address distant _

theorem mem_warm_apply (distant : Address) :
    distant ∈ (effect.apply address cache).warm ↔
      distant ∈ cache.warm ∨ effect.warms = true ∧ distant = address := by
  cases effect with
  | idle => simp [apply, warms]
  | warm => simp [apply, warms, Cache.warmAddress, InsertionSet.mem_insert]
  | revise f => simp [apply, warms, Cache.mem_warm_setEntry]

section Apart

variable (apart : address ≠ distant)

include apart

theorem entry_apply_of_ne :
    (effect.apply address cache).entry distant = cache.entry distant := by
  rw [Cache.entry, account?_apply, if_neg apart, Cache.entry]

theorem isWarm_apply_of_ne :
    (effect.apply address cache).isWarm distant = cache.isWarm distant := by
  simp [Cache.isWarm, mem_warm_apply, apart.symm]

theorem apply_comm :
    (effect.apply address (other.apply distant cache)).Equiv
      (other.apply distant (effect.apply address cache)) where
  accounts place := by
    change Cache.account? _ place = Cache.account? _ place
    simp only [account?_apply, if_neg apart, if_neg apart.symm]
    split
    · next same => rw [if_neg (same ▸ apart.symm)]
    · rfl
  warm place := by
    simp only [mem_warm_apply]
    exact or_right_comm
  logs := by cases effect <;> cases other <;> rfl
  transfers := by cases effect <;> cases other <;> rfl
  inherited := by cases effect <;> cases other <;> rfl

end Apart

end Effect

namespace Operation

def address? : Operation → Option Address
  | isAccountAlive address | load address | readSlot address _ | writeSlot address _ _
  | setBalance address _ | setNonce address _ | incNonce address | setCode address _
  | create address | selfDestruct address | warmAddress address | warmSlot address _
  | accountCost address | storageCost address _ => some address
  | transfer _ _ _ | emit _ | preload _ | preloadPrecompiles => none

theorem address?_of_change {operation : Operation} {address : Address} {action : Account.Action}
    (changes : operation.change? = some (address, action)) : operation.address? = some address := by
  cases operation <;> cases changes <;> rfl

structure Acts (context : Context ε) (cache : Cache) (operation : Operation) (address : Address)
    (result : Except (Fault ε) Reply) (effect : Effect) : Prop where
  result : (operation.perform context cache).result = result
  cache : (operation.perform context cache).cache = effect.apply address cache

theorem acts_of_step {context : Context ε} {cache : Cache} {operation : Operation}
    {address : Address} {result : Except (Fault ε) Reply} {effect : Effect} {step : Step ε Reply}
    (performed : operation.perform context cache = step) (answer : step.result = result)
    (left : step.cache = effect.apply address cache) :
    operation.Acts context cache address result effect where
  result := by rw [performed, answer]
  cache := by rw [performed, left]

end Operation

end Overlay
