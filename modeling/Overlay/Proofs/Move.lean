import Mathlib.Logic.Relation
import Overlay.Proofs.Operation

/-!
Every operation is a sequence of single moves: an address is warmed, an entry is touched or goes
through one action, a log or a transfer is added. What each move keeps, every operation keeps, and
so does every cache that can be reached.
-/

set_option autoImplicit false

namespace Overlay

variable {ε : Type}

/-- What a cache asks of an account before it lets it go through an action: only a loaded account is
changed, and what is recorded as fetched comes from the ledger. -/
def Account.Action.Admissible (ledger : Ledger ε) (address : Address) (account : Account) :
    Account.Action → Prop
  | .load info => ledger.Supplies address account info
  | .recordFetch key fetched => ledger.Fills address account key fetched
  | .warmSlot _ | .preloadSlot _ | .readKnown _ => True
  | .setBalance _ | .setNonce _ | .incNonce | .setCode _ | .create | .selfDestruct
  | .writeSlot _ _ => account.status.loaded = true

inductive Move (ledger : Ledger ε) (cache : Cache) : Cache → Prop where
  | warm (address : Address) : Move ledger cache (cache.warmAddress address)
  | touch (address : Address) : Move ledger cache (cache.touch address)
  | act (address : Address) (action : Account.Action)
      (admissible : action.Admissible ledger address (cache.entry address)) :
      Move ledger cache (cache.setEntry address ((cache.entry address).perform action).2)
  | emit (log : Log) : Move ledger cache (cache.emit log)
  | record (transfer : Transfer) : Move ledger cache (cache.recordTransfer transfer)

theorem Move.entry {ledger : Ledger ε} {before after : Cache} (move : Move ledger before after)
    (address : Address) :
    after.entry address = before.entry address ∨
      ∃ action, action.Admissible ledger address (before.entry address) ∧
        after.entry address = ((before.entry address).perform action).2 := by
  cases move with
  | warm | emit | record => exact .inl rfl
  | touch touched => exact .inl (before.entry_touch touched address)
  | act acting action admissible =>
    rw [Cache.entry_setEntry]
    split
    · next same =>
      subst same
      exact .inr ⟨action, admissible, rfl⟩
    · exact .inl rfl

def Moves (ledger : Ledger ε) : Cache → Cache → Prop :=
  Relation.ReflTransGen (Move ledger)

theorem Moves.invariant {ledger : Ledger ε} {Holds : Cache → Prop}
    (keeps : ∀ before after, Move ledger before after → Holds before → Holds after)
    {before after : Cache} (moves : Moves ledger before after) (holds : Holds before) :
    Holds after := by
  induction moves with
  | refl => exact holds
  | tail _ move ih => exact keeps _ _ move ih

-- What no action takes away from an account, no move takes away from an entry.
theorem Moves.entry_invariant {ledger : Ledger ε} {P : Account → Prop}
    (act : ∀ account action, P account → P (account.perform action).2) {before after : Cache}
    (moves : Moves ledger before after) (address : Address) (holds : P (before.entry address)) :
    P (after.entry address) := by
  have step : ∀ before after, Move ledger before after → P (before.entry address) →
      P (after.entry address) := by
    intro before after move holds
    rcases move.entry address with same | ⟨action, _, same⟩
    · rwa [same]
    · rw [same]
      exact act _ action holds
  exact moves.invariant step holds

namespace Cache

variable (ledger : Ledger ε) (cache : Cache) (address : Address)

theorem moves_setLoaded {info : Info}
    (supplied : ledger.Supplies address (cache.entry address) info) :
    Moves ledger cache (cache.setEntry address ((cache.entry address).load info)) :=
  .single (.act address (.load info) supplied)

theorem moves_load : Moves ledger cache (cache.load ledger address).cache := by
  have outcome := cache.load_outcome ledger address
  generalize cache.load ledger address = step at outcome ⊢
  cases outcome with
  | failed => exact .refl
  | answered info supplied => exact cache.moves_setLoaded ledger address supplied

theorem moves_readSlot (key : Word) :
    Moves ledger cache (cache.readSlot ledger address key).cache := by
  have outcome := cache.readSlot_outcome ledger address key
  generalize cache.readSlot ledger address key = step at outcome ⊢
  cases outcome with
  | known value known =>
    have reading : Move ledger cache _ := .act address (.readKnown key) trivial
    simp only [Account.perform, Account.readKnown?_eq, known, Option.map_some] at reading
    exact .single reading
  | fetched value unknown filled =>
    have fetching := Move.act address (.recordFetch key value) filled
    simp only [Account.perform, Account.recordFetch_eq_editSlot] at fetching
    exact .single fetching
  | failed => exact .single (.touch address)

theorem moves_transfer (sender recipient : Address) (value : Word) :
    Moves ledger cache (cache.transfer ledger sender recipient value).cache := by
  have outcome := cache.transfer_outcome ledger sender recipient value
  generalize cache.transfer ledger sender recipient value = step at outcome ⊢
  have loads : ∀ info payer info' payee, ledger.Supplies sender (cache.entry sender) info →
      payer = (cache.entry sender).load info →
      ledger.Supplies recipient ((cache.setEntry sender payer).entry recipient) info' →
      payee = ((cache.setEntry sender payer).entry recipient).load info' →
      Moves ledger cache (cache.loadBoth sender recipient payer payee) := by
    rintro info _ info' _ supplied rfl supplied' rfl
    exact (cache.moves_setLoaded ledger sender supplied).trans
      (moves_setLoaded ledger _ recipient supplied')
  cases outcome with
  | senderFailed => exact .refl
  | recipientFailed info supplied payer loaded =>
    exact loaded ▸ cache.moves_setLoaded ledger sender supplied
  | unmoved info supplied payer loaded info' supplied' payee loaded' =>
    exact loads info payer info' payee supplied loaded supplied' loaded'
  | moved info supplied payer loaded info' supplied' payee loaded' funds moving room =>
    have different : sender ≠ recipient := fun same => moving (.inr same)
    have loading := loads info payer info' payee supplied loaded supplied' loaded'
    have held := cache.entry_loadBoth_sender payer payee different
    have received := cache.entry_loadBoth_recipient payer payee different
    have paying : Move ledger (cache.loadBoth sender recipient payer payee) _ :=
      .act sender (.setBalance (payer.info.balance - value))
        (by rw [held, loaded]; simp [Account.Action.Admissible])
    rw [held] at paying
    have earning : Move ledger ((cache.loadBoth sender recipient payer payee).setEntry sender
        (payer.setBalance (payer.info.balance - value))) _ :=
      .act recipient (.setBalance (payee.info.balance + value))
        (by rw [received, loaded']; simp [Account.Action.Admissible])
    rw [received] at earning
    -- The loads, the payment on either side and the record of it.
    exact ((loading.tail paying).tail earning).tail (.record _)

theorem moves_preloadAddresses (addresses : List Address) :
    Moves ledger cache (cache.preloadAddresses addresses) :=
  preloadAddresses_invariant (fun _ address moves => moves.tail (.touch address)) cache addresses
    .refl

theorem moves_preload (list : AccessList) : Moves ledger cache (cache.preload list) :=
  preload_invariant (fun _ address moves => moves.tail (.touch address))
    (fun _ address key moves => moves.tail (.act address (.preloadSlot key) trivial)) cache list
    .refl

theorem moves_warmSlot (key : Word) : Moves ledger cache (cache.warmSlot address key) :=
  .single (.act address (.warmSlot key) trivial)

end Cache

namespace Operation

-- A change takes two moves: the load and the action, which a refusal makes an idle one.
theorem moves_change (context : Context ε) (cache : Cache) {operation : Operation}
    {address : Address} {action : Account.Action}
    (changes : operation.change? = some (address, action)) :
    Moves context.ledger cache (operation.perform context cache).cache := by
  have outcome := operation.change_outcome context cache changes
  generalize operation.perform context cache = step at outcome ⊢
  cases outcome with
  | failed => exact .refl
  | performed info supplied account loaded =>
    have loading := loaded ▸ cache.moves_setLoaded context.ledger address supplied
    have ready : account.status.loaded = true := by simp [loaded]
    have admissible : action.Admissible context.ledger address account := by
      cases operation <;> cases changes <;> exact ready
    have acting : Move context.ledger (cache.setEntry address account) _ :=
      .act address action (by rwa [Cache.entry_setEntry_self])
    rw [Cache.entry_setEntry_self, Cache.setEntry_setEntry] at acting
    exact loading.tail acting

/-- Every operation is a sequence of moves, also one that ends in a fault. -/
theorem moves_perform (context : Context ε) (cache : Cache) (operation : Operation) :
    Moves context.ledger cache (operation.perform context cache).cache := by
  cases operation.view with
  | change _ address action changes => exact operation.moves_change context cache changes
  | isAccountAlive address =>
    have same := cache.cache_isAccountAlive context.ledger address
    show Moves context.ledger cache (cache.isAccountAlive context.ledger address).cache
    rw [same]
    exact .refl
  | load address => exact cache.moves_load context.ledger address
  | readSlot address key => exact cache.moves_readSlot context.ledger address key
  | transfer sender recipient value =>
    exact cache.moves_transfer context.ledger sender recipient value
  | emit log => exact .single (.emit log)
  | warmAddress address => exact .single (.warm address)
  | warmSlot address key => exact cache.moves_warmSlot context.ledger address key
  | accountCost address => exact .single (.warm address)
  | storageCost address key => exact cache.moves_warmSlot context.ledger address key
  | preload list => exact cache.moves_preload context.ledger list
  | preloadPrecompiles => exact cache.moves_preloadAddresses context.ledger _

end Operation

end Overlay
