import Overlay.Operation
import Overlay.Proofs.Access

/-!
Operations by what they do. Seven of them load one account and take it through an action; a refused
action leaves the account loaded and no more. All other operations stand for themselves.
-/

set_option autoImplicit false

namespace Overlay

variable {ε α : Type}

def Account.Reply.answer (address : Address) : Account.Reply → Except (Fault ε) Overlay.Reply
  | .done | .value _ => .ok .done
  | .nonce (some next) => .ok (.nonce next)
  | .nonce none => .error (.nonceOverflow address)
  | .nonceDecreased => .error .nonceDecreased
  | .wasWarm warm => .ok (.written ⟨(), !warm⟩)

namespace Operation

def change? : Operation → Option (Address × Account.Action)
  | .writeSlot address key value => some (address, .writeSlot key value)
  | .setBalance address balance => some (address, .setBalance balance)
  | .setNonce address nonce => some (address, .setNonce nonce)
  | .incNonce address => some (address, .incNonce)
  | .setCode address code => some (address, .setCode code)
  | .create address => some (address, .create)
  | .selfDestruct address => some (address, .selfDestruct)
  | _ => none

inductive View : Operation → Prop where
  | change (operation : Operation) (address : Address) (action : Account.Action)
      (changes : operation.change? = some (address, action)) : View operation
  | isAccountAlive (address : Address) : View (.isAccountAlive address)
  | load (address : Address) : View (.load address)
  | readSlot (address : Address) (key : Word) : View (.readSlot address key)
  | transfer (sender recipient : Address) (value : Word) : View (.transfer sender recipient value)
  | emit (log : Log) : View (.emit log)
  | warmAddress (address : Address) : View (.warmAddress address)
  | warmSlot (address : Address) (key : Word) : View (.warmSlot address key)
  | accountCost (address : Address) : View (.accountCost address)
  | storageCost (address : Address) (key : Word) : View (.storageCost address key)
  | preload (list : AccessList) : View (.preload list)
  | preloadPrecompiles : View .preloadPrecompiles

theorem view : (operation : Operation) → operation.View
  | .isAccountAlive address => .isAccountAlive address
  | .load address => .load address
  | .readSlot address key => .readSlot address key
  | .transfer sender recipient value => .transfer sender recipient value
  | .emit log => .emit log
  | .warmAddress address => .warmAddress address
  | .warmSlot address key => .warmSlot address key
  | .accountCost address => .accountCost address
  | .storageCost address key => .storageCost address key
  | .preload list => .preload list
  | .preloadPrecompiles => .preloadPrecompiles
  | .writeSlot .. | .setBalance .. | .setNonce .. | .incNonce .. | .setCode .. | .create ..
  | .selfDestruct .. => .change _ _ _ rfl

end Operation

inductive ActionOutcome (ledger : Ledger ε) (cache : Cache) (address : Address)
    (action : Account.Action) : Step ε Reply → Prop where
  | performed (info : Info) (supplied : ledger.Supplies address (cache.entry address) info)
      (account : Account) (loaded : account = (cache.entry address).load info) :
      ActionOutcome ledger cache address action
        { result := (account.perform action).1.answer address
          cache := cache.setEntry address (account.perform action).2
          queries := cache.loadQueries ledger address }
  | failed (cause : ε) (unloaded : (cache.entry address).status.loaded = false)
      (failure : (ledger.account address).result = .error cause) :
      ActionOutcome ledger cache address action
        { result := .error (.unanswered address cause)
          cache := cache
          queries := cache.loadQueries ledger address }

theorem Cache.change_action (ledger : Ledger ε) (cache : Cache) (address : Address)
    (action : Account.Action) (attempt : Account → Except (Fault ε) (α × Account)) (f : α → Reply)
    (accepts : ∀ account value changed, attempt account = .ok (value, changed) →
      (account.perform action).1.answer address = (.ok (f value) : Except (Fault ε) Reply) ∧
        (account.perform action).2 = changed)
    (refuses : ∀ account fault, attempt account = .error fault →
      (account.perform action).1.answer address = (.error fault : Except (Fault ε) Reply) ∧
        (account.perform action).2 = account) :
    ActionOutcome ledger cache address action ((cache.change ledger address attempt).map f) := by
  have outcome := cache.change_outcome ledger address attempt
  generalize cache.change ledger address attempt = step at outcome ⊢
  cases outcome with
  | failed cause unloaded failure => exact .failed cause unloaded failure
  | done info supplied value changed accepted =>
    obtain ⟨answer, same⟩ := accepts _ _ _ accepted
    have performed : ActionOutcome ledger cache address action _ := .performed info supplied _ rfl
    rw [answer, same] at performed
    exact performed
  | refused info supplied fault refusal =>
    obtain ⟨answer, same⟩ := refuses _ _ refusal
    have performed : ActionOutcome ledger cache address action _ := .performed info supplied _ rfl
    rw [answer, same] at performed
    exact performed

theorem Operation.change_outcome (context : Context ε) (cache : Cache) {operation : Operation}
    {address : Address} {action : Account.Action}
    (changes : operation.change? = some (address, action)) :
    ActionOutcome context.ledger cache address action (operation.perform context cache) := by
  cases operation <;> cases changes
  case setNonce nonce =>
    apply cache.change_action context.ledger address
    · intro account _ changed accepted
      cases allowed : account.setNonce? nonce with
      | none => simp [allowed] at accepted
      | some next => simp_all [Account.perform, Account.Reply.answer]
    · intro account fault refused
      cases allowed : account.setNonce? nonce with
      | none => simp_all [Account.perform, Account.Reply.answer]
      | some next => simp [allowed] at refused
  case incNonce =>
    apply cache.change_action context.ledger address
    · intro account value changed accepted
      cases allowed : account.incNonce? with
      | none => simp [allowed] at accepted
      | some next =>
        simp only [allowed, Except.ok.injEq, Prod.mk.injEq] at accepted
        obtain ⟨rfl, rfl⟩ := accepted
        simp [Account.perform, Account.Reply.answer, allowed]
    · intro account fault refused
      cases allowed : account.incNonce? with
      | none => simp_all [Account.perform, Account.Reply.answer]
      | some next => simp [allowed] at refused
  all_goals
    apply cache.change_action context.ledger address
    · rintro account _ _ ⟨⟩
      exact ⟨rfl, rfl⟩
    · rintro account _ ⟨⟩

namespace Operation

variable {context : Context ε} {cache : Cache} {operation : Operation} {address : Address}
  {action : Account.Action} (changes : operation.change? = some (address, action))

include changes

theorem change_of_supplies {info : Info}
    (supplied : context.ledger.Supplies address (cache.entry address) info) :
    operation.perform context cache =
      { result := (((cache.entry address).load info).perform action).1.answer address
        cache := cache.setEntry address (((cache.entry address).load info).perform action).2
        queries := cache.loadQueries context.ledger address } := by
  have outcome := operation.change_outcome context cache changes
  generalize operation.perform context cache = step at outcome ⊢
  cases outcome with
  | performed info' supplied' account loaded => rw [loaded, supplied.load_eq supplied']
  | failed cause unloaded failure => simp [supplied unloaded] at failure

theorem change_of_failure {cause : ε} (unloaded : (cache.entry address).status.loaded = false)
    (failure : (context.ledger.account address).result = .error cause) :
    operation.perform context cache =
      { result := .error (.unanswered address cause)
        cache := cache
        queries := cache.loadQueries context.ledger address } := by
  have outcome := operation.change_outcome context cache changes
  generalize operation.perform context cache = step at outcome ⊢
  cases outcome with
  | performed info supplied => simp [supplied unloaded] at failure
  | failed cause' unloaded' failure' =>
    cases failure.symm.trans failure'
    rfl

end Operation

end Overlay
