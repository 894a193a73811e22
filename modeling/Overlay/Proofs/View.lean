import Mathlib.Logic.Function.Basic
import Overlay.Ledger.Memory
import Overlay.Proofs.Operation

/-!
A cache and the ledger below it, seen as one plain ledger. The view of a cache hides in which form
an entry holds what it knows; an operation changes the view as it would change the plain ledger,
and a read or a preload not at all.
-/

set_option autoImplicit false

namespace Overlay

variable {ε : Type}

@[ext] structure Contents where
  info : Address → Info
  value : Address → Word → Word

/-- The ledger never fails, and this is what it answers. -/
structure Ledger.Holds (ledger : Ledger ε) (contents : Contents) : Prop where
  account : ∀ address, (ledger.account address).result = .ok (contents.info address)
  storage : ∀ address key, ∃ found, (ledger.storage address key).result = .ok found ∧
    contents.value address key = found.getD 0

namespace MemoryLedger

def contents (memory : MemoryLedger) : Contents where
  info address := (memory.record address).info
  value address key := (memory.record address).storage[key]?.getD 0

theorem holds_toLedger (memory : MemoryLedger) :
    (memory.toLedger : Ledger ε).Holds memory.contents where
  account _ := rfl
  storage _ _ := ⟨_, rfl, rfl⟩

end MemoryLedger

def Answer.accepted (answer : Answer ε Reply) : Bool :=
  match answer.result with
  | .ok (.transfer (some _)) | .error _ => false
  | .ok _ => true

namespace Contents

def revise (contents : Contents) (address : Address) (change : Info → Info) : Contents :=
  { contents with
    info := Function.update contents.info address (change (contents.info address)) }

def write (contents : Contents) (address : Address) (key value : Word) : Contents :=
  { contents with
    value := Function.update contents.value address
      (Function.update (contents.value address) key value) }

def clear (contents : Contents) (address : Address) : Contents :=
  { contents with value := Function.update contents.value address fun _ => 0 }

def apply (contents : Contents) : Operation → Contents
  | .writeSlot address key value => contents.write address key value
  | .setBalance address balance => contents.revise address ({ · with balance })
  | .setNonce address nonce => contents.revise address ({ · with nonce })
  | .incNonce address => contents.revise address fun info => { info with nonce := info.nonce + 1 }
  | .setCode address code => contents.revise address (·.setCode code)
  | .create address => contents.clear address
  | .transfer sender recipient value =>
    if sender = recipient then contents
    else
      (contents.revise sender fun info => { info with balance := info.balance - value }).revise
        recipient fun info => { info with balance := info.balance + value }
  | _ => contents

def follow (contents : Contents) (performed : Operation × Answer ε Reply) : Contents :=
  if performed.2.accepted then contents.apply performed.1 else contents

theorem info_revise (contents : Contents) (target address : Address) (change : Info → Info) :
    (contents.revise target change).info address =
      if target = address then change (contents.info address) else contents.info address := by
  by_cases same : target = address
  · subst same
    simp [revise]
  · simp [revise, same, Function.update_of_ne (Ne.symm same)]

end Contents

def Account.valueOver (account : Account) (key stored : Word) : Word :=
  (account.current? key).getD (if account.status.created then 0 else stored)

/-- The cache over its ledger as one plain ledger. -/
def Cache.view (cache : Cache) (contents : Contents) : Contents where
  info address := ((cache.entry address).load (contents.info address)).info
  value address key := (cache.entry address).valueOver key (contents.value address key)

namespace Cache

variable (cache : Cache) (contents : Contents) (address : Address)

theorem info_view : (cache.view contents).info address =
    ((cache.entry address).load (contents.info address)).info := rfl

theorem value_view (key : Word) : (cache.view contents).value address key =
    (cache.entry address).valueOver key (contents.value address key) := rfl

end Cache

namespace Account

variable (account : Account) (key other stored : Word) (edit : Slot → Slot)

theorem current?_editSlot_of_keeps (keeps : ∀ slot, (edit slot).current = slot.current) :
    (account.editSlot key edit).current? other = account.current? other := by
  rw [current?_editSlot, keeps, current_slot]
  split
  · next same => rw [same]
  · rfl

theorem valueOver_editSlot_of_keeps (keeps : ∀ slot, (edit slot).current = slot.current) :
    (account.editSlot key edit).valueOver other stored = account.valueOver other stored := by
  rw [valueOver, current?_editSlot_of_keeps account key other edit keeps, status_editSlot,
    valueOver]

theorem info_load_editSlot (info : Info) :
    ((account.editSlot key edit).load info).info = (account.load info).info := by
  rw [info_load, info_load, status_editSlot, info_editSlot]

theorem current?_writeSlot (value : Word) :
    (account.writeSlot key value).current? other =
      if key = other then some value else account.current? other :=
  account.current?_editSlot key other (·.recordWrite value)

@[simp] theorem valueOver_load (info : Info) :
    (account.load info).valueOver key stored = account.valueOver key stored := by
  simp [valueOver]

theorem valueOver_writeSlot (value : Word) :
    (account.writeSlot key value).valueOver other stored =
      if key = other then value else account.valueOver other stored := by
  rw [valueOver, current?_writeSlot]
  split <;> rfl

theorem valueOver_create : account.create.valueOver key stored = 0 := by
  rw [valueOver, current?, slot?_create]
  cases account.slot? key <;> rfl

end Account

namespace Cache

variable (cache : Cache) (contents : Contents) (address : Address)

theorem view_setEntry (account : Account) :
    (cache.setEntry address account).view contents =
      { info := Function.update (cache.view contents).info address
          (account.load (contents.info address)).info
        value := Function.update (cache.view contents).value address fun key =>
          account.valueOver key (contents.value address key) } := by
  apply Contents.ext
  · funext other
    by_cases same : address = other
    · subst same
      simp [view, entry_setEntry]
    · simp [view, entry_setEntry, same, Function.update_of_ne (Ne.symm same)]
  · funext other
    by_cases same : address = other
    · subst same
      simp [view, entry_setEntry]
    · simp [view, entry_setEntry, same, Function.update_of_ne (Ne.symm same)]

theorem view_setEntry_of_same {account : Account}
    (info : (account.load (contents.info address)).info = (cache.view contents).info address)
    (value : ∀ key, account.valueOver key (contents.value address key) =
      (cache.view contents).value address key) :
    (cache.setEntry address account).view contents = cache.view contents := by
  rw [view_setEntry, info, funext value, Function.update_eq_self, Function.update_eq_self]

theorem view_touch : (cache.touch address).view contents = cache.view contents :=
  cache.view_setEntry_of_same contents address rfl fun _ => rfl

theorem view_editSlot (key : Word) (edit : Slot → Slot)
    (keeps : ∀ slot, (edit slot).current = slot.current) :
    (cache.setEntry address ((cache.entry address).editSlot key edit)).view contents =
      cache.view contents :=
  cache.view_setEntry_of_same contents address (Account.info_load_editSlot _ _ _ _) fun _ =>
    Account.valueOver_editSlot_of_keeps _ _ _ _ _ keeps

theorem view_warmSlot (key : Word) :
    (cache.warmSlot address key).view contents = cache.view contents := by
  rw [warmSlot, Account.warmSlot_eq_editSlot]
  exact cache.view_editSlot contents address key id fun _ => rfl

theorem view_preloadAddresses (addresses : List Address) :
    (cache.preloadAddresses addresses).view contents = cache.view contents :=
  preloadAddresses_invariant
    (fun after address same => (after.view_touch contents address).trans same) cache addresses rfl

theorem view_preload (list : AccessList) :
    (cache.preload list).view contents = cache.view contents := by
  apply preload_invariant (P := (·.view contents = cache.view contents)) _ _ cache list rfl
  · intro after address same
    exact (after.view_touch contents address).trans same
  · intro after address key same
    rw [Account.preloadSlot_eq_editSlot]
    exact (after.view_editSlot contents address key Slot.recordPreload fun _ => rfl).trans same

section Loaded

variable (loaded : (cache.entry address).status.loaded = true)

include loaded

theorem info_view_of_loaded : (cache.view contents).info address = (cache.entry address).info := by
  rw [info_view, Account.load_of_loaded loaded]

theorem view_change (change : Info → Info) :
    (cache.setEntry address ((cache.entry address).change (change (cache.entry address).info))).view
      contents = (cache.view contents).revise address change := by
  rw [view_setEntry, Contents.revise, info_view_of_loaded cache contents address loaded,
    Account.load_of_loaded rfl]
  exact congrArg (Contents.mk _) (Function.update_eq_self address _)

omit loaded in
theorem view_change_of_entry {cache : Cache} {address : Address} {account : Account}
    (held : cache.entry address = account) (loaded : account.status.loaded = true)
    (change : Info → Info) :
    (cache.setEntry address (account.change (change account.info))).view contents =
      (cache.view contents).revise address change := by
  subst held
  exact cache.view_change contents address loaded change

theorem view_writeSlot (key value : Word) :
    (cache.setEntry address ((cache.entry address).writeSlot key value)).view contents =
      (cache.view contents).write address key value := by
  have info : (((cache.entry address).writeSlot key value).load (contents.info address)).info =
      (cache.view contents).info address := by
    rw [info_view_of_loaded cache contents address loaded,
      Account.load_of_loaded (by simpa using loaded)]
    rfl
  have values : (fun other => ((cache.entry address).writeSlot key value).valueOver other
      (contents.value address other)) =
        Function.update ((cache.view contents).value address) key value := by
    funext other
    rw [Account.valueOver_writeSlot]
    by_cases same : key = other
    · subst same
      simp
    · simp [same, Function.update_of_ne (Ne.symm same), view]
  rw [view_setEntry, info, values, Function.update_eq_self, Contents.write]

theorem view_create :
    (cache.setEntry address (cache.entry address).create).view contents =
      (cache.view contents).clear address := by
  have info : ((cache.entry address).create.load (contents.info address)).info =
      (cache.view contents).info address := by
    rw [info_view_of_loaded cache contents address loaded, Account.load_of_loaded rfl]
    rfl
  simp only [view_setEntry, info, Function.update_eq_self, Account.valueOver_create,
    Contents.clear]

theorem view_selfDestruct :
    (cache.setEntry address (cache.entry address).selfDestruct).view contents =
      cache.view contents := by
  apply view_setEntry_of_same
  · rw [info_view_of_loaded cache contents address loaded, Account.load_of_loaded rfl]
    rfl
  · intro key
    rfl

end Loaded

variable {ledger : Ledger ε} {contents : Contents}

/-- The info that a loaded entry has is the one that the view has shown all along. -/
theorem info_load_eq_view (holds : ledger.Holds contents) {info : Info}
    (supplied : ledger.Supplies address (cache.entry address) info) :
    ((cache.entry address).load info).info = (cache.view contents).info address := by
  rw [info_view, Account.info_load, Account.info_load]
  split
  · rfl
  · next unloaded =>
    have answer := supplied (Bool.eq_false_iff.mpr unloaded)
    rw [holds.account, Except.ok.injEq] at answer
    exact answer.symm

theorem view_setLoaded (holds : ledger.Holds contents) {info : Info}
    (supplied : ledger.Supplies address (cache.entry address) info) :
    (cache.setEntry address ((cache.entry address).load info)).view contents =
      cache.view contents := by
  apply view_setEntry_of_same
  · rw [Account.load_of_loaded (by simp)]
    exact cache.info_load_eq_view address holds supplied
  · intro key
    rw [Account.valueOver_load]
    rfl

theorem load_view (holds : ledger.Holds contents) :
    (∃ load, (cache.load ledger address).result = .ok load ∧
        load.data.info = (cache.view contents).info address) ∧
      (cache.load ledger address).cache.view contents = cache.view contents := by
  have outcome := cache.load_outcome ledger address
  generalize cache.load ledger address = step at outcome ⊢
  cases outcome with
  | failed cause unloaded failure => simp [holds.account] at failure
  | answered info supplied =>
    exact ⟨⟨_, rfl, cache.info_load_eq_view address holds supplied⟩,
      cache.view_setLoaded address holds supplied⟩

theorem valueOver_of_fills (holds : ledger.Holds contents) {key value : Word}
    (unknown : (cache.entry address).current? key = none)
    (filled : ledger.Fills address (cache.entry address) key value) :
    value = (cache.view contents).value address key := by
  rw [value_view, Account.valueOver, unknown]
  unfold Ledger.Fills at filled
  split at filled
  · next created => rw [filled, if_pos created]; rfl
  · next plain =>
    obtain ⟨found, answer, rfl⟩ := filled
    obtain ⟨found', answer', stored⟩ := holds.storage address key
    rw [answer, Except.ok.injEq] at answer'
    rw [if_neg plain, stored, answer']
    rfl

theorem readSlot_view (holds : ledger.Holds contents) (key : Word) :
    (∃ load, (cache.readSlot ledger address key).result = .ok load ∧
        load.data = (cache.view contents).value address key) ∧
      (cache.readSlot ledger address key).cache.view contents = cache.view contents := by
  have outcome := cache.readSlot_outcome ledger address key
  generalize cache.readSlot ledger address key = step at outcome ⊢
  cases outcome with
  | failed cause unknown plain failure =>
    obtain ⟨found, answer, _⟩ := holds.storage address key
    simp [answer] at failure
  | known value known =>
    refine ⟨⟨_, rfl, ?_⟩, cache.view_editSlot contents address key Slot.recordRead fun _ => rfl⟩
    rw [value_view, Account.valueOver, known]
    rfl
  | fetched value unknown filled =>
    have shown := cache.valueOver_of_fills address holds unknown filled
    refine ⟨⟨_, rfl, shown⟩, ?_⟩
    apply view_setEntry_of_same
    · exact Account.info_load_editSlot _ _ _ _
    · intro other
      rw [Account.valueOver, Account.current?_editSlot]
      split
      · next same =>
        subst same
        rw [← shown]
        simp [Slot.recordFetch, Account.current_slot, unknown]
      · rfl

theorem view_loadBoth (holds : ledger.Holds contents) {sender recipient : Address}
    {info info' : Info} {payer payee : Account}
    (supplied : ledger.Supplies sender (cache.entry sender) info)
    (loaded : payer = (cache.entry sender).load info)
    (supplied' : ledger.Supplies recipient ((cache.setEntry sender payer).entry recipient) info')
    (loaded' : payee = ((cache.setEntry sender payer).entry recipient).load info') :
    (cache.loadBoth sender recipient payer payee).view contents = cache.view contents := by
  subst loaded loaded'
  exact (view_setLoaded _ recipient holds supplied').trans
    (cache.view_setLoaded sender holds supplied)

theorem view_payBoth (contents : Contents) {sender recipient : Address}
    (different : sender ≠ recipient) {payer payee : Account}
    (loaded : payer.status.loaded = true) (loaded' : payee.status.loaded = true) (value : Word) :
    (((cache.loadBoth sender recipient payer payee).setEntry sender
        (payer.setBalance (payer.info.balance - value))).setEntry recipient
          (payee.setBalance (payee.info.balance + value))).view contents =
      ((cache.loadBoth sender recipient payer payee).view contents).apply
        (.transfer sender recipient value) := by
  have held := cache.entry_loadBoth_sender payer payee different
  have received := cache.entry_loadBoth_recipient payer payee different
  have paid := view_change_of_entry contents held loaded
    fun info => { info with balance := info.balance - value }
  have earned (account : Account) := view_change_of_entry contents (received account) loaded'
    fun info => { info with balance := info.balance + value }
  rw [Contents.apply, if_neg different, ← paid]
  exact earned _

theorem transfer_view (holds : ledger.Holds contents) (sender recipient : Address) (value : Word) :
    (∃ answer, (cache.transfer ledger sender recipient value).result = .ok answer ∧
      (cache.transfer ledger sender recipient value).cache.view contents =
        if answer = none then (cache.view contents).apply (.transfer sender recipient value)
        else cache.view contents) := by
  have outcome := cache.transfer_outcome ledger sender recipient value
  generalize cache.transfer ledger sender recipient value = step at outcome ⊢
  cases outcome with
  | senderFailed cause unloaded failure => simp [holds.account] at failure
  | recipientFailed _ _ _ _ cause unloaded failure => simp [holds.account] at failure
  | unmoved info supplied payer loaded info' supplied' payee loaded' answer reason =>
    have same := cache.view_loadBoth holds supplied loaded supplied' loaded'
    refine ⟨answer, rfl, ?_⟩
    cases reason with
    | outOfFunds | overflowPayment => exact same
    | idle funds still =>
      rw [if_pos rfl, same, Contents.apply]
      rcases still with rfl | own
      · simp [Contents.revise]
      · rw [if_pos own]
  | moved info supplied payer loaded info' supplied' payee loaded' funds moving room =>
    have different : sender ≠ recipient := fun same => moving (.inr same)
    have same := cache.view_loadBoth holds supplied loaded supplied' loaded'
    have ready : payer.status.loaded = true := by simp [loaded]
    have ready' : payee.status.loaded = true := by simp [loaded']
    refine ⟨none, rfl, ?_⟩
    rw [if_pos rfl, ← same]
    exact cache.view_payBoth contents different ready ready' value

end Cache

namespace Operation

variable {contents : Contents} (context : Context ε) (cache : Cache)

/-- A loaded account that goes through an action shows what the operation does to a plain ledger,
and what it showed before if the action is refused. -/
theorem view_act {address : Address} (loaded : (cache.entry address).status.loaded = true)
    {operation : Operation} {action : Account.Action}
    (changes : operation.change? = some (address, action)) {answer : Answer ε Reply}
    (answered : answer.result = ((cache.entry address).perform action).1.answer address) :
    (cache.setEntry address ((cache.entry address).perform action).2).view contents =
      (cache.view contents).follow (operation, answer) := by
  have kept : (cache.setEntry address (cache.entry address)).view contents = cache.view contents :=
    cache.view_touch contents address
  obtain ⟨result, queries⟩ := answer
  subst answered
  cases operation <;> cases changes
  case writeSlot key value => exact cache.view_writeSlot contents address loaded key value
  case setBalance balance => exact cache.view_change contents address loaded ({ · with balance })
  case setNonce nonce =>
    have outcome := (cache.entry address).perform_outcome (.setNonce nonce)
    generalize (cache.entry address).perform (.setNonce nonce) = result at outcome
    cases outcome with
    | setNonce nonce allowed => exact cache.view_change contents address loaded ({ · with nonce })
    | nonceDecreased nonce refused => exact kept
  case incNonce =>
    have outcome := (cache.entry address).perform_outcome .incNonce
    generalize (cache.entry address).perform .incNonce = result at outcome
    cases outcome with
    | incNonce room =>
      exact cache.view_change contents address loaded
        fun info => { info with nonce := info.nonce + 1 }
    | nonceOverflow full => exact kept
  case setCode code => exact cache.view_change contents address loaded (·.setCode code)
  case create => exact cache.view_create contents address loaded
  case selfDestruct => exact cache.view_selfDestruct contents address loaded

theorem view_perform_change (holds : context.ledger.Holds contents) {operation : Operation}
    {address : Address} {action : Account.Action}
    (changes : operation.change? = some (address, action)) :
    (operation.perform context cache).cache.view contents =
      (cache.view contents).follow (operation, (operation.perform context cache).answer) := by
  have outcome := operation.change_outcome context cache changes
  generalize operation.perform context cache = step at outcome ⊢
  cases outcome with
  | failed cause unloaded failure => simp [holds.account] at failure
  | performed info supplied account loaded =>
    -- From here on the account is loaded, and the cache shows what it showed before.
    have shown := loaded ▸ cache.view_setLoaded address holds supplied
    have held := cache.entry_setEntry_self address account
    have ready : ((cache.setEntry address account).entry address).status.loaded = true := by
      rw [held, loaded]
      simp
    rw [← cache.setEntry_setEntry address account, ← shown]
    generalize cache.setEntry address account = cache at held ready
    subst held
    exact view_act cache ready changes rfl

/-- An operation changes the view of a cache as it would change a plain ledger. -/
theorem view_perform (holds : context.ledger.Holds contents) (operation : Operation) :
    (operation.perform context cache).cache.view contents =
      (cache.view contents).follow (operation, (operation.perform context cache).answer) := by
  cases operation.view with
  | change _ address action changes => exact view_perform_change context cache holds changes
  | isAccountAlive address =>
    have same : ((isAccountAlive address).perform context cache).cache = cache :=
      cache.cache_isAccountAlive context.ledger address
    rw [same, Contents.follow]
    split <;> rfl
  | load address =>
    obtain ⟨_, same⟩ := cache.load_view address holds
    refine Eq.trans same ?_
    rw [Contents.follow]
    split <;> rfl
  | readSlot address key =>
    obtain ⟨_, same⟩ := cache.readSlot_view address holds key
    refine Eq.trans same ?_
    rw [Contents.follow]
    split <;> rfl
  | transfer sender recipient value =>
    obtain ⟨answer, result, shown⟩ := cache.transfer_view holds sender recipient value
    refine Eq.trans shown ?_
    have answered : ((transfer sender recipient value).perform context cache).answer.result =
        .ok (.transfer answer) := congrArg (Except.map Reply.transfer) result
    rw [Contents.follow, Answer.accepted, answered]
    cases answer <;> rfl
  | emit log => rfl
  | warmAddress address => rfl
  | warmSlot address key => exact cache.view_warmSlot contents address key
  | accountCost address => rfl
  | storageCost address key => exact cache.view_warmSlot contents address key
  | preload list => exact cache.view_preload contents list
  | preloadPrecompiles => exact cache.view_preloadAddresses contents _

end Operation

end Overlay
