import Overlay.Cache.Access
import Overlay.Proofs.Account

/-!
All that an access through the cache can come to. Loading, changing and reading one account and
moving value between two each have a list of outcomes: the answer, the cache that is left and the
queries that were sent, with what led there. No later proof opens an access again.
-/

set_option autoImplicit false

namespace Overlay

variable {ε α : Type}

namespace Ledger

/-- The info is the answer of the ledger, unless the account has its own. -/
def Supplies (ledger : Ledger ε) (address : Address) (account : Account) (info : Info) : Prop :=
  account.status.loaded = false → (ledger.account address).result = .ok info

/-- The value is the answer of the ledger; the storage of a created account is empty. -/
def Fills (ledger : Ledger ε) (address : Address) (account : Account) (key value : Word) : Prop :=
  if account.status.created then value = 0
  else ∃ found, (ledger.storage address key).result = .ok found ∧ value = found.getD 0

theorem Supplies.load_eq {ledger : Ledger ε} {address : Address} {account : Account}
    {info info' : Info} (supplied : ledger.Supplies address account info)
    (supplied' : ledger.Supplies address account info') :
    account.load info = account.load info' := by
  unfold Account.load
  split
  · rfl
  · next unloaded =>
    have plain := Bool.eq_false_iff.mpr unloaded
    rw [Except.ok.inj ((supplied plain).symm.trans (supplied' plain))]

theorem Fills.value_eq {ledger : Ledger ε} {address : Address} {account : Account}
    {key value value' : Word} (filled : ledger.Fills address account key value)
    (filled' : ledger.Fills address account key value') : value = value' := by
  unfold Fills at filled filled'
  split at filled
  · next created =>
    rw [if_pos created] at filled'
    rw [filled, filled']
  · next plain =>
    rw [if_neg plain] at filled'
    obtain ⟨found, answer, rfl⟩ := filled
    obtain ⟨found', answer', rfl⟩ := filled'
    rw [Except.ok.inj (answer.symm.trans answer')]

end Ledger

namespace Step

variable {address : Address} {fetch : Fetch ε α} (cache : Cache)

theorem ask_ok {value : α} (answer : fetch.result = .ok value) :
    Step.ask address fetch cache = ⟨.ok value, cache, fetch.queries⟩ := by
  rw [ask, answer]
  rfl

theorem ask_error {cause : ε} (answer : fetch.result = .error cause) :
    Step.ask address fetch cache = ⟨.error (.unanswered address cause), cache, fetch.queries⟩ := by
  rw [ask, answer]
  rfl

end Step

namespace Cache

section Entries

variable (cache : Cache) (address other : Address) (account : Account) (key : Word)

theorem entry_new : ({} : Cache).entry address = Account.marker address := rfl

@[simp] theorem entry_setEntry_self : (cache.setEntry address account).entry address = account := by
  rw [entry_setEntry, if_pos rfl]

theorem isWarm_setEntry :
    (cache.setEntry address account).isWarm other =
      (cache.isWarm other || decide (address = other)) := by
  apply Bool.eq_iff_iff.mpr
  simp only [isWarm, Bool.or_eq_true, decide_eq_true_iff, mem_warm_setEntry]
  exact or_congr Iff.rfl eq_comm

theorem isSlotWarm_eq_entry :
    cache.isSlotWarm address key = (cache.entry address).isSlotWarm key := by
  unfold isSlotWarm entry
  cases cache.account? address with
  | some account => rfl
  | none =>
    have cold := (Account.marker address).isSlotWarm_eq key
    rw [Account.slot?_marker] at cold
    exact cold.symm

theorem isSlotWarm_setEntry :
    (cache.setEntry address account).isSlotWarm other key =
      if address = other then account.isSlotWarm key else cache.isSlotWarm other key := by
  rw [isSlotWarm_eq_entry, entry_setEntry, isSlotWarm_eq_entry]
  split <;> rfl

theorem putAccount_eq_setEntry {cache : Cache} {address : Address} (warm : address ∈ cache.warm)
    (account : Account) : cache.putAccount address account = cache.setEntry address account := by
  have same : cache.warmAddress address = cache := by
    unfold warmAddress
    rw [InsertionSet.insert_of_mem warm]
  rw [setEntry, same]

theorem mem_warm_setEntry_self : address ∈ (cache.setEntry address account).warm :=
  mem_warm_setEntry.mpr (Or.inr rfl)

theorem setEntry_setEntry (second : Account) :
    (cache.setEntry address account).setEntry address second = cache.setEntry address second := by
  rw [← putAccount_eq_setEntry (cache.mem_warm_setEntry_self address account)]
  exact congrArg (Cache.mk · _ _ _ _) (InsertionMap.insert_insert cache.accounts address _ _)

theorem setEntry_touch :
    (cache.touch address).setEntry address account = cache.setEntry address account :=
  cache.setEntry_setEntry address _ account

end Entries

section Preload

variable {P : Cache → Prop}
  (touched : ∀ cache address, P cache → P (cache.touch address))

include touched

theorem preloadAddresses_invariant (cache : Cache) (addresses : List Address)
    (holds : P cache) : P (cache.preloadAddresses addresses) := by
  induction addresses generalizing cache with
  | nil => exact holds
  | cons address rest ih => exact ih (cache.touch address) (touched cache address holds)

variable (declared : ∀ cache address key, P cache →
  P (cache.setEntry address ((cache.entry address).preloadSlot key)))

include declared

theorem preloadEntry_invariant (cache : Cache) (entry : AccessList.Entry) (holds : P cache) :
    P (cache.preloadEntry entry) := by
  obtain ⟨address, keys⟩ := entry
  unfold preloadEntry
  induction keys generalizing cache with
  | nil => exact touched cache address holds
  | cons key rest ih =>
    -- The keys are put into one entry, which is the same as setting it anew for every key.
    have others := ih _ (declared cache address (Word.ofHash key) holds)
    rw [entry_setEntry_self, setEntry_setEntry] at others
    exact others

theorem preload_invariant (cache : Cache) (list : AccessList) (holds : P cache) :
    P (cache.preload list) := by
  induction list generalizing cache with
  | nil => exact holds
  | cons entry rest ih =>
    exact ih (cache.preloadEntry entry)
      (preloadEntry_invariant touched declared cache entry holds)

end Preload

theorem cache_isAccountAlive (ledger : Ledger ε) (cache : Cache) (address : Address) :
    (cache.isAccountAlive ledger address).cache = cache := by
  unfold isAccountAlive
  split <;> rfl

def loadQueries (ledger : Ledger ε) (cache : Cache) (address : Address) : List Query :=
  if (cache.entry address).status.loaded then [] else (ledger.account address).queries

inductive LoadOutcome (ledger : Ledger ε) (cache : Cache) (address : Address) :
    Step ε (Load Account) → Prop where
  | answered (info : Info) (supplied : ledger.Supplies address (cache.entry address) info) :
      LoadOutcome ledger cache address
        { result := .ok ⟨(cache.entry address).load info, !cache.isWarm address⟩
          cache := cache.setEntry address ((cache.entry address).load info)
          queries := cache.loadQueries ledger address }
  | failed (cause : ε) (unloaded : (cache.entry address).status.loaded = false)
      (failure : (ledger.account address).result = .error cause) :
      LoadOutcome ledger cache address
        { result := .error (.unanswered address cause)
          cache := cache
          queries := cache.loadQueries ledger address }

theorem load_outcome (ledger : Ledger ε) (cache : Cache) (address : Address) :
    LoadOutcome ledger cache address (cache.load ledger address) := by
  unfold load
  cases loaded : (cache.entry address).status.loaded with
  | true =>
    -- A loaded account has its own info, which makes the load an idle one.
    have known : LoadOutcome ledger cache address _ :=
      .answered (cache.entry address).info (by simp [Ledger.Supplies, loaded])
    rw [loadQueries, if_pos loaded, Account.load_of_loaded loaded] at known
    exact known
  | false =>
    have queries : cache.loadQueries ledger address = (ledger.account address).queries := by
      simp [loadQueries, loaded]
    cases answer : (ledger.account address).result with
    | ok info =>
      have fetched : LoadOutcome ledger cache address _ := .answered info fun _ => answer
      rw [queries] at fetched
      simpa [Step.andThen, Step.done, Step.ask_ok cache answer] using fetched
    | error cause =>
      have failed := LoadOutcome.failed cause loaded answer
      rw [queries] at failed
      simpa [Step.andThen, Step.ask_error cache answer] using failed

theorem load_of_supplies {ledger : Ledger ε} {cache : Cache} {address : Address} {info : Info}
    (supplied : ledger.Supplies address (cache.entry address) info) :
    cache.load ledger address =
      { result := .ok ⟨(cache.entry address).load info, !cache.isWarm address⟩
        cache := cache.setEntry address ((cache.entry address).load info)
        queries := cache.loadQueries ledger address } := by
  have outcome := cache.load_outcome ledger address
  generalize cache.load ledger address = step at outcome ⊢
  cases outcome with
  | answered info' supplied' => rw [supplied.load_eq supplied']
  | failed cause unloaded failure => simp [supplied unloaded] at failure

theorem load_of_failure {ledger : Ledger ε} {cache : Cache} {address : Address} {cause : ε}
    (unloaded : (cache.entry address).status.loaded = false)
    (failure : (ledger.account address).result = .error cause) :
    cache.load ledger address =
      { result := .error (.unanswered address cause)
        cache := cache
        queries := cache.loadQueries ledger address } := by
  have outcome := cache.load_outcome ledger address
  generalize cache.load ledger address = step at outcome ⊢
  cases outcome with
  | answered info supplied => simp [supplied unloaded] at failure
  | failed cause' unloaded' failure' =>
    cases failure.symm.trans failure'
    rfl

inductive ChangeOutcome (ledger : Ledger ε) (cache : Cache) (address : Address)
    (attempt : Account → Except (Fault ε) (α × Account)) : Step ε α → Prop where
  | done (info : Info) (supplied : ledger.Supplies address (cache.entry address) info)
      (value : α) (account : Account)
      (accepted : attempt ((cache.entry address).load info) = .ok (value, account)) :
      ChangeOutcome ledger cache address attempt
        { result := .ok value
          cache := cache.setEntry address account
          queries := cache.loadQueries ledger address }
  | refused (info : Info) (supplied : ledger.Supplies address (cache.entry address) info)
      (fault : Fault ε) (refusal : attempt ((cache.entry address).load info) = .error fault) :
      ChangeOutcome ledger cache address attempt
        { result := .error fault
          cache := cache.setEntry address ((cache.entry address).load info)
          queries := cache.loadQueries ledger address }
  | failed (cause : ε) (unloaded : (cache.entry address).status.loaded = false)
      (failure : (ledger.account address).result = .error cause) :
      ChangeOutcome ledger cache address attempt
        { result := .error (.unanswered address cause)
          cache := cache
          queries := cache.loadQueries ledger address }

theorem change_outcome (ledger : Ledger ε) (cache : Cache) (address : Address)
    (attempt : Account → Except (Fault ε) (α × Account)) :
    ChangeOutcome ledger cache address attempt (cache.change ledger address attempt) := by
  have outcome := cache.load_outcome ledger address
  unfold change
  generalize cache.load ledger address = step at outcome ⊢
  cases outcome with
  | failed cause unloaded failure => exact .failed cause unloaded failure
  | answered info supplied =>
    cases tried : attempt ((cache.entry address).load info) with
    | error fault =>
      simpa [Step.andThen, Step.fault, tried] using ChangeOutcome.refused info supplied fault tried
    | ok accepted =>
      obtain ⟨value, account⟩ := accepted
      -- The load has warmed the address, so putting the account is setting the entry.
      have done := ChangeOutcome.done info supplied value account tried
      rw [← setEntry_setEntry _ _ ((cache.entry address).load info),
        ← putAccount_eq_setEntry (mem_warm_setEntry_self _ _ _)] at done
      simpa [Step.andThen, Step.done, tried] using done

inductive ReadOutcome (ledger : Ledger ε) (cache : Cache) (address : Address) (key : Word) :
    Step ε (Load Word) → Prop where
  | known (value : Word) (known : (cache.entry address).current? key = some value) :
      ReadOutcome ledger cache address key
        { result := .ok ⟨value, !cache.isSlotWarm address key⟩
          cache := cache.setEntry address ((cache.entry address).editSlot key Slot.recordRead)
          queries := [] }
  | fetched (value : Word) (unknown : (cache.entry address).current? key = none)
      (filled : ledger.Fills address (cache.entry address) key value) :
      ReadOutcome ledger cache address key
        { result := .ok ⟨value, !cache.isSlotWarm address key⟩
          cache := cache.setEntry address
            ((cache.entry address).editSlot key (·.recordFetch value))
          queries := if (cache.entry address).status.created then []
            else (ledger.storage address key).queries }
  | failed (cause : ε) (unknown : (cache.entry address).current? key = none)
      (plain : (cache.entry address).status.created = false)
      (failure : (ledger.storage address key).result = .error cause) :
      ReadOutcome ledger cache address key
        { result := .error (.unanswered address cause)
          cache := cache.touch address
          queries := (ledger.storage address key).queries }

theorem readSlot_outcome (ledger : Ledger ε) (cache : Cache) (address : Address) (key : Word) :
    ReadOutcome ledger cache address key (cache.readSlot ledger address key) := by
  unfold readSlot
  simp only [Account.readKnown?_eq, ← isSlotWarm_eq_entry]
  cases current : (cache.entry address).current? key with
  | some value => exact .known value current
  | none =>
    simp only [Option.map_none, Account.recordFetch_eq_editSlot,
      Account.current?_editSlot_recordFetch, current, Option.getD_none, Option.getD_some]
    cases created : (cache.entry address).status.created with
    | true =>
      have empty : ReadOutcome ledger cache address key _ :=
        .fetched 0 current (by simp [Ledger.Fills, created])
      simpa [Step.andThen, Step.done, created, setEntry_touch] using empty
    | false =>
      cases answer : (ledger.storage address key).result with
      | ok found =>
        have fetched : ReadOutcome ledger cache address key _ :=
          .fetched (found.getD 0) current (by simp [Ledger.Fills, created, answer])
        simpa [Step.andThen, Step.done, Step.ask_ok _ answer, created, setEntry_touch]
          using fetched
      | error cause =>
        simpa [Step.andThen, Step.ask_error _ answer] using
          ReadOutcome.failed cause current created answer

section Read

variable {ledger : Ledger ε} {cache : Cache} {address : Address} {key value : Word}

theorem readSlot_of_known (known : (cache.entry address).current? key = some value) :
    cache.readSlot ledger address key =
      { result := .ok ⟨value, !cache.isSlotWarm address key⟩
        cache := cache.setEntry address ((cache.entry address).editSlot key Slot.recordRead)
        queries := [] } := by
  have outcome := cache.readSlot_outcome ledger address key
  generalize cache.readSlot ledger address key = step at outcome ⊢
  cases outcome with
  | known value' known' => rw [Option.some.inj (known.symm.trans known')]
  | fetched _ unknown | failed _ unknown => simp [known] at unknown

theorem readSlot_of_fills (unknown : (cache.entry address).current? key = none)
    (filled : ledger.Fills address (cache.entry address) key value) :
    cache.readSlot ledger address key =
      { result := .ok ⟨value, !cache.isSlotWarm address key⟩
        cache := cache.setEntry address ((cache.entry address).editSlot key (·.recordFetch value))
        queries := if (cache.entry address).status.created then []
          else (ledger.storage address key).queries } := by
  have outcome := cache.readSlot_outcome ledger address key
  generalize cache.readSlot ledger address key = step at outcome ⊢
  cases outcome with
  | known value' known => simp [known] at unknown
  | fetched value' unknown' filled' => rw [filled.value_eq filled']
  | failed cause unknown' plain failure => simp [Ledger.Fills, plain, failure] at filled

theorem readSlot_of_failure {cause : ε} (unknown : (cache.entry address).current? key = none)
    (plain : (cache.entry address).status.created = false)
    (failure : (ledger.storage address key).result = .error cause) :
    cache.readSlot ledger address key =
      { result := .error (.unanswered address cause)
        cache := cache.touch address
        queries := (ledger.storage address key).queries } := by
  have outcome := cache.readSlot_outcome ledger address key
  generalize cache.readSlot ledger address key = step at outcome ⊢
  cases outcome with
  | known value' known => simp [known] at unknown
  | fetched value' unknown' filled => simp [Ledger.Fills, plain, failure] at filled
  | failed cause' unknown' plain' failure' =>
    cases failure.symm.trans failure'
    rfl

end Read

inductive Unmoved (sender recipient : Address) (value held received : Word) :
    Option Refusal → Prop where
  | outOfFunds (short : held.toNat < value.toNat) :
      Unmoved sender recipient value held received (some .outOfFunds)
  | idle (funds : value.toNat ≤ held.toNat) (still : value = 0 ∨ sender = recipient) :
      Unmoved sender recipient value held received none
  | overflowPayment (funds : value.toNat ≤ held.toNat) (moving : ¬ (value = 0 ∨ sender = recipient))
      (full : 2 ^ 256 ≤ received.toNat + value.toNat) :
      Unmoved sender recipient value held received (some .overflowPayment)

def loadBoth (cache : Cache) (sender recipient : Address) (payer payee : Account) : Cache :=
  (cache.setEntry sender payer).setEntry recipient payee

section LoadBoth

variable (cache : Cache) {sender recipient : Address} (payer payee : Account)

theorem entry_loadBoth_sender (different : sender ≠ recipient) :
    (cache.loadBoth sender recipient payer payee).entry sender = payer := by
  rw [loadBoth, entry_setEntry, if_neg different.symm, entry_setEntry_self]

theorem entry_loadBoth_recipient (different : sender ≠ recipient) (account : Account) :
    ((cache.loadBoth sender recipient payer payee).setEntry sender account).entry recipient =
      payee := by
  rw [entry_setEntry, if_neg different, loadBoth, entry_setEntry_self]

end LoadBoth

inductive TransferOutcome (ledger : Ledger ε) (cache : Cache) (sender recipient : Address)
    (value : Word) : Step ε (Option Refusal) → Prop where
  | senderFailed (cause : ε) (unloaded : (cache.entry sender).status.loaded = false)
      (failure : (ledger.account sender).result = .error cause) :
      TransferOutcome ledger cache sender recipient value
        { result := .error (.unanswered sender cause)
          cache := cache
          queries := cache.loadQueries ledger sender }
  | recipientFailed (info : Info) (supplied : ledger.Supplies sender (cache.entry sender) info)
      (payer : Account) (loaded : payer = (cache.entry sender).load info)
      (cause : ε) (unloaded : ((cache.setEntry sender payer).entry recipient).status.loaded = false)
      (failure : (ledger.account recipient).result = .error cause) :
      TransferOutcome ledger cache sender recipient value
        { result := .error (.unanswered recipient cause)
          cache := cache.setEntry sender payer
          queries := cache.loadQueries ledger sender ++
            (cache.setEntry sender payer).loadQueries ledger recipient }
  | unmoved (info : Info) (supplied : ledger.Supplies sender (cache.entry sender) info)
      (payer : Account) (loaded : payer = (cache.entry sender).load info) (info' : Info)
      (supplied' : ledger.Supplies recipient ((cache.setEntry sender payer).entry recipient) info')
      (payee : Account)
      (loaded' : payee = ((cache.setEntry sender payer).entry recipient).load info')
      (answer : Option Refusal)
      (reason : Unmoved sender recipient value payer.info.balance payee.info.balance answer) :
      TransferOutcome ledger cache sender recipient value
        { result := .ok answer
          cache := cache.loadBoth sender recipient payer payee
          queries := cache.loadQueries ledger sender ++
            (cache.setEntry sender payer).loadQueries ledger recipient }
  | moved (info : Info) (supplied : ledger.Supplies sender (cache.entry sender) info)
      (payer : Account) (loaded : payer = (cache.entry sender).load info) (info' : Info)
      (supplied' : ledger.Supplies recipient ((cache.setEntry sender payer).entry recipient) info')
      (payee : Account)
      (loaded' : payee = ((cache.setEntry sender payer).entry recipient).load info')
      (funds : value.toNat ≤ payer.info.balance.toNat) (moving : ¬ (value = 0 ∨ sender = recipient))
      (room : payee.info.balance.toNat + value.toNat < 2 ^ 256) :
      TransferOutcome ledger cache sender recipient value
        { result := .ok none
          cache := (((cache.loadBoth sender recipient payer payee).setEntry sender
            (payer.setBalance (payer.info.balance - value))).setEntry recipient
              (payee.setBalance (payee.info.balance + value))).recordTransfer
                { sender, recipient, value }
          queries := cache.loadQueries ledger sender ++
            (cache.setEntry sender payer).loadQueries ledger recipient }

theorem transfer_outcome (ledger : Ledger ε) (cache : Cache) (sender recipient : Address)
    (value : Word) :
    TransferOutcome ledger cache sender recipient value
      (cache.transfer ledger sender recipient value) := by
  have first := cache.load_outcome ledger sender
  unfold transfer
  generalize cache.load ledger sender = step at first ⊢
  cases first with
  | failed cause unloaded failure => exact .senderFailed cause unloaded failure
  | answered info supplied =>
    generalize payer_eq : (cache.entry sender).load info = payer
    have second := (cache.setEntry sender payer).load_outcome ledger recipient
    simp only [Step.andThen]
    generalize (cache.setEntry sender payer).load ledger recipient = step at second ⊢
    cases second with
    | failed cause unloaded failure =>
      exact .recipientFailed info supplied payer payer_eq.symm cause unloaded failure
    | answered info' supplied' =>
      generalize payee_eq : ((cache.setEntry sender payer).entry recipient).load info' = payee
      have unmoved := @TransferOutcome.unmoved _ ledger cache sender recipient value info supplied
        payer payer_eq.symm info' supplied' payee payee_eq.symm
      -- Both addresses are warm by now, so the two payments set entries as well.
      have warm : sender ∈ (cache.loadBoth sender recipient payer payee).warm :=
        mem_warm_setEntry.mpr (.inl (mem_warm_setEntry_self _ _ _))
      have warm' : recipient ∈ ((cache.loadBoth sender recipient payer payee).setEntry sender
          (payer.setBalance (payer.info.balance - value))).warm :=
        mem_warm_setEntry.mpr (.inl (mem_warm_setEntry_self _ _ _))
      simp only [Word.checkedSub, Word.checkedAdd_eq]
      by_cases funds : value.toNat ≤ payer.info.balance.toNat
      · by_cases still : value = 0 ∨ sender = recipient
        · simp only [if_pos funds, if_pos still, Step.done, List.append_nil]
          exact unmoved none (.idle funds still)
        · by_cases room : payee.info.balance.toNat + value.toNat < 2 ^ 256
          · have moved := TransferOutcome.moved info supplied payer payer_eq.symm info' supplied'
              payee payee_eq.symm funds still room
            rw [← putAccount_eq_setEntry warm', ← putAccount_eq_setEntry warm] at moved
            simp only [if_pos funds, if_neg still, if_pos room, Step.done, List.append_nil]
            exact moved
          · simp only [if_pos funds, if_neg still, if_neg room, Step.done, List.append_nil]
            exact unmoved _ (.overflowPayment funds still (Nat.le_of_not_lt room))
      · simp only [if_neg funds, Step.done, List.append_nil]
        exact unmoved _ (.outOfFunds (Nat.lt_of_not_le funds))

end Cache

end Overlay
