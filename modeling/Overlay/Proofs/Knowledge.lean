import Overlay.Proofs.View

/-!
What a cache knows, whatever is warm in it. A marker knows no more than a missing entry, a slot
without a value no more than a missing slot, and of a created account all storage is known. Every
operation answers from what is known and from the ledger: caches that know the same go on to give
the same data, to send the same queries and to know the same.
-/

set_option autoImplicit false

namespace Overlay

variable {ε α β γ δ : Type}

namespace Account

structure Knowledge where
  address : Address
  info : Info
  status : Status
  value : Word → Option Word

def known? (account : Account) (key : Word) : Option Word :=
  (account.current? key).or (if account.status.created then some 0 else none)

def knowledge (account : Account) : Knowledge where
  address := account.address
  info := account.info
  status := account.status
  value := account.known?

section Changes

variable (account : Account) (key : Word)

theorem knowledge_editSlot_of_keeps (edit : Slot → Slot)
    (keeps : ∀ slot, (edit slot).current = slot.current) :
    (account.editSlot key edit).knowledge = account.knowledge := by
  have values : (account.editSlot key edit).known? = account.known? := by
    funext other
    rw [known?, current?_editSlot_of_keeps account key other edit keeps]
    rfl
  exact congrArg (Knowledge.mk account.address account.info account.status) values

theorem knowledge_load (info : Info) :
    (account.load info).knowledge =
      if account.knowledge.status.loaded then account.knowledge
      else { account.knowledge with
        info, status := { account.knowledge.status with loaded := true } } := by
  rw [load]
  show _ = if account.status.loaded then _ else _
  split <;> rfl

theorem knowledge_change (info : Info) :
    (account.change info).knowledge =
      { account.knowledge with
        info, status := { account.knowledge.status with loaded := true, cached := true } } := rfl

theorem knowledge_selfDestruct :
    account.selfDestruct.knowledge =
      { account.knowledge with
        status := { account.knowledge.status with
          loaded := true, cached := true, selfDestructed := true } } := rfl

theorem knowledge_create :
    account.create.knowledge =
      { account.knowledge with
        status := { account.knowledge.status with loaded := true, cached := true, created := true }
        value := fun _ => some 0 } := by
  have values : account.create.known? = fun _ => some 0 := by
    funext key
    rw [known?, current?, slot?_create]
    cases account.slot? key <;> rfl
  exact congrArg (Knowledge.mk account.address account.info _) values

theorem knowledge_writeSlot (value : Word) :
    (account.writeSlot key value).knowledge =
      { account.knowledge with
        status := { account.knowledge.status with cached := true }
        value := Function.update account.knowledge.value key (some value) } := by
  have values : (account.writeSlot key value).known? =
      Function.update account.known? key (some value) := by
    funext other
    rw [known?, current?_writeSlot]
    by_cases same : key = other
    · subst same
      simp
    · rw [if_neg same, Function.update_of_ne (Ne.symm same)]
      rfl
  exact congrArg (Knowledge.mk account.address account.info _) values

/-- A fetched value is known from then on; one that was known before must have been the same. -/
theorem knowledge_recordFetch (fetched : Word)
    (fits : ∀ value, account.known? key = some value → value = fetched) :
    (account.editSlot key (·.recordFetch fetched)).knowledge =
      { account.knowledge with
        value := Function.update account.knowledge.value key (some fetched) } := by
  have values : (account.editSlot key (·.recordFetch fetched)).known? =
      Function.update account.known? key (some fetched) := by
    funext other
    rw [known?, current?_editSlot]
    by_cases same : key = other
    · subst same
      rw [if_pos rfl, Function.update_self]
      simp only [Slot.recordFetch, current_slot]
      cases known : account.current? key with
      | none => rfl
      | some value => exact congrArg some (fits value (by rw [Account.known?, known]; rfl))
    · rw [if_neg same, Function.update_of_ne (Ne.symm same)]
      rfl
  exact congrArg (Knowledge.mk account.address account.info account.status) values

end Changes

end Account

namespace Cache

@[ext] structure Knowledge where
  account : Address → Account.Knowledge
  logs : List Log
  transfers : List Transfer
  inherited : Extent

def knowledge (cache : Cache) : Knowledge where
  account address := (cache.entry address).knowledge
  logs := cache.logs
  transfers := cache.transfers
  inherited := cache.inherited

section Entries

variable (cache : Cache) (address : Address)

theorem knowledge_putAccount (account : Account) :
    (cache.putAccount address account).knowledge =
      { cache.knowledge with
        account := Function.update cache.knowledge.account address account.knowledge } := by
  have accounts : (cache.putAccount address account).knowledge.account =
      Function.update cache.knowledge.account address account.knowledge := by
    funext other
    show ((cache.setEntry address account).entry other).knowledge = _
    rw [entry_setEntry]
    by_cases same : address = other
    · subst same
      simp
    · rw [if_neg same, Function.update_of_ne (Ne.symm same)]
      rfl
  exact congrArg (Knowledge.mk · cache.logs cache.transfers cache.inherited) accounts

theorem knowledge_setEntry (account : Account) :
    (cache.setEntry address account).knowledge =
      { cache.knowledge with
        account := Function.update cache.knowledge.account address account.knowledge } :=
  (cache.warmAddress address).knowledge_putAccount address account

theorem knowledge_setEntry_of_same {account : Account}
    (same : account.knowledge = (cache.entry address).knowledge) :
    (cache.setEntry address account).knowledge = cache.knowledge := by
  rw [knowledge_setEntry, same]
  exact congrArg (Knowledge.mk · cache.logs cache.transfers cache.inherited)
    (Function.update_eq_self address _)

theorem knowledge_touch : (cache.touch address).knowledge = cache.knowledge :=
  cache.knowledge_setEntry_of_same address rfl

theorem knowledge_warmSlot (key : Word) :
    (cache.warmSlot address key).knowledge = cache.knowledge := by
  rw [warmSlot, Account.warmSlot_eq_editSlot]
  exact cache.knowledge_setEntry_of_same address
    (Account.knowledge_editSlot_of_keeps _ key id fun _ => rfl)

theorem knowledge_preloadAddresses (addresses : List Address) :
    (cache.preloadAddresses addresses).knowledge = cache.knowledge :=
  preloadAddresses_invariant
    (fun after address same => (after.knowledge_touch address).trans same) cache addresses rfl

theorem knowledge_preload (list : AccessList) :
    (cache.preload list).knowledge = cache.knowledge := by
  apply preload_invariant (P := (·.knowledge = cache.knowledge)) _ _ cache list rfl
  · intro after address same
    exact (after.knowledge_touch address).trans same
  · intro after address key same
    rw [Account.preloadSlot_eq_editSlot]
    exact (after.knowledge_setEntry_of_same address
      (Account.knowledge_editSlot_of_keeps _ _ Slot.recordPreload fun _ => rfl)).trans same

end Entries

end Cache

/-- Two steps of which `shown` of their values, their queries and what they leave known are the
same. -/
structure Step.Agrees (shown : α → β) (first second : Step ε α) : Prop where
  result : first.result.map shown = second.result.map shown
  queries : first.queries = second.queries
  knowledge : first.cache.knowledge = second.cache.knowledge

namespace Step.Agrees

variable {shown : α → β} {shown' : γ → δ} {first second : Step ε α} {cache cache' : Cache}

theorem symm (agrees : Agrees shown first second) : Agrees shown second first :=
  ⟨agrees.result.symm, agrees.queries.symm, agrees.knowledge.symm⟩

theorem trans {third : Step ε α} (earlier : Agrees shown first second)
    (later : Agrees shown second third) : Agrees shown first third :=
  ⟨earlier.result.trans later.result, earlier.queries.trans later.queries,
    earlier.knowledge.trans later.knowledge⟩

theorem done {value value' : α} (same : shown value = shown value')
    (known : cache.knowledge = cache'.knowledge) :
    Agrees (ε := ε) shown (.done value cache) (.done value' cache') :=
  ⟨congrArg Except.ok same, rfl, known⟩

theorem fault (fault : Fault ε) (known : cache.knowledge = cache'.knowledge) :
    Agrees shown (.fault fault cache) (.fault fault cache') :=
  ⟨rfl, rfl, known⟩

theorem ask (address : Address) (fetch : Fetch ε α) (known : cache.knowledge = cache'.knowledge) :
    Agrees id (.ask address fetch cache) (.ask address fetch cache') :=
  ⟨rfl, rfl, known⟩

theorem map (agrees : Agrees shown first second) {f f' : α → γ}
    (keeps : ∀ value value', shown value = shown value' → shown' (f value) = shown' (f' value')) :
    Agrees shown' (first.map f) (second.map f') := by
  obtain ⟨result, queries, known⟩ := agrees
  refine ⟨?_, queries, known⟩
  simp only [Step.map]
  cases ended : first.result <;> cases ended' : second.result <;>
    simp_all [Except.map]
  exact keeps _ _ result

theorem andThen (agrees : Agrees shown first second) {next next' : α → Cache → Step ε γ}
    (go : ∀ value value' cache cache', shown value = shown value' →
      cache.knowledge = cache'.knowledge → Agrees shown' (next value cache) (next' value' cache')) :
    Agrees shown' (first.andThen next) (second.andThen next') := by
  obtain ⟨ended, cache, queries⟩ := first
  obtain ⟨ended', cache', queries'⟩ := second
  obtain ⟨result, sent, known⟩ := agrees
  cases ended with
  | error fault =>
    cases ended' with
    | error fault' =>
      cases result
      exact ⟨rfl, sent, known⟩
    | ok value' => cases result
  | ok value =>
    cases ended' with
    | error fault' => cases result
    | ok value' =>
      obtain ⟨result', sent', known'⟩ := go value value' cache cache' (Except.ok.inj result) known
      exact ⟨result', congrArg₂ (· ++ ·) sent sent', known'⟩

end Step.Agrees

namespace Cache

section Congruence

variable (ledger : Ledger ε) {cache cache' : Cache} (same : cache.knowledge = cache'.knowledge)
  (address : Address)

include same

theorem knowledge_entry_congr :
    (cache.entry address).knowledge = (cache'.entry address).knowledge :=
  congrFun (congrArg Knowledge.account same) address

theorem knowledge_putAccount_congr {account account' : Account}
    (known : account.knowledge = account'.knowledge) :
    (cache.putAccount address account).knowledge =
      (cache'.putAccount address account').knowledge := by
  rw [knowledge_putAccount, knowledge_putAccount, same, known]

theorem knowledge_setEntry_congr {account account' : Account}
    (known : account.knowledge = account'.knowledge) :
    (cache.setEntry address account).knowledge = (cache'.setEntry address account').knowledge := by
  rw [knowledge_setEntry, knowledge_setEntry, same, known]

theorem agrees_isAccountAlive :
    Step.Agrees id (cache.isAccountAlive ledger address)
      (cache'.isAccountAlive ledger address) := by
  have entry := knowledge_entry_congr same address
  have info : (cache.entry address).info = (cache'.entry address).info :=
    congrArg Account.Knowledge.info entry
  have status : (cache.entry address).status = (cache'.entry address).status :=
    congrArg Account.Knowledge.status entry
  unfold isAccountAlive Account.isAlive
  rw [info, status]
  split
  · exact .done rfl same
  · exact .ask address _ same

theorem agrees_load :
    Step.Agrees (·.data.knowledge) (cache.load ledger address) (cache'.load ledger address) := by
  have entry := knowledge_entry_congr same address
  have status : (cache.entry address).status = (cache'.entry address).status :=
    congrArg Account.Knowledge.status entry
  unfold load
  rw [status]
  split
  · exact .done entry (by rw [knowledge_touch, knowledge_touch, same])
  · refine (Step.Agrees.ask address _ same).andThen ?_
    rintro info _ after after' rfl same'
    have loaded : ((after.entry address).load info).knowledge =
        ((after'.entry address).load info).knowledge := by
      rw [Account.knowledge_load, Account.knowledge_load, knowledge_entry_congr same' address]
    exact .done loaded (knowledge_setEntry_congr same' address loaded)

theorem agrees_change (shown : α → β) {attempt : Account → Except (Fault ε) (α × Account)}
    (blind : ∀ account account', account.knowledge = account'.knowledge →
      (attempt account).map (Prod.map shown Account.knowledge) =
        (attempt account').map (Prod.map shown Account.knowledge)) :
    Step.Agrees shown (cache.change ledger address attempt)
      (cache'.change ledger address attempt) := by
  refine (agrees_load ledger same address).andThen ?_
  intro load load' after after' loaded same'
  have tried := blind _ _ loaded
  cases ended : attempt load.data with
  | error fault =>
    cases ended' : attempt load'.data with
    | error fault' =>
      rw [ended, ended'] at tried
      cases tried
      exact .fault fault same'
    | ok accepted => simp [ended, ended', Except.map] at tried
  | ok accepted =>
    cases ended' : attempt load'.data with
    | error fault => simp [ended, ended', Except.map] at tried
    | ok accepted' =>
      rw [ended, ended'] at tried
      obtain ⟨value, known⟩ := Prod.mk.inj (Except.ok.inj tried)
      exact .done value (knowledge_putAccount_congr same' address known)

theorem agrees_update {f : Account → Account}
    (blind : ∀ account account', account.knowledge = account'.knowledge →
      (f account).knowledge = (f account').knowledge) :
    Step.Agrees id (cache.update ledger address f) (cache'.update ledger address f) := by
  apply agrees_change ledger same address id
  intro account account' known
  exact congrArg (fun known => Except.ok ((), known)) (blind account account' known)

theorem agrees_setNonce (nonce : UInt64) :
    Step.Agrees id (cache.setNonce ledger address nonce)
      (cache'.setNonce ledger address nonce) := by
  apply agrees_change ledger same address id
  intro account account' known
  have info : account.info = account'.info := congrArg Account.Knowledge.info known
  have status : account.status = account'.status := congrArg Account.Knowledge.status known
  simp only [Account.setNonce?, info, status]
  by_cases allowed : account'.info.nonce ≤ nonce ∨ account'.status.selfDestructed = true
  · simp only [if_pos allowed, Except.map, Prod.map, Account.knowledge_change, known]
  · simp only [if_neg allowed]

theorem agrees_incNonce :
    Step.Agrees id (cache.incNonce ledger address) (cache'.incNonce ledger address) := by
  apply agrees_change ledger same address id
  intro account account' known
  have info : account.info = account'.info := congrArg Account.Knowledge.info known
  simp only [Account.incNonce?, info]
  by_cases room : account'.info.nonce.toNat + 1 < 2 ^ 64
  · simp only [if_pos room, Except.map, Prod.map, Account.knowledge_change, Account.info_change,
      known]
  · simp only [if_neg room]

theorem agrees_writeSlot (key value : Word) :
    Step.Agrees Load.data (cache.writeSlot ledger address key value)
      (cache'.writeSlot ledger address key value) := by
  apply agrees_change ledger same address Load.data
  intro account account' known
  simp only [Except.map, Prod.map, Account.knowledge_writeSlot, known]

theorem agrees_transfer (recipient : Address) (value : Word) :
    Step.Agrees id (cache.transfer ledger address recipient value)
      (cache'.transfer ledger address recipient value) := by
  refine (agrees_load ledger same address).andThen ?_
  intro payer payer' after after' paying same'
  -- The recipient is loaded into what the sender left, also where they are one account.
  refine (agrees_load ledger same' recipient).andThen ?_
  intro payee payee' after after' earning same'
  have held : payer.data.info = payer'.data.info := congrArg Account.Knowledge.info paying
  have received : payee.data.info = payee'.data.info := congrArg Account.Knowledge.info earning
  rw [held, received]
  cases payer'.data.info.balance.checkedSub value with
  | none => exact .done rfl same'
  | some remaining =>
    dsimp only
    split
    · exact .done rfl same'
    · cases payee'.data.info.balance.checkedAdd value with
      | none => exact .done rfl same'
      | some increased =>
        have paid : (payer.data.setBalance remaining).knowledge =
            (payer'.data.setBalance remaining).knowledge := by
          rw [Account.setBalance, Account.setBalance, Account.knowledge_change,
            Account.knowledge_change, paying, held]
        have earned : (payee.data.setBalance increased).knowledge =
            (payee'.data.setBalance increased).knowledge := by
          rw [Account.setBalance, Account.setBalance, Account.knowledge_change,
            Account.knowledge_change, earning, received]
        have moved := knowledge_putAccount_congr (knowledge_putAccount_congr same' address paid)
          recipient earned
        exact .done rfl (congrArg (fun known : Knowledge => { known with
          transfers := known.transfers ++ [Transfer.mk address recipient value] }) moved)

end Congruence

section Read

variable (ledger : Ledger ε) (cache : Cache) (address : Address) (key : Word)

theorem agrees_readSlot_known {value : Word}
    (known : (cache.entry address).known? key = some value) :
    Step.Agrees Load.data (cache.readSlot ledger address key)
      (.done ⟨value, !cache.isSlotWarm address key⟩ cache) := by
  have outcome := cache.readSlot_outcome ledger address key
  generalize cache.readSlot ledger address key = step at outcome ⊢
  cases outcome with
  | known current current? =>
    rw [Account.known?, current?] at known
    cases known
    exact .done rfl (cache.knowledge_setEntry_of_same address
      (Account.knowledge_editSlot_of_keeps _ key Slot.recordRead fun _ => rfl))
  | fetched fetched unknown filled =>
    -- Without a current value the slot is known only because its account was created.
    rw [Account.known?, unknown] at known
    split at known
    · next created =>
      cases known
      have zero : fetched = 0 := by simpa [Ledger.Fills, created] using filled
      subst zero
      simp only [if_pos created]
      refine .done rfl (cache.knowledge_setEntry_of_same address ?_)
      have empty : (cache.entry address).known? key = some 0 := by
        rw [Account.known?, unknown, if_pos created]
        rfl
      rw [Account.knowledge_recordFetch _ key 0 (by simp [empty])]
      exact congrArg (Account.Knowledge.mk _ _ _) (Function.update_eq_self_iff.mpr empty.symm)
    · cases known
  | failed cause unknown plain failure => simp [Account.known?, unknown, plain] at known

theorem readSlot_unknown (unknown : (cache.entry address).known? key = none) :
    cache.readSlot ledger address key =
      (Step.ask address (ledger.storage address key) (cache.touch address)).andThen
        fun found after =>
          .done ⟨found.getD 0, !cache.isSlotWarm address key⟩ (after.setEntry address
            ((cache.entry address).editSlot key (·.recordFetch (found.getD 0)))) := by
  obtain ⟨current, plain⟩ := Option.or_eq_none_iff.mp unknown
  have old : (cache.entry address).status.created = false := by simpa using plain
  unfold readSlot
  simp only [Account.readKnown?_eq, current, old, ← isSlotWarm_eq_entry,
    Account.recordFetch_eq_editSlot, Account.current?_editSlot_recordFetch, Option.getD_none,
    Option.getD_some]
  rfl

theorem agrees_readSlot {cache' : Cache} (same : cache.knowledge = cache'.knowledge) :
    Step.Agrees Load.data (cache.readSlot ledger address key)
      (cache'.readSlot ledger address key) := by
  have entry := knowledge_entry_congr same address
  have values : (cache.entry address).known? key = (cache'.entry address).known? key :=
    congrFun (congrArg Account.Knowledge.value entry) key
  cases known : (cache.entry address).known? key with
  | some value =>
    have reads := cache.agrees_readSlot_known ledger address key known
    have reads' := cache'.agrees_readSlot_known ledger address key (values ▸ known)
    refine reads.trans (.trans ?_ reads'.symm)
    exact .done rfl same
  | none =>
    rw [readSlot_unknown ledger cache address key known,
      readSlot_unknown ledger cache' address key (values ▸ known)]
    have touched : (cache.touch address).knowledge = (cache'.touch address).knowledge := by
      rw [knowledge_touch, knowledge_touch, same]
    refine (Step.Agrees.ask address _ touched).andThen ?_
    intro found found' after after' told same'
    obtain rfl : found = found' := told
    refine .done rfl (knowledge_setEntry_congr same' address ?_)
    rw [Account.knowledge_recordFetch _ key _ (by simp [known]),
      Account.knowledge_recordFetch _ key _ (by simp [← values, known]), entry]

end Read

end Cache

/-- The reply without what depends on warmth: whether the access was cold, what it costs, and which
slots of an account are cached. -/
def Reply.data : Reply → Reply
  | .account load => .account ⟨{ load.data with storage := ∅ }, false⟩
  | .value load => .value ⟨load.data, false⟩
  | .written _ => .written ⟨(), false⟩
  | .wasWarm _ | .cost _ | .gas _ => .done
  | reply => reply

/-- Caches that know the same answer every operation with the same data and queries, and go on to
know the same. -/
theorem Operation.agrees_perform (context : Context ε) {cache cache' : Cache}
    (same : cache.knowledge = cache'.knowledge) (operation : Operation) :
    Step.Agrees Reply.data (operation.perform context cache)
      (operation.perform context cache') := by
  cases operation with
  | isAccountAlive address =>
    exact (Cache.agrees_isAccountAlive context.ledger same address).map fun _ _ alive =>
      congrArg Reply.alive alive
  | load address =>
    apply (Cache.agrees_load context.ledger same address).map
    intro load load' loaded
    have address := congrArg Account.Knowledge.address loaded
    have info := congrArg Account.Knowledge.info loaded
    have status := congrArg Account.Knowledge.status loaded
    simp_all [Reply.data, Account.knowledge]
  | readSlot address key =>
    exact (Cache.agrees_readSlot context.ledger _ address key same).map fun _ _ value =>
      congrArg (fun value => Reply.value ⟨value, false⟩) value
  | writeSlot address key value =>
    exact (Cache.agrees_writeSlot context.ledger same address key value).map fun _ _ _ => rfl
  | setBalance address balance =>
    refine (Cache.agrees_update context.ledger same address ?_).map fun _ _ _ => rfl
    intro account account' known
    have info : account.info = account'.info := congrArg Account.Knowledge.info known
    rw [Account.setBalance, Account.setBalance, Account.knowledge_change, Account.knowledge_change,
      known, info]
  | setNonce address nonce =>
    exact (Cache.agrees_setNonce context.ledger same address nonce).map fun _ _ _ => rfl
  | incNonce address =>
    exact (Cache.agrees_incNonce context.ledger same address).map fun _ _ nonce =>
      congrArg Reply.nonce nonce
  | setCode address code =>
    refine (Cache.agrees_update context.ledger same address ?_).map fun _ _ _ => rfl
    intro account account' known
    have info : account.info = account'.info := congrArg Account.Knowledge.info known
    rw [Account.setCode, Account.setCode, Account.knowledge_change, Account.knowledge_change,
      known, info]
  | create address =>
    refine (Cache.agrees_update context.ledger same address ?_).map fun _ _ _ => rfl
    intro account account' known
    rw [Account.knowledge_create, Account.knowledge_create, known]
  | selfDestruct address =>
    refine (Cache.agrees_update context.ledger same address ?_).map fun _ _ _ => rfl
    intro account account' known
    rw [Account.knowledge_selfDestruct, Account.knowledge_selfDestruct, known]
  | transfer sender recipient value =>
    exact (Cache.agrees_transfer context.ledger same sender recipient value).map fun _ _ answer =>
      congrArg Reply.transfer answer
  | emit log =>
    exact .done rfl (congrArg (fun known : Cache.Knowledge => { known with
      logs := known.logs ++ [log] }) same)
  | warmAddress address => exact .done rfl same
  | warmSlot address key =>
    exact .done rfl (by rw [Cache.knowledge_warmSlot, Cache.knowledge_warmSlot, same])
  | accountCost address => exact .done rfl same
  | storageCost address key =>
    exact .done rfl (by rw [Cache.knowledge_warmSlot, Cache.knowledge_warmSlot, same])
  | preload list =>
    exact .done rfl (by rw [Cache.knowledge_preload, Cache.knowledge_preload, same])
  | preloadPrecompiles =>
    exact .done rfl (by
      rw [Cache.knowledge_preloadAddresses, Cache.knowledge_preloadAddresses, same])

end Overlay
