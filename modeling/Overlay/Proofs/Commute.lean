import Mathlib.Logic.Function.Conjugate
import Overlay.Proofs.Effect
import Overlay.Proofs.Warmth

/-!
Operations on unrelated targets come in any order: those on different accounts, and those on
different slots of one account. The slots of an account share its entry, its flags and its lazily
loaded info, but no operation on a slot looks at what another one can have changed there.
-/

set_option autoImplicit false

namespace Overlay

variable {ε : Type}

namespace Account

def markCached (account : Account) : Account :=
  { account with status := { account.status with cached := true } }

section Generators

variable {key other : Word} (edit edit' : Slot → Slot) (info : Info)

theorem editSlot_comm (different : key ≠ other) :
    Function.Commute (editSlot · key edit) (editSlot · other edit') := by
  intro account
  refine ext_slot? (by simp) (by simp) (by simp) fun place => ?_
  simp only [slot?_editSlot, if_neg different, if_neg different.symm]
  split
  · next same => rw [if_neg (same ▸ different.symm)]
  · rfl

theorem load_comm_editSlot : Function.Commute (load · info) (editSlot · key edit) := by
  intro account
  cases loaded : account.status.loaded with
  | true =>
    have edited : (account.editSlot key edit).load info = account.editSlot key edit := if_pos loaded
    exact edited.trans (congrArg (editSlot · key edit) (load_of_loaded loaded info).symm)
  | false =>
    simp only [load, status_editSlot, loaded]
    rfl

theorem load_comm_markCached : Function.Commute (load · info) markCached := by
  intro account
  cases loaded : account.status.loaded with
  | true =>
    have marked : account.markCached.load info = account.markCached := if_pos loaded
    exact marked.trans (congrArg markCached (load_of_loaded loaded info).symm)
  | false =>
    simp only [load, markCached, loaded]
    rfl

theorem markCached_comm_editSlot : Function.Commute markCached (editSlot · key edit) := fun _ => rfl

end Generators

end Account

namespace Ledger

def supply (ledger : Ledger ε) (address : Address) : Info :=
  match (ledger.account address).result with
  | .ok info => info
  | .error _ => {}

theorem Supplies.supply {ledger : Ledger ε} {address : Address} {account : Account} {info : Info}
    (supplied : ledger.Supplies address account info) :
    ledger.Supplies address account (ledger.supply address) := by
  intro unloaded
  have answer := supplied unloaded
  rw [Ledger.supply, answer]

end Ledger

/-- What an operation on a slot does to the account: it edits the slot, or loads the account and
writes the slot, or it does neither. -/
inductive Account.Confined (ledger : Ledger ε) (address : Address) (account : Account)
    (key : Word) : (Account → Account) → Prop where
  | keep : Confined ledger address account key id
  | edit (edit : Slot → Slot) : Confined ledger address account key (·.editSlot key edit)
  | write (value : Word)
      (supplied : ledger.Supplies address account (ledger.supply address)) :
      Confined ledger address account key
        (markCached ∘ (·.editSlot key (·.recordWrite value)) ∘ (·.load (ledger.supply address)))

/-- All that an operation on a slot asks an account about is the same, unless the ledger has the
info: then the account may have been loaded meanwhile. -/
structure Account.Alike (ledger : Ledger ε) (address : Address) (key : Word)
    (before after : Account) : Prop where
  slot : after.slot? key = before.slot? key
  created : after.status.created = before.status.created
  loaded : after.status.loaded = before.status.loaded ∨
    ∃ info, (ledger.account address).result = .ok info

namespace Account.Confined

variable {ledger : Ledger ε} {address : Address} {account : Account} {key other : Word}
  {f g : Account → Account} (confined : account.Confined ledger address key f)

include confined

theorem comm_load : Function.Commute f (load · (ledger.supply address)) := by
  cases confined with
  | keep => exact .id_left
  | edit edit => exact (load_comm_editSlot edit _).symm
  | write value supplied =>
    exact (load_comm_markCached _).symm.comp_left
      ((load_comm_editSlot _ _).symm.comp_left (.refl _))

theorem comm_markCached : Function.Commute f markCached := by
  cases confined with
  | keep => exact .id_left
  | edit edit => exact (markCached_comm_editSlot edit).symm
  | write value supplied =>
    exact (Function.Commute.refl _).comp_left
      ((markCached_comm_editSlot _).symm.comp_left (load_comm_markCached _))

theorem comm_editSlot (different : key ≠ other) (edit : Slot → Slot) :
    Function.Commute f (editSlot · other edit) := by
  cases confined with
  | keep => exact .id_left
  | edit edit' => exact editSlot_comm edit' edit different
  | write value supplied =>
    exact (markCached_comm_editSlot edit).comp_left
      ((editSlot_comm _ edit different).comp_left (load_comm_editSlot edit _))

theorem comm (confined' : account.Confined ledger address other g) (different : key ≠ other) :
    Function.Commute f g := by
  cases confined' with
  | keep => exact .id_right
  | edit edit => exact confined.comm_editSlot different edit
  | write value supplied =>
    exact confined.comm_markCached.comp_right
      ((confined.comm_editSlot different _).comp_right confined.comm_load)

/-- An operation on a slot leaves an account that looks the same to those on its other slots. -/
theorem alike (different : key ≠ other) : account.Alike ledger address other (f account) := by
  cases confined with
  | keep => exact ⟨rfl, rfl, .inl rfl⟩
  | edit edit => exact ⟨by rw [slot?_editSlot, if_neg different], rfl, .inl rfl⟩
  | write value supplied =>
    have created : (account.load (ledger.supply address)).status.created =
        account.status.created := by rw [status_load]
    have loaded : (account.load (ledger.supply address)).status.loaded = true := by
      rw [status_load]
    have slot : ((account.load (ledger.supply address)).editSlot key (·.recordWrite value)).slot?
        other = account.slot? other := by
      rw [slot?_editSlot, if_neg different, slot?_load]
    refine ⟨slot, created, ?_⟩
    cases unloaded : account.status.loaded with
    | true => exact .inl loaded
    | false => exact .inr ⟨_, supplied unloaded⟩

end Account.Confined

namespace Account.Alike

variable {ledger : Ledger ε} {address : Address} {key : Word} {before after : Account}

theorem refl (account : Account) : account.Alike ledger address key account :=
  ⟨rfl, rfl, .inl rfl⟩

variable (alike : before.Alike ledger address key after)

include alike

theorem current? : after.current? key = before.current? key := by
  rw [Account.current?, alike.slot, Account.current?]

theorem isSlotWarm : after.isSlotWarm key = before.isSlotWarm key := by
  rw [isSlotWarm_eq, alike.slot, isSlotWarm_eq]

theorem supplies (supplied : ledger.Supplies address before (ledger.supply address)) :
    ledger.Supplies address after (ledger.supply address) := by
  intro unloaded
  rcases alike.loaded with same | ⟨info, answer⟩
  · exact supplied (same.symm.trans unloaded)
  · rw [Ledger.supply, answer]

theorem unloaded {cause : ε} (failure : (ledger.account address).result = .error cause)
    (unloaded : before.status.loaded = false) : after.status.loaded = false := by
  rcases alike.loaded with same | ⟨info, answer⟩
  · exact same.trans unloaded
  · cases failure.symm.trans answer

theorem fills {value : Word} (filled : ledger.Fills address before key value) :
    ledger.Fills address after key value := by
  unfold Ledger.Fills at filled ⊢
  rwa [alike.created]

end Account.Alike

inductive Effect.Confined (ledger : Ledger ε) (address : Address) (account : Account)
    (key : Word) : Effect → Prop where
  | idle : Confined ledger address account key .idle
  | revise {f : Account → Account} (confined : account.Confined ledger address key f) :
      Confined ledger address account key (.revise f)

namespace Effect.Confined

variable {ledger : Ledger ε} {address : Address} {cache : Cache} {key other : Word}
  {effect effect' : Effect} (different : key ≠ other)
  (confined : effect.Confined ledger address (cache.entry address) key)

include different confined

theorem alike :
    (cache.entry address).Alike ledger address other
      ((effect.apply address cache).entry address) := by
  cases confined with
  | idle => exact .refl _
  | revise confined =>
    rw [apply, Cache.entry_setEntry_self]
    exact confined.alike different

theorem comm (confined' : effect'.Confined ledger address (cache.entry address) other) :
    effect.apply address (effect'.apply address cache) =
      effect'.apply address (effect.apply address cache) := by
  cases confined with
  | idle => rfl
  | revise confined =>
    cases confined' with
    | idle => rfl
    | revise confined' =>
      have same := confined.comm confined' different (cache.entry address)
      simp only [apply, Cache.entry_setEntry_self, Cache.setEntry_setEntry, same]

end Effect.Confined

namespace Operation

variable (context : Context ε) (cache : Cache)

/-- The operation does the same to all caches in which the account looks alike to it, and to the
account no more than an operation on this slot may do. -/
def ActsOnSlot (operation : Operation) (address : Address) (key : Word) : Prop :=
  ∃ result effect, effect.Confined context.ledger address (cache.entry address) key ∧
    ∀ other : Cache,
      (cache.entry address).Alike context.ledger address key (other.entry address) →
        operation.Acts context other address result effect

def ActsOnAccount (operation : Operation) (address : Address) : Prop :=
  ∃ result effect, ∀ other : Cache, other.entry address = cache.entry address →
    other.isWarm address = cache.isWarm address →
      operation.Acts context other address result effect

variable {operation : Operation} {address : Address}

section Slot

variable {key : Word}

theorem ActsOnSlot.onAccount (acts : operation.ActsOnSlot context cache address key) :
    operation.ActsOnAccount context cache address := by
  obtain ⟨result, effect, _, acts⟩ := acts
  exact ⟨result, effect, fun other entry _ => acts other (entry ▸ .refl _)⟩

variable (address key) in
theorem acts_readSlot : (readSlot address key).ActsOnSlot context cache address key := by
  have outcome := cache.readSlot_outcome context.ledger address key
  generalize cache.readSlot context.ledger address key = step at outcome
  cases outcome with
  | known value known =>
    refine ⟨.ok (.value ⟨value, !(cache.entry address).isSlotWarm key⟩), _,
      .revise (.edit Slot.recordRead), fun other alike => ?_⟩
    rw [← alike.current?] at known
    rw [← alike.isSlotWarm, ← Cache.isSlotWarm_eq_entry]
    exact acts_of_step (congrArg (Step.map Reply.value) (Cache.readSlot_of_known known)) rfl rfl
  | fetched value unknown filled =>
    refine ⟨.ok (.value ⟨value, !(cache.entry address).isSlotWarm key⟩), _,
      .revise (.edit (·.recordFetch value)), fun other alike => ?_⟩
    rw [← alike.current?] at unknown
    rw [← alike.isSlotWarm, ← Cache.isSlotWarm_eq_entry]
    exact acts_of_step (congrArg (Step.map Reply.value)
      (Cache.readSlot_of_fills unknown (alike.fills filled))) rfl rfl
  | failed cause unknown plain failure =>
    refine ⟨.error (.unanswered address cause), _, .revise .keep, fun other alike => ?_⟩
    rw [← alike.current?] at unknown
    rw [← alike.created] at plain
    exact acts_of_step (congrArg (Step.map Reply.value)
      (Cache.readSlot_of_failure unknown plain failure)) rfl rfl

variable (address key) in
theorem acts_writeSlot (value : Word) :
    (writeSlot address key value).ActsOnSlot context cache address key := by
  have changes : (writeSlot address key value).change? =
      some (address, .writeSlot key value) := rfl
  have outcome := change_outcome context cache changes
  generalize (writeSlot address key value).perform context cache = step at outcome
  cases outcome with
  | performed info supplied account loaded =>
    -- Another operation may have loaded the account, but only with the info that is supplied here.
    refine ⟨.ok (.written ⟨(), !(cache.entry address).isSlotWarm key⟩), _,
      .revise (.write value supplied.supply), fun other alike => ?_⟩
    have performed := change_of_supplies changes (alike.supplies supplied.supply)
    rw [← alike.isSlotWarm, ← Account.isSlotWarm_load _ key (context.ledger.supply address)]
    exact acts_of_step performed rfl rfl
  | failed cause unloaded failure =>
    refine ⟨.error (.unanswered address cause), _, .idle, fun other alike => ?_⟩
    have failed := change_of_failure changes (alike.unloaded failure unloaded) failure
    exact acts_of_step failed rfl rfl

theorem acts_of_warmSlot (answer : Bool → Reply)
    (performs : ∀ other, operation.perform context other =
      .done (answer (other.isSlotWarm address key)) (other.warmSlot address key)) :
    operation.ActsOnSlot context cache address key := by
  refine ⟨.ok (answer ((cache.entry address).isSlotWarm key)), _, .revise (.edit id),
    fun other alike => ?_⟩
  rw [← alike.isSlotWarm, ← Cache.isSlotWarm_eq_entry]
  refine acts_of_step (performs other) rfl ?_
  exact congrArg (other.setEntry address) (Account.warmSlot_eq_editSlot _ key)

/-- Every operation on a slot looks at that slot and at what is the same for all of them. -/
theorem acts_slot (target : operation.place? = some (.slot address key)) :
    operation.ActsOnSlot context cache address key := by
  cases operation <;> cases target
  case readSlot => exact acts_readSlot context cache address key
  case writeSlot value => exact acts_writeSlot context cache address key value
  case warmSlot => exact acts_of_warmSlot context cache .wasWarm fun _ => rfl
  case storageCost =>
    exact acts_of_warmSlot context cache
      (fun warm => .cost ⟨context.config.gas.storageCost !warm, !warm⟩) fun _ => rfl

end Slot

theorem acts_change {action : Account.Action}
    (changes : operation.change? = some (address, action)) :
    operation.ActsOnAccount context cache address := by
  have outcome := operation.change_outcome context cache changes
  generalize operation.perform context cache = step at outcome
  cases outcome with
  | performed info supplied account loaded =>
    refine ⟨(account.perform action).1.answer address,
      .revise fun _ => (account.perform action).2, fun other entry _ => ?_⟩
    rw [← entry] at supplied loaded
    have performed := change_of_supplies changes supplied
    rw [← loaded] at performed
    exact acts_of_step performed rfl rfl
  | failed cause unloaded failure =>
    refine ⟨.error (.unanswered address cause), .idle, fun other entry _ => ?_⟩
    rw [← entry] at unloaded
    have failed := change_of_failure changes unloaded failure
    exact acts_of_step failed rfl rfl

variable (address) in
theorem acts_load : (load address).ActsOnAccount context cache address := by
  have outcome := cache.load_outcome context.ledger address
  generalize cache.load context.ledger address = step at outcome
  cases outcome with
  | answered info supplied =>
    refine ⟨.ok (.account ⟨(cache.entry address).load info, !cache.isWarm address⟩),
      .revise (·.load info), fun other entry warmth => ?_⟩
    rw [← entry] at supplied
    rw [← entry, ← warmth]
    exact acts_of_step (congrArg (Step.map Reply.account)
      (Cache.load_of_supplies supplied)) rfl rfl
  | failed cause unloaded failure =>
    refine ⟨.error (.unanswered address cause), .idle, fun other entry _ => ?_⟩
    rw [← entry] at unloaded
    exact acts_of_step (congrArg (Step.map Reply.account)
      (Cache.load_of_failure unloaded failure)) rfl rfl

theorem acts_of_warmAddress (answer : Bool → Reply)
    (performs : ∀ other, operation.perform context other =
      .done (answer (other.isWarm address)) (other.warmAddress address)) :
    operation.ActsOnAccount context cache address := by
  refine ⟨.ok (answer (cache.isWarm address)), .warm, fun other _ warmth => ?_⟩
  rw [← warmth]
  exact acts_of_step (performs other) rfl rfl

theorem acts_account (target : operation.address? = some address) :
    operation.ActsOnAccount context cache address := by
  cases operation.view with
  | change _ place action changes =>
    cases target.symm.trans (address?_of_change changes)
    exact acts_change context cache changes
  | isAccountAlive =>
    cases target
    refine ⟨((isAccountAlive address).perform context cache).result, .idle,
      fun other entry _ => ⟨?_, other.cache_isAccountAlive context.ledger address⟩⟩
    simp only [perform, Cache.isAccountAlive, entry]
    split <;> rfl
  | load =>
    cases target
    exact acts_load context cache address
  | warmAddress =>
    cases target
    exact acts_of_warmAddress context cache .wasWarm fun _ => rfl
  | accountCost =>
    cases target
    exact acts_of_warmAddress context cache
      (fun warm => .cost ⟨context.config.gas.accountCost !warm, !warm⟩) fun _ => rfl
  | readSlot _ key | warmSlot _ key | storageCost _ key =>
    cases target
    exact (acts_slot context cache rfl).onAccount
  | transfer | emit | preload | preloadPrecompiles => cases target

/-- Whichever of the two operations comes first, each of them answers what it answers alone, and the
caches that are left differ in their order at most. -/
structure Commutes (context : Context ε) (cache : Cache) (first second : Operation) : Prop where
  answer : (first.perform context (second.perform context cache).cache).result =
    (first.perform context cache).result
  answer' : (second.perform context (first.perform context cache).cache).result =
    (second.perform context cache).result
  cache : (first.perform context (second.perform context cache).cache).cache.Equiv
    (second.perform context (first.perform context cache).cache).cache

/-- The operations are about different accounts, or about different slots of one account. -/
inductive Apart (first second : Operation) : Prop where
  | accounts {address other : Address} (target : first.address? = some address)
      (target' : second.address? = some other) (different : address ≠ other)
  | slots {address : Address} {key other : Word}
      (target : first.place? = some (.slot address key))
      (target' : second.place? = some (.slot address other)) (different : key ≠ other)

variable {first second : Operation} {other : Address}
  {result result' : Except (Fault ε) Reply} {effect effect' : Effect}

theorem commutes_of_acts (acts : first.Acts context cache address result effect)
    (acts' : second.Acts context cache other result' effect')
    (after : first.Acts context (effect'.apply other cache) address result effect)
    (after' : second.Acts context (effect.apply address cache) other result' effect')
    (commute : (effect.apply address (effect'.apply other cache)).Equiv
      (effect'.apply other (effect.apply address cache))) :
    first.Commutes context cache second where
  answer := by rw [acts'.cache, after.result, acts.result]
  answer' := by rw [acts.cache, after'.result, acts'.result]
  cache := by rwa [acts'.cache, after.cache, acts.cache, after'.cache]

theorem commutes_of_apart (apart : first.Apart second) : first.Commutes context cache second := by
  cases apart with
  | @accounts address other target target' different =>
    obtain ⟨result, effect, acts⟩ := acts_account context cache target
    obtain ⟨result', effect', acts'⟩ := acts_account context cache target'
    apply commutes_of_acts context cache (acts cache rfl rfl) (acts' cache rfl rfl)
    · exact acts _ (effect'.entry_apply_of_ne cache different.symm)
        (effect'.isWarm_apply_of_ne cache different.symm)
    · exact acts' _ (effect.entry_apply_of_ne cache different)
        (effect.isWarm_apply_of_ne cache different)
    · exact effect.apply_comm effect' cache different
  | @slots address key other target target' different =>
    obtain ⟨result, effect, confined, acts⟩ := acts_slot context cache target
    obtain ⟨result', effect', confined', acts'⟩ := acts_slot context cache target'
    apply commutes_of_acts context cache (acts cache (.refl _)) (acts' cache (.refl _))
    · exact acts _ (confined'.alike different.symm)
    · exact acts' _ (confined.alike different)
    · rw [confined.comm different confined']
      exact .refl _

/-- A slot that is read after a write to another one, which has loaded the account, is as cold and
has the same value as before, and the account ends up the same either way. -/
theorem commutes_in_one_account :
    let address := FixedBytes.ofNat 20 1
    let ledger : Ledger Unit := .ofElementary
      { nonce := fun _ => .known 0
        codeHash := fun _ => .known emptyCodeHash
        balance := fun _ => .known 0
        code := fun _ => .known []
        storage := fun _ _ => .known (some 3) }
    let context : Context Unit := ⟨ledger, {}⟩
    let written := ((writeSlot address 1 5).perform context {}).cache
    let read := ((readSlot address 2).perform context {}).cache
    (written.entry address).status.loaded = true ∧ (read.entry address).status.loaded = false ∧
      ((readSlot address 2).perform context written).result = .ok (.value ⟨3, true⟩) ∧
      (((writeSlot address 1 5).perform context read).cache).Equiv
        ((readSlot address 2).perform context written).cache := by
  intro address ledger context written read
  have commutes : (writeSlot address 1 5).Commutes context {} (readSlot address 2) :=
    commutes_of_apart context {} (.slots rfl rfl (by decide))
  exact ⟨rfl, rfl, commutes.answer'.trans rfl, commutes.cache⟩

end Operation

end Overlay
