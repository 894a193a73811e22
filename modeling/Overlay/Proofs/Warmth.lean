import Overlay.Proofs.Reachable

/-!
Warmth is the history of access: an address or a slot is warm if and only if some earlier step
warmed it, and what is reported as cold is what was not warm before. A step that fails has warmed
the addresses that it got to.
-/

set_option autoImplicit false

namespace Overlay

variable {ε : Type}

/-- What can be warm or cold. -/
inductive Place where
  | account (address : Address)
  | slot (address : Address) (key : Word)
  deriving DecidableEq

namespace Place

def within (address : Address) (keys : List Word) : List Place :=
  account address :: keys.map (slot address)

end Place

def Cache.isWarmAt (cache : Cache) : Place → Bool
  | .account address => cache.isWarm address
  | .slot address key => cache.isSlotWarm address key

namespace Answer

def reached (answer : Answer ε Reply) (address : Address) : Bool :=
  match answer.result with
  | .error (.unanswered failed _) => decide (failed ≠ address)
  | _ => true

def succeeded (answer : Answer ε Reply) : Bool := answer.result.isOk

/-- The accounts that were loaded, where several are to be loaded one after the other. -/
def loaded (answer : Answer ε Reply) (addresses : List Address) : List Place :=
  (addresses.takeWhile answer.reached).map .account

variable (answer : Answer ε Reply) (address other : Address)

theorem loaded_single :
    answer.loaded [address] = if answer.reached address then [.account address] else [] := by
  unfold loaded
  rw [List.takeWhile_cons]
  split <;> rfl

theorem loaded_pair :
    answer.loaded [address, other] =
      if answer.reached address then .account address :: answer.loaded [other] else [] := by
  unfold loaded
  rw [List.takeWhile_cons]
  split <;> rfl

theorem reached_unanswered (cause : ε) (queries : List Query) :
    (⟨.error (.unanswered address cause), queries⟩ : Answer ε Reply).reached other =
      decide (address ≠ other) := rfl

theorem reached_ok (reply : Reply) (queries : List Query) :
    (⟨.ok reply, queries⟩ : Answer ε Reply).reached address = true := rfl

/-- A refused action has reached its account all the same. -/
theorem reached_reply (reply : Account.Reply) (queries : List Query) :
    (⟨reply.answer address, queries⟩ : Answer ε Reply).reached other = true := by
  cases reply with
  | nonce next => cases next <;> rfl
  | done | nonceDecreased | wasWarm | value => rfl

end Answer

namespace Event

/-- The places that are warm after the event whether they were before or not. -/
def warms (event : Event ε) : List Place :=
  match event.operation with
  | .isAccountAlive _ | .emit _ => []
  | .warmAddress address | .accountCost address => [.account address]
  | .warmSlot address key | .storageCost address key => Place.within address [key]
  | .readSlot address key => Place.within address (if event.answer.succeeded then [key] else [])
  | .preload list => list.flatMap fun entry =>
      Place.within entry.address (entry.keys.map Word.ofHash)
  | .preloadPrecompiles => event.context.config.precompiles.map .account
  | .writeSlot address key _ =>
    event.answer.loaded [address] ++ if event.answer.succeeded then [.slot address key] else []
  | .load address | .setBalance address _ | .setNonce address _ | .incNonce address
  | .setCode address _ | .create address | .selfDestruct address => event.answer.loaded [address]
  | .transfer sender recipient _ => event.answer.loaded [sender, recipient]

end Event

def Operation.place? : Operation → Option Place
  | .load address | .accountCost address | .warmAddress address => some (.account address)
  | .readSlot address key | .writeSlot address key _ | .storageCost address key
  | .warmSlot address key => some (.slot address key)
  | _ => none

def Reply.isCold? : Reply → Option Bool
  | .account load => some load.isCold
  | .value load => some load.isCold
  | .written load => some load.isCold
  | .cost load => some load.isCold
  | .wasWarm warm => some !warm
  | _ => none

namespace Account

/-- The slots that an action warms; a slot that is read in place is warm already. -/
def Action.adds : Action → List Word
  | .warmSlot key | .preloadSlot key | .recordFetch key _ | .writeSlot key _ => [key]
  | _ => []

variable (account : Account) (key other : Word)

theorem isSlotWarm_editSlot_iff (edit : Slot → Slot) :
    (account.editSlot key edit).isSlotWarm other = true ↔
      account.isSlotWarm other = true ∨ other ∈ [key] := by
  rw [isSlotWarm_editSlot, Bool.or_eq_true, decide_eq_true_iff, List.mem_singleton, or_comm,
    @eq_comm _ key]

theorem isSlotWarm_of_current? {value : Word} (known : account.current? key = some value) :
    account.isSlotWarm key = true := by
  rw [isSlotWarm_eq]
  cases found : account.slot? key with
  | none => simp [current?, found] at known
  | some slot => rfl

theorem isSlotWarm_perform (action : Action) :
    (account.perform action).2.isSlotWarm other = true ↔
      account.isSlotWarm other = true ∨ other ∈ action.adds := by
  have outcome := account.perform_outcome action
  generalize account.perform action = result at outcome ⊢
  cases outcome with
  | load info => simp [Action.adds]
  | setBalance | setNonce | nonceDecreased | incNonce | nonceOverflow | setCode | selfDestruct
  | readUnknown => exact (or_iff_left List.not_mem_nil).symm
  | create => simp [Action.adds, isSlotWarm_create]
  | warmSlot key | preloadSlot key | recordFetch key =>
    exact account.isSlotWarm_editSlot_iff key other _
  | writeSlot key value => exact account.isSlotWarm_editSlot_iff key other (·.recordWrite value)
  | readKnown key value known =>
    -- The slot is edited, but it has been warm since its value became known.
    have warm := account.isSlotWarm_of_current? key known
    refine Iff.trans ?_ (or_iff_left List.not_mem_nil).symm
    refine (account.isSlotWarm_editSlot_iff key other Slot.recordRead).trans (or_iff_left_of_imp ?_)
    intro same
    rw [List.mem_singleton.mp same]
    exact warm

end Account

namespace Cache

variable (cache : Cache) (address : Address)

theorem isWarmAt_slot (key : Word) :
    cache.isWarmAt (.slot address key) = cache.isSlotWarm address key := rfl

theorem isWarmAt_setEntry {account : Account} (keys : List Word)
    (added : ∀ key, account.isSlotWarm key = true ↔
      (cache.entry address).isSlotWarm key = true ∨ key ∈ keys) (place : Place) :
    (cache.setEntry address account).isWarmAt place = true ↔
      cache.isWarmAt place = true ∨ place ∈ Place.within address keys := by
  cases place with
  | account other =>
    simp [isWarmAt, isWarm_setEntry, Place.within, @eq_comm _ other address]
  | slot other key =>
    rw [isWarmAt_slot, isSlotWarm_setEntry]
    by_cases same : address = other
    · subst same
      rw [if_pos rfl, added, ← isSlotWarm_eq_entry]
      simp [isWarmAt, Place.within]
    · simp [isWarmAt, Place.within, same]

theorem isWarmAt_setEntry_of_same {account : Account}
    (same : ∀ key, account.isSlotWarm key = (cache.entry address).isSlotWarm key) (place : Place) :
    (cache.setEntry address account).isWarmAt place = true ↔
      cache.isWarmAt place = true ∨ place = .account address := by
  rw [isWarmAt_setEntry cache address [] (by simp [same])]
  simp [Place.within]

theorem isWarmAt_editSlot (key : Word) (edit : Slot → Slot) (place : Place) :
    (cache.setEntry address ((cache.entry address).editSlot key edit)).isWarmAt place = true ↔
      cache.isWarmAt place = true ∨ place ∈ Place.within address [key] :=
  cache.isWarmAt_setEntry address [key]
    (fun other => Account.isSlotWarm_editSlot_iff _ key other edit) place

theorem isWarmAt_touch (place : Place) :
    (cache.touch address).isWarmAt place = true ↔
      cache.isWarmAt place = true ∨ place = .account address :=
  cache.isWarmAt_setEntry_of_same address (fun _ => rfl) place

theorem isWarmAt_warmAddress (place : Place) :
    (cache.warmAddress address).isWarmAt place = true ↔
      cache.isWarmAt place = true ∨ place = .account address := by
  -- Touching adds an entry on top, and a marker has no slots.
  rw [← isWarmAt_touch]
  cases place with
  | account other => rfl
  | slot other key =>
    rw [isWarmAt_slot, isWarmAt_slot, isSlotWarm_eq_entry, isSlotWarm_eq_entry, entry_touch]
    rfl

theorem isWarmAt_warmSlot (key : Word) (place : Place) :
    (cache.warmSlot address key).isWarmAt place = true ↔
      cache.isWarmAt place = true ∨ place ∈ Place.within address [key] := by
  rw [warmSlot, Account.warmSlot_eq_editSlot]
  exact cache.isWarmAt_editSlot address key id place

theorem isWarmAt_preloadAddresses (addresses : List Address) (place : Place) :
    (cache.preloadAddresses addresses).isWarmAt place = true ↔
      cache.isWarmAt place = true ∨ place ∈ addresses.map Place.account := by
  induction addresses generalizing cache with
  | nil => simp [preloadAddresses]
  | cons address rest ih =>
    refine (ih (cache.touch address)).trans ?_
    rw [isWarmAt_touch, List.map_cons, List.mem_cons, or_assoc]

theorem isSlotWarm_foldl_preloadSlot (account : Account) (keys : List Hash) (key : Word) :
    (keys.foldl (fun account key => account.preloadSlot (Word.ofHash key)) account).isSlotWarm key =
        true ↔
      account.isSlotWarm key = true ∨ key ∈ keys.map Word.ofHash := by
  induction keys generalizing account with
  | nil => simp
  | cons declared rest ih =>
    rw [List.foldl_cons, ih, Account.preloadSlot_eq_editSlot, Account.isSlotWarm_editSlot]
    simp only [Bool.or_eq_true, decide_eq_true_iff, List.map_cons, List.mem_cons]
    rw [eq_comm (a := key), or_assoc, or_left_comm]

theorem isWarmAt_preload (list : AccessList) (place : Place) :
    (cache.preload list).isWarmAt place = true ↔
      cache.isWarmAt place = true ∨ place ∈ list.flatMap fun entry =>
        Place.within entry.address (entry.keys.map Word.ofHash) := by
  induction list generalizing cache with
  | nil => simp [preload]
  | cons entry rest ih =>
    have first := cache.isWarmAt_setEntry entry.address (entry.keys.map Word.ofHash)
      (isSlotWarm_foldl_preloadSlot _ entry.keys) place
    refine (ih (cache.preloadEntry entry)).trans ?_
    rw [preloadEntry, first, List.flatMap_cons, List.mem_append, or_assoc]

theorem isWarmAt_setLoaded (info : Info) (place : Place) :
    (cache.setEntry address ((cache.entry address).load info)).isWarmAt place = true ↔
      cache.isWarmAt place = true ∨ place = .account address :=
  cache.isWarmAt_setEntry_of_same address (fun key => Account.isSlotWarm_load _ key info) place

theorem isWarmAt_loadBoth (sender recipient : Address) {payer payee : Account} {info info' : Info}
    (loaded : payer = (cache.entry sender).load info)
    (loaded' : payee = ((cache.setEntry sender payer).entry recipient).load info') (place : Place) :
    (cache.loadBoth sender recipient payer payee).isWarmAt place = true ↔
      cache.isWarmAt place = true ∨ place ∈ [.account sender, .account recipient] := by
  subst loaded loaded'
  rw [loadBoth, isWarmAt_setLoaded, isWarmAt_setLoaded, or_assoc, List.mem_cons,
    List.mem_singleton]

theorem isWarmAt_payBoth {sender recipient : Address} (different : sender ≠ recipient)
    (payer payee : Account) (paid earned : Word) (place : Place) :
    (((cache.loadBoth sender recipient payer payee).setEntry sender
        (payer.setBalance paid)).setEntry recipient (payee.setBalance earned)).isWarmAt place =
        true ↔
      (cache.loadBoth sender recipient payer payee).isWarmAt place = true ∨
        place ∈ [.account sender, .account recipient] := by
  rw [isWarmAt_setEntry_of_same, isWarmAt_setEntry_of_same, or_assoc, List.mem_cons,
    List.mem_singleton]
  · intro key
    rw [cache.entry_loadBoth_sender payer payee different]
    rfl
  · intro key
    rw [cache.entry_loadBoth_recipient payer payee different]
    rfl

end Cache

namespace Operation

variable (context : Context ε) (cache : Cache) (place : Place)

theorem isWarmAt_load (address : Address) :
    ((load address).perform context cache).cache.isWarmAt place = true ↔
      cache.isWarmAt place = true ∨ place ∈ ((load address).event context cache).warms := by
  have outcome := cache.load_outcome context.ledger address
  simp only [event, perform, Event.warms, Answer.loaded_single]
  generalize cache.load context.ledger address = step at outcome ⊢
  cases outcome with
  | failed cause unloaded failure =>
    simp [Step.answer, Step.map, Except.map, Answer.reached_unanswered]
  | answered info supplied =>
    simp [Step.answer, Step.map, Except.map, Answer.reached_ok, Cache.isWarmAt_setLoaded]

theorem isWarmAt_readSlot (address : Address) (key : Word) :
    ((readSlot address key).perform context cache).cache.isWarmAt place = true ↔
      cache.isWarmAt place = true ∨ place ∈ ((readSlot address key).event context cache).warms := by
  have outcome := cache.readSlot_outcome context.ledger address key
  simp only [event, perform]
  generalize cache.readSlot context.ledger address key = step at outcome ⊢
  cases outcome with
  | failed cause unknown plain failure =>
    refine (cache.isWarmAt_touch address place).trans (or_congr_right ?_)
    exact List.mem_singleton.symm
  | known value known => exact cache.isWarmAt_editSlot address key _ place
  | fetched value unknown filled => exact cache.isWarmAt_editSlot address key _ place

theorem isWarmAt_transfer (sender recipient : Address) (value : Word) :
    ((transfer sender recipient value).perform context cache).cache.isWarmAt place = true ↔
      cache.isWarmAt place = true ∨
        place ∈ ((transfer sender recipient value).event context cache).warms := by
  have outcome := cache.transfer_outcome context.ledger sender recipient value
  simp only [event, perform, Event.warms, Answer.loaded_pair, Answer.loaded_single]
  generalize cache.transfer context.ledger sender recipient value = step at outcome ⊢
  cases outcome with
  | senderFailed cause unloaded failure =>
    simp [Step.answer, Step.map, Except.map, Answer.reached_unanswered]
  | recipientFailed info supplied payer loaded cause unloaded failure =>
    -- The sender is loaded by now, so it is another account that the ledger knew nothing about.
    have different : recipient ≠ sender := by
      rintro rfl
      simp [loaded] at unloaded
    have warmed := cache.isWarmAt_setLoaded sender info place
    rw [← loaded] at warmed
    simp [Step.answer, Step.map, Except.map, Answer.reached_unanswered, different, warmed]
  | unmoved info supplied payer loaded info' supplied' payee loaded' answer reason =>
    exact cache.isWarmAt_loadBoth sender recipient loaded loaded' place
  | moved info supplied payer loaded info' supplied' payee loaded' funds moving room =>
    have different : sender ≠ recipient := fun same => moving (.inr same)
    have both := cache.isWarmAt_loadBoth sender recipient loaded loaded' place
    have paid := cache.isWarmAt_payBoth different payer payee (payer.info.balance - value)
      (payee.info.balance + value) place
    refine (paid.trans (or_congr_left both)).trans (or_iff_left_of_imp ?_)
    exact .inr

section Change

variable {operation : Operation} {address : Address} {action : Account.Action}
  (changes : operation.change? = some (address, action))

include changes

theorem warms_unanswered (cause : ε) (queries : List Query) :
    Event.warms ⟨context, operation, ⟨.error (.unanswered address cause), queries⟩⟩ = [] := by
  cases operation <;> cases changes <;>
    simp [Event.warms, Answer.loaded_single, Answer.reached_unanswered, Answer.succeeded,
      Except.isOk, Except.toBool]

theorem warms_reply (account : Account) (queries : List Query) :
    Event.warms ⟨context, operation, ⟨(account.perform action).1.answer address, queries⟩⟩ =
      Place.within address action.adds := by
  have reached : (⟨(account.perform action).1.answer address, queries⟩ : Answer ε Reply).reached
      address = true := Answer.reached_reply address address _ queries
  cases operation <;> cases changes
  case writeSlot key value => rfl
  all_goals
    simp only [Event.warms, Answer.loaded_single, reached, if_pos]
    rfl

theorem isWarmAt_change :
    (operation.perform context cache).cache.isWarmAt place = true ↔
      cache.isWarmAt place = true ∨ place ∈ (operation.event context cache).warms := by
  have outcome := operation.change_outcome context cache changes
  unfold event
  generalize operation.perform context cache = step at outcome ⊢
  cases outcome with
  | failed cause unloaded failure =>
    rw [Step.answer, warms_unanswered context changes]
    exact (or_iff_left List.not_mem_nil).symm
  | performed info supplied account loaded =>
    have same : ∀ key, account.isSlotWarm key = (cache.entry address).isSlotWarm key := by
      intro key
      rw [loaded, Account.isSlotWarm_load]
    rw [Step.answer, warms_reply context changes]
    apply Cache.isWarmAt_setEntry
    intro key
    rw [← same]
    exact account.isSlotWarm_perform key action

end Change

/-- An operation warms the places of its event and no others, and none ever turns cold. -/
theorem isWarmAt_perform (operation : Operation) :
    (operation.perform context cache).cache.isWarmAt place = true ↔
      cache.isWarmAt place = true ∨ place ∈ (operation.event context cache).warms := by
  cases operation.view with
  | change _ address action changes => exact isWarmAt_change context cache place changes
  | isAccountAlive address =>
    have same : ((isAccountAlive address).perform context cache).cache = cache :=
      cache.cache_isAccountAlive context.ledger address
    rw [same]
    exact (or_iff_left List.not_mem_nil).symm
  | load address => exact isWarmAt_load context cache place address
  | readSlot address key => exact isWarmAt_readSlot context cache place address key
  | transfer sender recipient value =>
    exact isWarmAt_transfer context cache place sender recipient value
  | emit log => exact (or_iff_left List.not_mem_nil).symm
  | warmAddress address | accountCost address =>
    exact (cache.isWarmAt_warmAddress address place).trans
      (or_congr_right List.mem_singleton.symm)
  | warmSlot address key | storageCost address key =>
    exact cache.isWarmAt_warmSlot address key place
  | preload list => exact cache.isWarmAt_preload list place
  | preloadPrecompiles => exact cache.isWarmAt_preloadAddresses _ place

theorem isCold?_answer {operation : Operation} {address : Address} {action : Account.Action}
    (changes : operation.change? = some (address, action)) {account : Account}
    (same : ∀ key, account.isSlotWarm key = cache.isSlotWarm address key) {reply : Reply}
    (answered : (account.perform action).1.answer address =
      (.ok reply : Except (Fault ε) Reply)) :
    reply.isCold? = operation.place?.map fun place => !cache.isWarmAt place := by
  revert answered
  cases operation <;> cases changes
  case writeSlot key value =>
    rintro ⟨⟩
    exact congrArg (fun warm => some !warm) (same key)
  case setNonce nonce =>
    have outcome := account.perform_outcome (.setNonce nonce)
    generalize account.perform (.setNonce nonce) = result at outcome ⊢
    cases outcome <;> rintro ⟨⟩
    rfl
  case incNonce =>
    have outcome := account.perform_outcome .incNonce
    generalize account.perform .incNonce = result at outcome ⊢
    cases outcome <;> rintro ⟨⟩
    rfl
  all_goals
    rintro ⟨⟩
    rfl

theorem isCold?_reply (operation : Operation) {reply : Reply}
    (answered : (operation.perform context cache).result = .ok reply) :
    reply.isCold? = operation.place?.map fun place => !cache.isWarmAt place := by
  cases operation.view with
  | change _ address action changes =>
    have outcome := operation.change_outcome context cache changes
    generalize operation.perform context cache = step at outcome answered
    cases outcome with
    | failed => cases answered
    | performed info supplied account loaded =>
      apply isCold?_answer cache changes _ answered
      intro key
      rw [loaded, Account.isSlotWarm_load, Cache.isSlotWarm_eq_entry]
  | isAccountAlive address =>
    simp only [perform, Step.map] at answered
    cases alive : (cache.isAccountAlive context.ledger address).result <;>
      simp only [alive, Except.map] at answered <;> cases answered
    rfl
  | load address =>
    have outcome := cache.load_outcome context.ledger address
    simp only [perform] at answered
    generalize cache.load context.ledger address = step at outcome answered
    cases outcome with
    | failed => cases answered
    | answered => cases answered; rfl
  | readSlot address key =>
    have outcome := cache.readSlot_outcome context.ledger address key
    simp only [perform] at answered
    generalize cache.readSlot context.ledger address key = step at outcome answered
    cases outcome with
    | failed => cases answered
    | known | fetched => cases answered; rfl
  | transfer sender recipient value =>
    simp only [perform, Step.map] at answered
    cases moved : (cache.transfer context.ledger sender recipient value).result <;>
      simp only [moved, Except.map] at answered <;> cases answered
    rfl
  | emit | warmAddress | warmSlot | accountCost | storageCost | preload | preloadPrecompiles =>
    cases answered
    simp [Reply.isCold?, place?, Cache.isWarmAt]

end Operation

namespace Trace

variable {past : List (Event ε)} {cache : Cache}

theorem isWarmAt_iff (trace : Trace past cache) (place : Place) :
    cache.isWarmAt place = true ↔ ∃ event ∈ past, place ∈ event.warms := by
  have cold : ¬ ({} : Cache).isWarmAt place = true := by
    cases place with
    | account address => simp [Cache.isWarmAt, Cache.isWarm]
    | slot address key =>
      simp [Cache.isWarmAt, Cache.isSlotWarm_eq_entry, Cache.entry_new, Account.isSlotWarm_eq]
  exact trace.iff_exists (P := fun cache => cache.isWarmAt place = true) cold
    fun context cache operation => operation.isWarmAt_perform context cache place

/-- A place is warm if and only if some earlier event warmed it, and the replies that report on a
place say that it is cold if and only if none has. -/
theorem warmth (trace : Trace past cache) :
    (∀ place, cache.isWarmAt place = true ↔ ∃ event ∈ past, place ∈ event.warms) ∧
    ∀ (context : Context ε) (operation : Operation) (reply : Reply),
      (operation.perform context cache).result = .ok reply →
      ∀ place, operation.place? = some place →
        ∃ cold, reply.isCold? = some cold ∧
          (cold = true ↔ ¬ ∃ event ∈ past, place ∈ event.warms) := by
  refine ⟨trace.isWarmAt_iff, ?_⟩
  intro context operation reply answered place reports
  have reported := operation.isCold?_reply context cache answered
  rw [reports] at reported
  refine ⟨!cache.isWarmAt place, reported, ?_⟩
  rw [← trace.isWarmAt_iff place]
  simp

/-- A read that failed leaves its address warm and its slot cold. -/
theorem warmth_after_failed_read :
    let ledger : Ledger Unit := .ofElementary
      { nonce := fun _ => .known 0
        codeHash := fun _ => .known emptyCodeHash
        balance := fun _ => .known 0
        code := fun _ => .known []
        storage := fun address key => .sent (.storage address key) (.error ()) }
    let address := FixedBytes.ofNat 20 1
    let cache := ((Operation.readSlot address 1).perform ⟨ledger, {}⟩ {}).cache
    cache.isWarmAt (.account address) = true ∧
      ∃ reply, ((Operation.storageCost address 1).perform ⟨ledger, {}⟩ cache).result = .ok reply ∧
        reply.isCold? = some true := by
  intro ledger address cache
  have trace : Trace _ cache := Trace.new.step ⟨ledger, {}⟩ (.readSlot address 1)
  obtain ⟨warm, reports⟩ := trace.warmth
  constructor
  · exact (warm _).mpr ⟨_, List.mem_singleton_self _, List.mem_cons_self⟩
  · obtain ⟨cold, reported, iff⟩ := reports ⟨ledger, {}⟩ (.storageCost address 1) _ rfl _ rfl
    have untouched : cold = true := iff.mpr <| by
      rintro ⟨event, member, listed⟩
      cases List.mem_singleton.mp member
      cases List.mem_singleton.mp listed
    exact ⟨_, rfl, reported.trans (congrArg some untouched)⟩

end Trace

end Overlay
