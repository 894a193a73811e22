import Overlay.Proofs.Listing
import Overlay.Proofs.View

/-!
The flags of a cache are the history of what succeeded: an account or a slot bears a mark if and
only if some earlier step left it there. The output lists the accounts that are marked as cached, in
the order in which the steps first entered them.
-/

set_option autoImplicit false

namespace Overlay

variable {ε : Type}

inductive Slot.Mark where
  | read
  | written
  | preloaded
  deriving DecidableEq

namespace Slot

def bears (slot : Slot) : Mark → Bool
  | .read => slot.access.read
  | .written => slot.access.written
  | .preloaded => slot.access.preloaded

/-- The edit leaves these marks on a slot and all the others as they are. -/
def Leaves (edit : Slot → Slot) (marks : List Mark) : Prop :=
  ∀ slot mark, (edit slot).bears mark = true ↔ slot.bears mark = true ∨ mark ∈ marks

theorem leaves_id : Leaves id [] := by
  intro slot mark
  simp

theorem leaves_recordRead : Leaves recordRead [.read] := by
  intro slot mark
  cases mark <;> simp [bears, recordRead]

theorem leaves_recordFetch (value : Word) : Leaves (·.recordFetch value) [.read] := by
  intro slot mark
  cases mark <;> simp [bears, recordFetch]

theorem leaves_recordWrite (value : Word) : Leaves (·.recordWrite value) [.written] := by
  intro slot mark
  cases mark <;> simp [bears, recordWrite]

theorem leaves_recordPreload : Leaves recordPreload [.preloaded] := by
  intro slot mark
  cases mark <;> simp [bears, recordPreload]

theorem bears_cleared (slot : Slot) (mark : Mark) : slot.cleared.bears mark = slot.bears mark := by
  cases mark <;> rfl

theorem bears_warm (mark : Mark) : warm.bears mark = false := by
  cases mark <;> rfl

end Slot

/-- What the flags of an account and of its slots can say. -/
inductive Account.Mark where
  | cached
  | created
  | selfDestructed
  | slot (key : Word) (mark : Slot.Mark)
  deriving DecidableEq

namespace Account

def bears (account : Account) : Mark → Bool
  | .cached => account.status.cached
  | .created => account.status.created
  | .selfDestructed => account.status.selfDestructed
  | .slot key mark => (account.slot? key).any (·.bears mark)

/-- The marks that an action leaves, given what it replies; a refused one leaves none. -/
def Action.marks : Action → Reply → List Mark
  | _, .nonceDecreased | _, .nonce none | _, .value none => []
  | .load _, _ | .warmSlot _, _ => []
  | .setBalance _, _ | .setNonce _, _ | .incNonce, _ | .setCode _, _ => [.cached]
  | .create, _ => [.created, .cached]
  | .selfDestruct, _ => [.selfDestructed, .cached]
  | .preloadSlot key, _ => [.slot key .preloaded]
  | .recordFetch key _, _ | .readKnown key, _ => [.slot key .read]
  | .writeSlot key _, _ => [.slot key .written, .cached]

variable (account : Account) (mark : Mark)

theorem bears_marker (address : Address) : (marker address).bears mark = false := by
  cases mark with
  | cached | created | selfDestructed => rfl
  | slot key mark => simp [bears]

theorem bears_load (info : Info) : (account.load info).bears mark = account.bears mark := by
  cases mark <;> simp [bears]

theorem bears_change (info : Info) :
    (account.change info).bears mark = true ↔ account.bears mark = true ∨ mark ∈ [.cached] := by
  cases mark <;> simp [bears]

theorem bears_create :
    account.create.bears mark = true ↔
      account.bears mark = true ∨ mark ∈ [.created, .cached] := by
  cases mark with
  | slot key mark =>
    -- The slots are cleared, which keeps their marks.
    simp only [bears, slot?_create, Option.any_map, Slot.bears_cleared]
    simp
  | cached | created | selfDestructed => simp [bears]

theorem bears_selfDestruct :
    account.selfDestruct.bears mark = true ↔
      account.bears mark = true ∨ mark ∈ [.selfDestructed, .cached] := by
  cases mark <;> simp [bears]

theorem bears_editSlot {edit : Slot → Slot} {marks : List Slot.Mark}
    (leaves : Slot.Leaves edit marks) (key : Word) :
    (account.editSlot key edit).bears mark = true ↔
      account.bears mark = true ∨ mark ∈ marks.map (Mark.slot key) := by
  cases mark with
  | cached | created | selfDestructed => simp [bears]
  | slot other mark =>
    simp only [bears, slot?_editSlot, List.mem_map, Mark.slot.injEq]
    by_cases same : key = other
    · subst same
      rw [if_pos rfl, Option.any_some, leaves]
      cases account.slot? key <;> simp [Slot.bears_warm]
    · simp [same]

theorem bears_writeSlot (key value : Word) :
    (account.writeSlot key value).bears mark = true ↔
      account.bears mark = true ∨ mark ∈ [.slot key .written, .cached] := by
  cases mark with
  | cached | created | selfDestructed => simp [bears]
  | slot other mark =>
    have edited := account.bears_editSlot (.slot other mark) (Slot.leaves_recordWrite value) key
    refine Iff.trans edited (or_congr_right ?_)
    simp

theorem bears_perform (action : Action) :
    (account.perform action).2.bears mark = true ↔
      account.bears mark = true ∨ mark ∈ action.marks (account.perform action).1 := by
  have outcome := account.perform_outcome action
  generalize account.perform action = result at outcome ⊢
  cases outcome with
  | load info =>
    rw [account.bears_load mark info]
    exact (or_iff_left List.not_mem_nil).symm
  | setBalance | setNonce | incNonce | setCode => exact account.bears_change mark _
  | nonceDecreased | nonceOverflow | readUnknown => exact (or_iff_left List.not_mem_nil).symm
  | create => exact account.bears_create mark
  | selfDestruct => exact account.bears_selfDestruct mark
  | warmSlot key => exact account.bears_editSlot mark Slot.leaves_id key
  | preloadSlot key => exact account.bears_editSlot mark Slot.leaves_recordPreload key
  | recordFetch key fetched =>
    exact account.bears_editSlot mark (Slot.leaves_recordFetch fetched) key
  | readKnown key => exact account.bears_editSlot mark Slot.leaves_recordRead key
  | writeSlot key value => exact account.bears_writeSlot mark key value

theorem bears_foldl_preloadSlot (keys : List Hash) :
    (keys.foldl (fun account key => account.preloadSlot (Word.ofHash key)) account).bears mark =
        true ↔
      account.bears mark = true ∨
        mark ∈ keys.map fun key => .slot (Word.ofHash key) .preloaded := by
  induction keys generalizing account with
  | nil => simp
  | cons declared rest ih =>
    rw [List.foldl_cons, ih, preloadSlot_eq_editSlot,
      account.bears_editSlot mark Slot.leaves_recordPreload, or_assoc, List.map_cons,
      List.mem_cons]
    simp

end Account

namespace Operation

def marks : Operation → List (Address × Account.Mark)
  | readSlot address key => [(address, .slot key .read)]
  | writeSlot address key _ => [(address, .slot key .written), (address, .cached)]
  | setBalance address _ | setNonce address _ | incNonce address | setCode address _ =>
    [(address, .cached)]
  | create address => [(address, .created), (address, .cached)]
  | selfDestruct address => [(address, .selfDestructed), (address, .cached)]
  | transfer sender recipient value =>
    if value = 0 ∨ sender = recipient then [] else [(sender, .cached), (recipient, .cached)]
  | preload list => list.flatMap fun entry =>
      entry.keys.map fun key => (entry.address, .slot (Word.ofHash key) .preloaded)
  | isAccountAlive _ | load _ | emit _ | warmAddress _ | warmSlot _ _ | accountCost _
  | storageCost _ _ | preloadPrecompiles => []

end Operation

/-- A failed operation and a refused transfer leave no marks. -/
def Event.marks (event : Event ε) : List (Address × Account.Mark) :=
  if event.answer.accepted then event.operation.marks else []

namespace Cache

variable (cache : Cache) (address other : Address) (mark : Account.Mark)

def bears (cache : Cache) (address : Address) (mark : Account.Mark) : Bool :=
  (cache.entry address).bears mark

theorem bears_setEntry {account : Account} (marks : List Account.Mark)
    (left : ∀ mark, account.bears mark = true ↔
      (cache.entry address).bears mark = true ∨ mark ∈ marks) :
    (cache.setEntry address account).bears other mark = true ↔
      cache.bears other mark = true ∨ (other, mark) ∈ marks.map (address, ·) := by
  simp only [bears, entry_setEntry, List.mem_map, Prod.mk.injEq]
  by_cases same : address = other
  · subst same
    rw [if_pos rfl, left]
    simp
  · simp [same]

theorem bears_touch : (cache.touch address).bears other mark = cache.bears other mark :=
  congrArg (Account.bears · mark) (cache.entry_touch address other)

theorem bears_editSlot {edit : Slot → Slot} {marks : List Slot.Mark}
    (leaves : Slot.Leaves edit marks) (key : Word) :
    (cache.setEntry address ((cache.entry address).editSlot key edit)).bears other mark = true ↔
      cache.bears other mark = true ∨
        (other, mark) ∈ (marks.map (Account.Mark.slot key)).map (address, ·) :=
  cache.bears_setEntry address other mark _
    fun mark => (cache.entry address).bears_editSlot mark leaves key

theorem bears_warmSlot (key : Word) :
    (cache.warmSlot address key).bears other mark = cache.bears other mark := by
  rw [warmSlot, Account.warmSlot_eq_editSlot, Bool.eq_iff_iff,
    cache.bears_editSlot address other mark Slot.leaves_id]
  exact or_iff_left List.not_mem_nil

theorem bears_preloadAddresses (addresses : List Address) :
    (cache.preloadAddresses addresses).bears other mark = cache.bears other mark :=
  preloadAddresses_invariant (P := fun after => after.bears other mark = cache.bears other mark)
    (fun before address same => (before.bears_touch address other mark).trans same)
    cache addresses rfl

theorem bears_preload (list : AccessList) :
    (cache.preload list).bears other mark = true ↔
      cache.bears other mark = true ∨ (other, mark) ∈ (Operation.preload list).marks := by
  induction list generalizing cache with
  | nil => simp [preload, Operation.marks]
  | cons entry rest ih =>
    have first := cache.bears_setEntry entry.address other mark _
      fun mark => (cache.entry entry.address).bears_foldl_preloadSlot mark entry.keys
    refine (ih (cache.preloadEntry entry)).trans ?_
    rw [preloadEntry, first, or_assoc, List.map_map]
    simp only [Operation.marks, List.flatMap_cons, List.mem_append]
    rfl

theorem bears_load (info : Info) :
    (cache.setEntry address ((cache.entry address).load info)).bears other mark =
      cache.bears other mark := by
  rw [bears, entry_setEntry, bears]
  split
  · next same => rw [same, Account.bears_load]
  · rfl

theorem bears_loadBoth (sender recipient : Address) {payer payee : Account} {info info' : Info}
    (loaded : payer = (cache.entry sender).load info)
    (loaded' : payee = ((cache.setEntry sender payer).entry recipient).load info') :
    (cache.loadBoth sender recipient payer payee).bears other mark = cache.bears other mark := by
  subst loaded loaded'
  rw [loadBoth, bears_load, bears_load]

theorem bears_payBoth {sender recipient : Address} (different : sender ≠ recipient)
    (payer payee : Account) (paid earned : Word) :
    (((cache.loadBoth sender recipient payer payee).setEntry sender
        (payer.setBalance paid)).setEntry recipient (payee.setBalance earned)).bears other mark =
        true ↔
      (cache.loadBoth sender recipient payer payee).bears other mark = true ∨
        (other, mark) ∈ [(sender, .cached), (recipient, .cached)] := by
  rw [bears_setEntry _ recipient other mark [.cached], bears_setEntry _ sender other mark [.cached],
    or_assoc]
  · simp
  · intro mark
    rw [cache.entry_loadBoth_sender payer payee different]
    exact payer.bears_change mark _
  · intro mark
    rw [cache.entry_loadBoth_recipient payer payee different]
    exact payee.bears_change mark _

end Cache

namespace Operation

variable (context : Context ε) (cache : Cache) (other : Address) (mark : Account.Mark)

theorem bears_transfer (sender recipient : Address) (value : Word) :
    ((transfer sender recipient value).perform context cache).cache.bears other mark = true ↔
      cache.bears other mark = true ∨
        (other, mark) ∈ ((transfer sender recipient value).event context cache).marks := by
  have outcome := cache.transfer_outcome context.ledger sender recipient value
  simp only [event, perform]
  generalize cache.transfer context.ledger sender recipient value = step at outcome ⊢
  cases outcome with
  | senderFailed => exact (or_iff_left List.not_mem_nil).symm
  | recipientFailed info supplied payer loaded =>
    have same := cache.bears_load sender other mark info
    rw [← loaded] at same
    exact (Bool.eq_iff_iff.mp same).trans (or_iff_left List.not_mem_nil).symm
  | unmoved info supplied payer loaded info' supplied' payee loaded' answer reason =>
    have same := cache.bears_loadBoth other mark sender recipient loaded loaded'
    rw [← same]
    refine (or_iff_left ?_).symm
    -- It was refused, or there was nothing to move.
    cases reason with
    | outOfFunds | overflowPayment => exact List.not_mem_nil
    | idle funds still =>
      have none : (transfer sender recipient value).marks = [] := if_pos still
      simp [Event.marks, none]
  | moved info supplied payer loaded info' supplied' payee loaded' funds moving room =>
    have different : sender ≠ recipient := fun same => moving (.inr same)
    have same := cache.bears_loadBoth other mark sender recipient loaded loaded'
    have both : (transfer sender recipient value).marks =
        [(sender, .cached), (recipient, .cached)] := if_neg moving
    refine (cache.bears_payBoth other mark different payer payee _ _).trans ?_
    rw [same, ← both]
    rfl

theorem marks_reply {operation : Operation} {address : Address} {action : Account.Action}
    (changes : operation.change? = some (address, action)) (account : Account)
    (queries : List Query) :
    Event.marks ⟨context, operation, ⟨(account.perform action).1.answer address, queries⟩⟩ =
      (action.marks (account.perform action).1).map (address, ·) := by
  have outcome := account.perform_outcome action
  generalize account.perform action = result at outcome ⊢
  cases operation <;> cases changes <;> cases outcome <;> rfl

theorem bears_change {operation : Operation} {address : Address} {action : Account.Action}
    (changes : operation.change? = some (address, action)) :
    (operation.perform context cache).cache.bears other mark = true ↔
      cache.bears other mark = true ∨
        (other, mark) ∈ (operation.event context cache).marks := by
  have outcome := operation.change_outcome context cache changes
  unfold event
  generalize operation.perform context cache = step at outcome ⊢
  cases outcome with
  | failed => exact (or_iff_left List.not_mem_nil).symm
  | performed info supplied account loaded =>
    rw [Step.answer, marks_reply context changes]
    apply Cache.bears_setEntry
    intro mark
    have unmarked : account.bears mark = (cache.entry address).bears mark := by
      rw [loaded, Account.bears_load]
    rw [← unmarked]
    exact account.bears_perform mark action

theorem bears_readSlot (address : Address) (key : Word) :
    ((readSlot address key).perform context cache).cache.bears other mark = true ↔
      cache.bears other mark = true ∨
        (other, mark) ∈ ((readSlot address key).event context cache).marks := by
  have outcome := cache.readSlot_outcome context.ledger address key
  simp only [event, perform]
  generalize cache.readSlot context.ledger address key = step at outcome ⊢
  cases outcome with
  | failed =>
    rw [← cache.bears_touch address other mark]
    exact (or_iff_left List.not_mem_nil).symm
  | known value => exact cache.bears_editSlot address other mark Slot.leaves_recordRead key
  | fetched value =>
    exact cache.bears_editSlot address other mark (Slot.leaves_recordFetch value) key

/-- An operation leaves the marks of its event and no others, and takes none away. -/
theorem bears_perform (operation : Operation) :
    (operation.perform context cache).cache.bears other mark = true ↔
      cache.bears other mark = true ∨
        (other, mark) ∈ (operation.event context cache).marks := by
  have unmarked : ∀ {after : Cache} (answer : Answer ε Reply), operation.marks = [] →
      after.bears other mark = cache.bears other mark →
        (after.bears other mark = true ↔ cache.bears other mark = true ∨
          (other, mark) ∈ Event.marks ⟨context, operation, answer⟩) := by
    intro after answer none same
    simp [Event.marks, none, same]
  cases operation.view with
  | change _ address action changes => exact bears_change context cache other mark changes
  | readSlot address key => exact bears_readSlot context cache other mark address key
  | transfer sender recipient value =>
    exact bears_transfer context cache other mark sender recipient value
  | preload list => exact cache.bears_preload other mark list
  | isAccountAlive address =>
    refine unmarked _ rfl (congrArg (Cache.bears · other mark) ?_)
    exact cache.cache_isAccountAlive context.ledger address
  | load address =>
    refine unmarked _ rfl ?_
    have outcome := cache.load_outcome context.ledger address
    simp only [perform]
    generalize cache.load context.ledger address = step at outcome ⊢
    cases outcome with
    | failed => rfl
    | answered info => exact cache.bears_load address other mark info
  | emit | warmAddress | accountCost => exact unmarked _ rfl rfl
  | warmSlot address key | storageCost address key =>
    exact unmarked _ rfl (cache.bears_warmSlot address other mark key)
  | preloadPrecompiles => exact unmarked _ rfl (cache.bears_preloadAddresses other mark _)

end Operation

namespace Trace

variable {past : List (Event ε)} {cache : Cache}

theorem bears_iff (trace : Trace past cache) (address : Address) (mark : Account.Mark) :
    cache.bears address mark = true ↔ ∃ event ∈ past, (address, mark) ∈ event.marks :=
  trace.iff_exists (P := fun cache => cache.bears address mark = true)
    (by simp [Cache.bears, Cache.entry_new, Account.bears_marker])
    fun context cache operation => operation.bears_perform context cache address mark

/-- The accounts and slots bear the marks that the past has left and no others. The output has the
accounts that are marked as cached, in the order of their entries, and a new cache takes over. -/
theorem provenance (trace : Trace past cache) :
    (∀ address mark,
      cache.bears address mark = true ↔ ∃ event ∈ past, (address, mark) ∈ event.marks) ∧
    cache.takeOutput.1.accounts.keys =
      (InsertionSet.ofList (past.flatMap Event.enters)).toList.filter
        (fun address => ∃ event ∈ past, (address, .cached) ∈ event.marks) ∧
    cache.takeOutput.2 = {} := by
  refine ⟨trace.bears_iff, ?_, rfl⟩
  rw [← trace.listed_eq]
  refine (cache.accounts.keys_filter _).trans ?_
  apply List.filter_congr
  intro address _
  rw [Bool.eq_iff_iff, decide_eq_true_iff, ← trace.bears_iff, Cache.bears, Cache.entry,
    Cache.account?]
  cases cache.accounts.get? address <;> simp [Account.bears, Account.marker]

/-- An account that was only loaded at first stands before one that was written earlier. -/
theorem provenance_after_late_change :
    let ledger : Ledger Unit := .ofElementary
      { nonce := fun _ => .known 0
        codeHash := fun _ => .known emptyCodeHash
        balance := fun _ => .known 0
        code := fun _ => .known []
        storage := fun _ _ => .known none }
    let first := FixedBytes.ofNat 20 1
    let second := FixedBytes.ofNat 20 2
    let loaded := ((Operation.load first).perform ⟨ledger, {}⟩ {}).cache
    let written := ((Operation.writeSlot second 1 5).perform ⟨ledger, {}⟩ loaded).cache
    let cache := ((Operation.setNonce first 3).perform ⟨ledger, {}⟩ written).cache
    cache.bears second (.slot 1 .written) = true ∧ cache.bears second (.slot 1 .read) = false ∧
      cache.takeOutput.1.accounts.keys = [first, second] := by
  intro ledger first second loaded written cache
  have trace : Trace _ cache :=
    ((Trace.new.step ⟨ledger, {}⟩ (.load first)).step ⟨ledger, {}⟩ (.writeSlot second 1 5)).step
      ⟨ledger, {}⟩ (.setNonce first 3)
  obtain ⟨marked, listed, _⟩ := trace.provenance
  refine ⟨(marked second (.slot 1 .written)).mpr (by decide), ?_, listed.trans (by decide)⟩
  rw [Bool.eq_false_iff, Ne, marked second (.slot 1 .read)]
  decide

end Trace

end Overlay
