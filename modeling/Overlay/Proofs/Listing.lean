import Overlay.Proofs.Warmth

/-!
The order of the entries is the history of access: every address stands where the first step that
got to it has put it. Warming an address alone and asking whether an account is alive make no entry.
-/

set_option autoImplicit false

namespace Overlay

variable {ε : Type}

/-- The addresses that have an entry after the event, in the order in which it gets to them. -/
def Event.enters (event : Event ε) : List Address :=
  match event.operation with
  | .isAccountAlive _ | .emit _ | .warmAddress _ | .accountCost _ => []
  | .readSlot address _ | .warmSlot address _ | .storageCost address _ => [address]
  | .preload list => list.map (·.address)
  | .preloadPrecompiles => event.context.config.precompiles
  | .load address | .writeSlot address _ _ | .setBalance address _ | .setNonce address _
  | .incNonce address | .setCode address _ | .create address | .selfDestruct address =>
    [address].takeWhile event.answer.reached
  | .transfer sender recipient _ => [sender, recipient].takeWhile event.answer.reached

namespace Cache

variable (cache : Cache) (address : Address)

def listed (cache : Cache) : InsertionSet Address where
  toList := cache.accounts.keys
  nodup := cache.accounts.nodup

theorem listed_setEntry (account : Account) :
    (cache.setEntry address account).listed = cache.listed.insert address := by
  apply InsertionSet.ext_toList
  rw [InsertionSet.toList_insert]
  exact cache.accounts.keys_insert address account

theorem listed_preloadAddresses (addresses : List Address) :
    (cache.preloadAddresses addresses).listed =
      addresses.foldl InsertionSet.insert cache.listed := by
  induction addresses generalizing cache with
  | nil => rfl
  | cons address rest ih =>
    rw [List.foldl_cons, ← cache.listed_setEntry address (cache.entry address)]
    exact ih (cache.touch address)

theorem listed_preload (list : AccessList) :
    (cache.preload list).listed =
      (list.map AccessList.Entry.address).foldl InsertionSet.insert cache.listed := by
  induction list generalizing cache with
  | nil => rfl
  | cons entry rest ih =>
    have first : (cache.preloadEntry entry).listed = cache.listed.insert entry.address :=
      cache.listed_setEntry entry.address _
    rw [List.map_cons, List.foldl_cons, ← first]
    exact ih (cache.preloadEntry entry)

theorem listed_loadBoth (sender recipient : Address) (payer payee : Account) :
    (cache.loadBoth sender recipient payer payee).listed =
      [sender, recipient].foldl InsertionSet.insert cache.listed := by
  rw [loadBoth, listed_setEntry, listed_setEntry]
  rfl

theorem listed_payBoth (sender recipient : Address) (payer payee payer' payee' : Account) :
    (((cache.loadBoth sender recipient payer payee).setEntry sender payer').setEntry recipient
        payee').listed = (cache.loadBoth sender recipient payer payee).listed := by
  rw [listed_setEntry, listed_setEntry, listed_loadBoth, List.foldl_cons, List.foldl_cons,
    List.foldl_nil, InsertionSet.insert_of_mem (a := sender),
    InsertionSet.insert_of_mem (a := recipient)]
  · exact InsertionSet.mem_insert.mpr (.inr rfl)
  · exact InsertionSet.mem_insert.mpr (.inl (InsertionSet.mem_insert.mpr (.inr rfl)))

end Cache

namespace Operation

variable (context : Context ε) (cache : Cache)

theorem listed_transfer (sender recipient : Address) (value : Word) :
    ((transfer sender recipient value).perform context cache).cache.listed =
      ((transfer sender recipient value).event context cache).enters.foldl InsertionSet.insert
        cache.listed := by
  have outcome := cache.transfer_outcome context.ledger sender recipient value
  simp only [event, perform]
  generalize cache.transfer context.ledger sender recipient value = step at outcome ⊢
  cases outcome with
  | senderFailed cause unloaded failure =>
    simp [Event.enters, Step.answer, Step.map, Except.map, Answer.reached_unanswered]
  | recipientFailed info supplied payer loaded cause unloaded failure =>
    have different : recipient ≠ sender := by
      rintro rfl
      simp [loaded] at unloaded
    simp [Event.enters, Step.answer, Step.map, Except.map, Answer.reached_unanswered, different,
      Cache.listed_setEntry]
  | unmoved info supplied payer loaded info' supplied' payee =>
    exact cache.listed_loadBoth sender recipient payer payee
  | moved info supplied payer loaded info' supplied' payee =>
    refine Eq.trans ?_ (cache.listed_loadBoth sender recipient payer payee)
    exact cache.listed_payBoth sender recipient payer payee _ _

section Change

variable {operation : Operation} {address : Address} {action : Account.Action}
  (changes : operation.change? = some (address, action))

include changes

theorem enters_change (answer : Answer ε Reply) :
    Event.enters ⟨context, operation, answer⟩ = [address].takeWhile answer.reached := by
  cases operation <;> cases changes <;> rfl

theorem listed_change :
    (operation.perform context cache).cache.listed =
      (operation.event context cache).enters.foldl InsertionSet.insert cache.listed := by
  have outcome := operation.change_outcome context cache changes
  unfold event
  rw [enters_change context changes]
  generalize operation.perform context cache = step at outcome ⊢
  cases outcome with
  | failed => simp [Step.answer, Answer.reached_unanswered]
  | performed info supplied account loaded =>
    rw [Step.answer, List.takeWhile_cons, Answer.reached_reply]
    exact cache.listed_setEntry address _

end Change

/-- An operation adds the addresses that its event enters, in their order. -/
theorem listed_perform (operation : Operation) :
    (operation.perform context cache).cache.listed =
      (operation.event context cache).enters.foldl InsertionSet.insert cache.listed := by
  cases operation.view with
  | change _ address action changes => exact listed_change context cache changes
  | isAccountAlive address =>
    exact congrArg Cache.listed (cache.cache_isAccountAlive context.ledger address)
  | load address =>
    have outcome := cache.load_outcome context.ledger address
    simp only [event, perform]
    generalize cache.load context.ledger address = step at outcome ⊢
    cases outcome with
    | failed =>
      simp [Event.enters, Step.answer, Step.map, Except.map, Answer.reached_unanswered]
    | answered => exact cache.listed_setEntry address _
  | readSlot address key =>
    have outcome := cache.readSlot_outcome context.ledger address key
    simp only [event, perform]
    generalize cache.readSlot context.ledger address key = step at outcome ⊢
    cases outcome with
    | failed | known | fetched => exact cache.listed_setEntry address _
  | transfer sender recipient value => exact listed_transfer context cache sender recipient value
  | emit | warmAddress | accountCost => rfl
  | warmSlot address key | storageCost address key => exact cache.listed_setEntry address _
  | preload list => exact cache.listed_preload list
  | preloadPrecompiles => exact cache.listed_preloadAddresses _

end Operation

theorem Trace.listed_eq {past : List (Event ε)} {cache : Cache} (trace : Trace past cache) :
    cache.listed = .ofList (past.flatMap Event.enters) := by
  induction trace with
  | new => rfl
  | step before context operation ih =>
    rw [operation.listed_perform, ih, List.flatMap_append, InsertionSet.ofList, InsertionSet.ofList,
      List.foldl_append, List.flatMap_singleton]

end Overlay
