import Overlay.Proofs.Operation

/-!
What a transfer comes to, for any balances of its two parties. It is decided by the balances that
the cache shows before: its own where an account is loaded, else those of the ledger. A transfer
that moves nothing loads and warms its parties and does no more.
-/

set_option autoImplicit false

namespace Overlay

variable {ε : Type}

namespace Cache

/-- The info of an account as the cache shows it: its own if the account is loaded, else the one of
the ledger, which may fail. -/
def infoOver (ledger : Ledger ε) (cache : Cache) (address : Address) : Except ε Info :=
  if (cache.entry address).status.loaded then .ok (cache.entry address).info
  else (ledger.account address).result

/-- The parties were warmed, their slots and all else but their infos, their flags and the record
of transfers are as before. -/
structure Visits (before after : Cache) (parties : List Address) : Prop where
  warm : ∀ address, address ∈ after.warm ↔ address ∈ before.warm ∨ address ∈ parties
  others : ∀ address, address ∉ parties → after.account? address = before.account? address
  owners : ∀ address, (after.entry address).address = (before.entry address).address
  slots : ∀ address key, (after.entry address).slot? key = (before.entry address).slot? key
  logs : after.logs = before.logs
  inherited : after.inherited = before.inherited

namespace Visits

variable {before middle after : Cache} {parties later : List Address}

theorem setEntry (cache : Cache) (address : Address) (account : Account)
    (owner : account.address = (cache.entry address).address)
    (slots : ∀ key, account.slot? key = (cache.entry address).slot? key) :
    cache.Visits (cache.setEntry address account) [address] where
  warm other := by rw [mem_warm_setEntry, List.mem_singleton]
  others other distinct := by
    rw [account?_setEntry, if_neg]
    exact fun same => distinct (List.mem_singleton.mpr same.symm)
  owners other := by
    rw [entry_setEntry]
    split
    · next same => rw [owner, same]
    · rfl
  slots other key := by
    rw [entry_setEntry]
    split
    · next same => rw [slots, same]
    · rfl
  logs := rfl
  inherited := rfl

theorem trans (earlier : before.Visits middle parties) (visits : middle.Visits after later) :
    before.Visits after (parties ++ later) where
  warm address := by rw [visits.warm, earlier.warm, List.mem_append, or_assoc]
  others address distinct := by
    rw [List.mem_append, not_or] at distinct
    rw [visits.others address distinct.2, earlier.others address distinct.1]
  owners address := by rw [visits.owners, earlier.owners]
  slots address key := by rw [visits.slots, earlier.slots]
  logs := visits.logs.trans earlier.logs
  inherited := visits.inherited.trans earlier.inherited

theorem recordTransfer (visits : before.Visits after parties) (transfer : Transfer) :
    before.Visits (after.recordTransfer transfer) parties :=
  ⟨visits.warm, visits.others, visits.owners, visits.slots, visits.logs, visits.inherited⟩

theorem congr (visits : before.Visits after parties)
    (same : ∀ address, address ∈ parties ↔ address ∈ later) : before.Visits after later where
  warm address := by rw [visits.warm, same]
  others address distinct := visits.others address (mt (same address).mp distinct)
  owners := visits.owners
  slots := visits.slots
  logs := visits.logs
  inherited := visits.inherited

theorem infoOver {ledger : Ledger ε} (visits : before.Visits after parties) {address : Address}
    (distinct : address ∉ parties) :
    after.infoOver ledger address = before.infoOver ledger address := by
  have same : after.entry address = before.entry address :=
    congrArg (Option.getD · _) (visits.others address distinct)
  rw [Cache.infoOver, same, Cache.infoOver]

end Visits

section Loading

variable {ledger : Ledger ε} {cache : Cache} {address : Address} {info shown : Info}

theorem infoOver_of_loaded (loaded : (cache.entry address).status.loaded = true) :
    cache.infoOver ledger address = .ok (cache.entry address).info :=
  if_pos loaded

theorem info_load_of_infoOver (supplied : ledger.Supplies address (cache.entry address) info)
    (seen : cache.infoOver ledger address = .ok shown) :
    ((cache.entry address).load info).info = shown := by
  rw [Account.info_load]
  unfold infoOver at seen
  split at seen
  · next loaded =>
    rw [if_pos loaded]
    exact Except.ok.inj seen
  · next unloaded =>
    rw [if_neg unloaded]
    exact Except.ok.inj ((supplied (Bool.eq_false_iff.mpr unloaded)).symm.trans seen)

theorem not_failed_of_infoOver {cause : ε} (seen : cache.infoOver ledger address = .ok shown)
    (unloaded : (cache.entry address).status.loaded = false) :
    (ledger.account address).result ≠ .error cause := by
  intro failure
  simp [infoOver, unloaded, failure] at seen

end Loading

/-- Both parties of a transfer as they were loaded, one after the other. -/
structure LoadsBoth (ledger : Ledger ε) (cache : Cache) (sender recipient : Address)
    (payer payee : Account) : Prop where
  first : ∃ info, ledger.Supplies sender (cache.entry sender) info ∧
    payer = (cache.entry sender).load info
  second : ∃ info, ledger.Supplies recipient ((cache.setEntry sender payer).entry recipient) info ∧
    payee = ((cache.setEntry sender payer).entry recipient).load info

namespace LoadsBoth

variable {ledger : Ledger ε} {cache : Cache} {sender recipient : Address} {payer payee : Account}
  (loads : cache.LoadsBoth ledger sender recipient payer payee)

include loads

theorem payee_eq_payer (same : sender = recipient) : payee = payer := by
  subst same
  obtain ⟨info, -, rfl⟩ := loads.first
  obtain ⟨info', -, rfl⟩ := loads.second
  rw [entry_setEntry_self, Account.load_of_loaded (by simp)]

theorem payee_of_ne (different : sender ≠ recipient) :
    ∃ info, ledger.Supplies recipient (cache.entry recipient) info ∧
      payee = (cache.entry recipient).load info := by
  obtain ⟨info, supplied, loaded⟩ := loads.second
  rw [entry_setEntry, if_neg different] at supplied loaded
  exact ⟨info, supplied, loaded⟩

theorem entry_sender : (cache.loadBoth sender recipient payer payee).entry sender = payer := by
  by_cases same : sender = recipient
  · rw [loadBoth, loads.payee_eq_payer same, ← same, entry_setEntry_self]
  · exact cache.entry_loadBoth_sender payer payee same

theorem loadBoth_eq :
    cache.loadBoth sender recipient payer payee =
      ((cache.load ledger sender).cache.load ledger recipient).cache := by
  obtain ⟨info, supplied, rfl⟩ := loads.first
  obtain ⟨info', supplied', rfl⟩ := loads.second
  rw [load_of_supplies supplied, load_of_supplies supplied', loadBoth]

omit loads in
theorem entry_recipient :
    (cache.loadBoth sender recipient payer payee).entry recipient = payee := by
  rw [loadBoth, entry_setEntry_self]

theorem status_payer : payer.status = { (cache.entry sender).status with loaded := true } := by
  obtain ⟨info, -, rfl⟩ := loads.first
  rw [Account.status_load]

theorem status_payee : payee.status = { (cache.entry recipient).status with loaded := true } := by
  by_cases same : sender = recipient
  · rw [loads.payee_eq_payer same, loads.status_payer, same]
  · obtain ⟨info, -, rfl⟩ := loads.payee_of_ne same
    rw [Account.status_load]

theorem visits :
    cache.Visits (cache.loadBoth sender recipient payer payee) [sender, recipient] := by
  obtain ⟨info, -, loaded⟩ := loads.first
  obtain ⟨info', -, loaded'⟩ := loads.second
  have first : cache.Visits (cache.setEntry sender payer) [sender] :=
    .setEntry cache sender payer (by rw [loaded, Account.address_load])
      fun key => by rw [loaded, Account.slot?_load]
  have second := Visits.setEntry (cache.setEntry sender payer) recipient payee
    (by rw [loaded', Account.address_load]) fun key => by rw [loaded', Account.slot?_load]
  exact first.trans second

variable {paid earned : Info}

theorem info_payer (seen : cache.infoOver ledger sender = .ok paid) : payer.info = paid := by
  obtain ⟨info, supplied, rfl⟩ := loads.first
  exact info_load_of_infoOver supplied seen

theorem info_payee (seen : cache.infoOver ledger recipient = .ok earned) :
    payee.info = earned := by
  by_cases same : sender = recipient
  · rw [loads.payee_eq_payer same]
    exact loads.info_payer (same ▸ seen)
  · obtain ⟨info, supplied, rfl⟩ := loads.payee_of_ne same
    exact info_load_of_infoOver supplied seen

theorem infoOver (seen : cache.infoOver ledger sender = .ok paid)
    (seen' : cache.infoOver ledger recipient = .ok earned) (address : Address) :
    (cache.loadBoth sender recipient payer payee).infoOver ledger address =
      cache.infoOver ledger address := by
  have ready : payer.status.loaded = true := by rw [loads.status_payer]
  have ready' : payee.status.loaded = true := by rw [loads.status_payee]
  by_cases pays : address = sender
  · subst pays
    rw [infoOver_of_loaded (by rwa [loads.entry_sender]), loads.entry_sender,
      loads.info_payer seen, seen]
  · by_cases earns : address = recipient
    · subst earns
      rw [infoOver_of_loaded (by rwa [entry_recipient]), entry_recipient, loads.info_payee seen',
        seen']
    · exact loads.visits.infoOver (by simp [pays, earns])

end LoadsBoth

end Cache

namespace Transfer

variable (transfer : Transfer)

def parties : List Address := [transfer.sender, transfer.recipient]

/-- The funds are there, the recipient has room for the value, and there is something to move to
another account. The balances count as whole numbers. -/
def Moves (held received : Word) : Prop :=
  transfer.value.toNat ≤ held.toNat ∧ transfer.value ≠ 0 ∧ transfer.sender ≠ transfer.recipient ∧
    received.toNat + transfer.value.toNat < 2 ^ 256

/-- The funds are looked at first, also where nothing would move. -/
def verdict (held received : Word) : Option Refusal :=
  if held.toNat < transfer.value.toNat then some .outOfFunds
  else if transfer.value = 0 ∨ transfer.sender = transfer.recipient then none
  else if 2 ^ 256 ≤ received.toNat + transfer.value.toNat then some .overflowPayment
  else none

structure Rests (ledger : Ledger ε) (before after : Cache) : Prop where
  loads : after = ((before.load ledger transfer.sender).cache.load ledger transfer.recipient).cache
  info : ∀ address, after.infoOver ledger address = before.infoOver ledger address
  status : ∀ party ∈ transfer.parties,
    (after.entry party).status = { (before.entry party).status with loaded := true }
  transfers : after.transfers = before.transfers

structure Pays (ledger : Ledger ε) (before after : Cache) (payer payee : Info) : Prop where
  paid : ∃ remaining : Word,
    remaining.toNat + transfer.value.toNat = payer.balance.toNat ∧
      after.infoOver ledger transfer.sender = .ok { payer with balance := remaining }
  earned : ∃ increased : Word,
    increased.toNat = payee.balance.toNat + transfer.value.toNat ∧
      after.infoOver ledger transfer.recipient = .ok { payee with balance := increased }
  status : ∀ party ∈ transfer.parties,
    (after.entry party).status = { (before.entry party).status with loaded := true, cached := true }
  transfers : after.transfers = before.transfers ++ [transfer]

variable {transfer} {sender recipient party : Address} {value held received : Word}

theorem mem_parties :
    party ∈ transfer.parties ↔ party = transfer.sender ∨ party = transfer.recipient := by
  simp [parties]

theorem verdict_of_unmoved {answer : Option Refusal}
    (reason : Cache.Unmoved sender recipient value held received answer) :
    (Transfer.mk sender recipient value).verdict held received = answer ∧
      ¬ (Transfer.mk sender recipient value).Moves held received := by
  cases reason with
  | outOfFunds short => exact ⟨if_pos short, fun moves => Nat.not_le_of_lt short moves.1⟩
  | idle funds still =>
    refine ⟨(if_neg (Nat.not_lt_of_le funds)).trans (if_pos still), fun moves => ?_⟩
    exact still.elim moves.2.1 moves.2.2.1
  | overflowPayment funds moving full =>
    refine ⟨?_, fun moves => Nat.not_le_of_lt moves.2.2.2 full⟩
    rw [verdict, if_neg (Nat.not_lt_of_le funds), if_neg moving, if_pos full]

theorem verdict_of_moves (moves : transfer.Moves held received) :
    transfer.verdict held received = none := by
  obtain ⟨funds, worth, different, room⟩ := moves
  rw [verdict, if_neg (Nat.not_lt_of_le funds), if_neg (not_or.mpr ⟨worth, different⟩),
    if_neg (Nat.not_le_of_lt room)]

variable {ledger : Ledger ε} {cache : Cache} {payer payee : Account} {paid earned : Info}

theorem rests_loadBoth
    (loads : cache.LoadsBoth ledger transfer.sender transfer.recipient payer payee)
    (seen : cache.infoOver ledger transfer.sender = .ok paid)
    (seen' : cache.infoOver ledger transfer.recipient = .ok earned) :
    transfer.Rests ledger cache
      (cache.loadBoth transfer.sender transfer.recipient payer payee) where
  loads := loads.loadBoth_eq
  info := loads.infoOver seen seen'
  status party member := by
    rcases mem_parties.mp member with rfl | rfl
    · rw [loads.entry_sender, loads.status_payer]
    · rw [Cache.LoadsBoth.entry_recipient, loads.status_payee]
  transfers := rfl

def settled (cache : Cache) (payer payee : Account) : Cache :=
  (((cache.loadBoth transfer.sender transfer.recipient payer payee).setEntry transfer.sender
    (payer.setBalance (payer.info.balance - transfer.value))).setEntry transfer.recipient
      (payee.setBalance (payee.info.balance + transfer.value))).recordTransfer transfer

theorem entry_settled (cache : Cache) (payer payee : Account)
    (different : transfer.sender ≠ transfer.recipient) :
    (transfer.settled cache payer payee).entry transfer.sender =
        payer.setBalance (payer.info.balance - transfer.value) ∧
      (transfer.settled cache payer payee).entry transfer.recipient =
        payee.setBalance (payee.info.balance + transfer.value) := by
  constructor
  · exact (Cache.entry_setEntry ..).trans ((if_neg different.symm).trans
      (Cache.entry_setEntry_self ..))
  · exact Cache.entry_setEntry_self ..

variable (loads : cache.LoadsBoth ledger transfer.sender transfer.recipient payer payee)

include loads

theorem visits_settled (different : transfer.sender ≠ transfer.recipient) :
    cache.Visits (transfer.settled cache payer payee) transfer.parties := by
  have visits := loads.visits
  generalize loaded : cache.loadBoth transfer.sender transfer.recipient payer payee = both at visits
  have sends : both.entry transfer.sender = payer := loaded ▸ loads.entry_sender
  have takes account : (both.setEntry transfer.sender account).entry transfer.recipient = payee :=
    loaded ▸ cache.entry_loadBoth_recipient payer payee different account
  have pays := Cache.Visits.setEntry both transfer.sender
    (payer.setBalance (payer.info.balance - transfer.value)) (by rw [sends]; rfl)
    fun key => by rw [sends]; rfl
  have earns := Cache.Visits.setEntry
    (both.setEntry transfer.sender (payer.setBalance (payer.info.balance - transfer.value)))
    transfer.recipient (payee.setBalance (payee.info.balance + transfer.value))
    (by rw [takes]; rfl) fun key => by rw [takes]; rfl
  rw [settled, loaded]
  refine (((visits.trans pays).trans earns).recordTransfer transfer).congr fun address => ?_
  simp only [mem_parties, List.mem_append, List.mem_cons, List.not_mem_nil, or_false]
  grind

theorem pays_settled (seen : cache.infoOver ledger transfer.sender = .ok paid)
    (seen' : cache.infoOver ledger transfer.recipient = .ok earned)
    (moves : transfer.Moves paid.balance earned.balance) :
    transfer.Pays ledger cache (transfer.settled cache payer payee) paid earned := by
  obtain ⟨funds, worth, different, room⟩ := moves
  obtain ⟨sends, takes⟩ := entry_settled cache payer payee different
  rw [← loads.info_payer seen] at funds ⊢
  rw [← loads.info_payee seen'] at room ⊢
  refine ⟨⟨payer.info.balance - transfer.value, ?_, ?_⟩,
    ⟨payee.info.balance + transfer.value, BitVec.toNat_add_of_lt room, ?_⟩,
    fun party member => ?_, rfl⟩
  · rw [BitVec.toNat_sub_of_le funds, Nat.sub_add_cancel funds]
  · rw [Cache.infoOver_of_loaded (by rw [sends]; rfl), sends]
    rfl
  · rw [Cache.infoOver_of_loaded (by rw [takes]; rfl), takes]
    rfl
  · rcases mem_parties.mp member with rfl | rfl
    · rw [sends, Account.setBalance, Account.status_change, loads.status_payer]
    · rw [takes, Account.setBalance, Account.status_change, loads.status_payee]

end Transfer

namespace Operation

variable (context : Context ε) (cache : Cache) (transfer : Transfer) {payer payee : Info}

/-- Whatever both accounts hold, a transfer answers with its verdict over the balances that were
shown before, and moves the value if and only if there is something to move. -/
theorem transfer_exact (sent : cache.infoOver context.ledger transfer.sender = .ok payer)
    (received : cache.infoOver context.ledger transfer.recipient = .ok payee) :
    let step := (Operation.transfer transfer.sender transfer.recipient transfer.value).perform
      context cache
    step.result = .ok (.transfer (transfer.verdict payer.balance payee.balance)) ∧
      cache.Visits step.cache transfer.parties ∧
      (∀ party ∈ transfer.parties, (step.cache.entry party).status.loaded = true) ∧
      (transfer.Moves payer.balance payee.balance →
        transfer.Pays context.ledger cache step.cache payer payee) ∧
      (¬ transfer.Moves payer.balance payee.balance →
        transfer.Rests context.ledger cache step.cache) := by
  have outcome := cache.transfer_outcome context.ledger transfer.sender transfer.recipient
    transfer.value
  simp only [perform]
  generalize cache.transfer context.ledger transfer.sender transfer.recipient transfer.value = step
    at outcome ⊢
  cases outcome with
  | senderFailed cause unloaded failure =>
    exact absurd failure (Cache.not_failed_of_infoOver sent unloaded)
  | recipientFailed info supplied account loaded cause unloaded failure =>
    -- The sender is loaded by now, so it is another account that could not be loaded.
    have different : transfer.sender ≠ transfer.recipient := by
      intro same
      rw [← same, Cache.entry_setEntry_self, loaded, Account.status_load] at unloaded
      exact Bool.noConfusion unloaded
    rw [Cache.entry_setEntry, if_neg different] at unloaded
    exact absurd failure (Cache.not_failed_of_infoOver received unloaded)
  | unmoved info supplied account loaded info' supplied' account' loaded' answer reason =>
    have loads : cache.LoadsBoth context.ledger transfer.sender transfer.recipient account
        account' := ⟨⟨info, supplied, loaded⟩, ⟨info', supplied', loaded'⟩⟩
    rw [loads.info_payer sent, loads.info_payee received] at reason
    obtain ⟨verdict, still⟩ := Transfer.verdict_of_unmoved reason
    have rests := Transfer.rests_loadBoth loads sent received
    refine ⟨?_, loads.visits, fun party member => ?_, fun moves => absurd moves still,
      fun _ => rests⟩
    · rw [verdict]
      rfl
    · exact congrArg Status.loaded (rests.status party member)
  | moved info supplied account loaded info' supplied' account' loaded' funds moving room =>
    have loads : cache.LoadsBoth context.ledger transfer.sender transfer.recipient account
        account' := ⟨⟨info, supplied, loaded⟩, ⟨info', supplied', loaded'⟩⟩
    rw [loads.info_payer sent] at funds
    rw [loads.info_payee received] at room
    have moves : transfer.Moves payer.balance payee.balance :=
      ⟨funds, (not_or.mp moving).1, (not_or.mp moving).2, room⟩
    have pays := Transfer.pays_settled loads sent received moves
    refine ⟨?_, Transfer.visits_settled loads moves.2.2.1, fun party member => ?_, fun _ => pays,
      fun still => absurd moves still⟩
    · rw [Transfer.verdict_of_moves moves]
      rfl
    · exact congrArg Status.loaded (pays.status party member)

/-- The recipient has got room for two more but not for three, by the balance in the cache and not
by that of the ledger, which does not answer about any third account. -/
theorem transfer_up_to_largest_balance :
    let sender := FixedBytes.ofNat 20 1
    let recipient := FixedBytes.ofNat 20 2
    let high : Word := BitVec.ofNat 256 (2 ^ 256 - 3)
    let ledger : Ledger Unit := .ofAnswers
      { nonce := fun _ => .ok 0
        codeHash := fun _ => .ok emptyCodeHash
        balance := fun other =>
          if other = sender ∨ other = recipient then .ok 7 else .error ()
        code := fun _ => .ok []
        storage := fun _ _ => .error () }
    let cache := ((Operation.setBalance recipient high).perform ⟨ledger, {}⟩ {}).cache
    let fits : Transfer := ⟨sender, recipient, 2⟩
    let exceeds : Transfer := ⟨sender, recipient, 3⟩
    let paid := ((Operation.transfer sender recipient 2).perform ⟨ledger, {}⟩ cache).cache
    let refused := (Operation.transfer sender recipient 3).perform ⟨ledger, {}⟩ cache
    (∃ increased : Word, increased.toNat = 2 ^ 256 - 1 ∧
        paid.infoOver ledger recipient = .ok (Info.ofCode increased 0 [])) ∧
      paid.transfers = [fits] ∧
      refused.result = .ok (.transfer (some .overflowPayment)) ∧
      exceeds.Rests ledger cache refused.cache := by
  intro sender recipient high ledger cache fits exceeds paid refused
  have sent : cache.infoOver ledger sender = .ok (Info.ofCode 7 0 []) := rfl
  have received : cache.infoOver ledger recipient = .ok (Info.ofCode high 0 []) := rfl
  have moves : fits.Moves 7 high := by
    refine ⟨?_, ?_, ?_, ?_⟩ <;> decide
  have full : exceeds.verdict 7 high = some .overflowPayment := by decide
  have stays : ¬ exceeds.Moves 7 high := fun moves => absurd moves.2.2.2 (by decide)
  obtain ⟨_, _, _, pays, _⟩ := transfer_exact ⟨ledger, {}⟩ cache fits sent received
  obtain ⟨answer, _, _, _, rests⟩ := transfer_exact ⟨ledger, {}⟩ cache exceeds sent received
  obtain ⟨increased, sum, shown⟩ := (pays moves).earned
  exact ⟨⟨increased, sum, shown⟩, (pays moves).transfers,
    answer.trans (congrArg (Except.ok ∘ Reply.transfer) full), rests stays⟩

end Operation

end Overlay
