import Mathlib.Algebra.BigOperators.Group.Finset.Piecewise
import Mathlib.Algebra.GroupWithZero.Nat
import Overlay.Proofs.History
import Overlay.Proofs.Knowledge

/-!
The recorded transfers account for every balance. Where no balance was set outright, a balance is
the one of the ledger, with what the transfers brought to the address and without what they took
from it, as whole numbers and not only modulo the size of a word. So no value is made or lost.
-/

set_option autoImplicit false

namespace Overlay

variable {ε : Type}

/-- The values of the transfers of which an address is the given party, added up. -/
def Transfer.volume (party : Transfer → Address) (transfers : List Transfer) (address : Address) :
    Nat :=
  (transfers.map fun transfer => if party transfer = address then transfer.value.toNat else 0).sum

/-- The balance that a cache sees: the one of the info if it is loaded, else the one below. -/
def Cache.balance (cache : Cache) (contents : Contents) (address : Address) : Word :=
  if (cache.entry address).status.loaded then (cache.entry address).info.balance
  else (contents.info address).balance

namespace Transfer

variable (party : Transfer → Address) (transfers : List Transfer) (address : Address)

theorem volume_append (transfer : Transfer) :
    volume party (transfers ++ [transfer]) address =
      volume party transfers address +
        if party transfer = address then transfer.value.toNat else 0 := by
  simp [volume]

theorem sum_volume (addresses : Finset Address)
    (inside : ∀ transfer ∈ transfers, party transfer ∈ addresses) :
    ∑ address ∈ addresses, volume party transfers address =
      (transfers.map fun transfer => transfer.value.toNat).sum := by
  induction transfers with
  | nil => simp [volume]
  | cons transfer rest ih =>
    have later := ih fun other member => inside other (List.mem_cons_of_mem _ member)
    have here : party transfer ∈ addresses := inside transfer List.mem_cons_self
    simp only [volume, List.map_cons, List.sum_cons, Finset.sum_add_distrib] at later ⊢
    rw [later, Finset.sum_ite_eq, if_pos here]

end Transfer

namespace Contents

variable (contents : Contents) (address : Address)

theorem balance_transfer {sender recipient : Address} (different : sender ≠ recipient)
    (value : Word) :
    ((contents.apply (.transfer sender recipient value)).info address).balance =
      if sender = address then (contents.info address).balance - value
      else if recipient = address then (contents.info address).balance + value
      else (contents.info address).balance := by
  rw [apply, if_neg different, info_revise, info_revise]
  by_cases pays : sender = address
  · subst pays
    simp [different.symm]
  · by_cases earns : recipient = address <;> simp [pays, earns]

theorem balance_revise (target : Address) {change : Info → Info}
    (keeps : ∀ info, (change info).balance = info.balance) :
    ((contents.revise target change).info address).balance = (contents.info address).balance := by
  rw [info_revise]
  split
  · exact keeps _
  · rfl

theorem balance_apply {operation : Operation}
    (still : ∀ sender recipient value, operation ≠ .transfer sender recipient value)
    (unset : ∀ target balance, operation ≠ .setBalance target balance) :
    ((contents.apply operation).info address).balance = (contents.info address).balance := by
  cases operation with
  | transfer sender recipient value => exact absurd rfl (still sender recipient value)
  | setBalance target balance => exact absurd rfl (unset target balance)
  | setNonce target | incNonce target | setCode target =>
    rw [apply, balance_revise]
    exact fun _ => rfl
  | _ => rfl

end Contents

namespace Cache

variable (cache : Cache) {contents : Contents} (address : Address)

theorem balance_eq_view (contents : Contents) :
    cache.balance contents address = ((cache.view contents).info address).balance := by
  rw [balance, info_view, Account.info_load]
  split <;> rfl

variable {ledger : Ledger ε} (holds : ledger.Holds contents)

include holds

/-- A payment changes the balances of its two parties by its value, without a wrap. -/
theorem balance_payBoth {sender recipient : Address} {info info' : Info} {payer payee : Account}
    (supplied : ledger.Supplies sender (cache.entry sender) info)
    (loaded : payer = (cache.entry sender).load info)
    (supplied' : ledger.Supplies recipient ((cache.setEntry sender payer).entry recipient) info')
    (loaded' : payee = ((cache.setEntry sender payer).entry recipient).load info')
    (different : sender ≠ recipient) {value : Word}
    (funds : value.toNat ≤ payer.info.balance.toNat)
    (room : payee.info.balance.toNat + value.toNat < 2 ^ 256) :
    ((((cache.loadBoth sender recipient payer payee).setEntry sender
        (payer.setBalance (payer.info.balance - value))).setEntry recipient
          (payee.setBalance (payee.info.balance + value))).balance contents address).toNat +
        (if sender = address then value.toNat else 0) =
      (cache.balance contents address).toNat +
        if recipient = address then value.toNat else 0 := by
  have shown := cache.view_loadBoth holds supplied loaded supplied' loaded'
  have ready : payer.status.loaded = true := by simp [loaded]
  have ready' : payee.status.loaded = true := by simp [loaded']
  have paid := cache.view_payBoth contents different ready ready' value
  have held : payer.info = (cache.view contents).info sender :=
    loaded ▸ cache.info_load_eq_view sender holds supplied
  have received : payee.info = (cache.view contents).info recipient := by
    have first : (cache.setEntry sender payer).view contents = cache.view contents :=
      loaded ▸ cache.view_setLoaded sender holds supplied
    rw [← first, loaded']
    exact info_load_eq_view _ recipient holds supplied'
  rw [balance_eq_view, balance_eq_view, paid, shown, Contents.balance_transfer _ _ different]
  rw [held] at funds
  rw [received] at room
  -- The sender has the funds and the recipient the room, so that neither balance wraps.
  by_cases pays : sender = address
  · subst pays
    rw [if_pos rfl, if_pos rfl, if_neg different.symm, BitVec.toNat_sub_of_le funds]
    exact Nat.sub_add_cancel funds
  · by_cases earns : recipient = address
    · subst earns
      rw [if_neg pays, if_neg pays, if_pos rfl, if_pos rfl, BitVec.toNat_add_of_lt room,
        Nat.add_zero]
    · rw [if_neg pays, if_neg pays, if_neg earns, if_neg earns]

end Cache

namespace Operation

variable (context : Context ε) (cache : Cache)

theorem transfers_perform {operation : Operation}
    (still : ∀ sender recipient value, operation ≠ .transfer sender recipient value) :
    (operation.perform context cache).cache.transfers = cache.transfers := by
  cases operation.view with
  | change _ address action changes =>
    have outcome := operation.change_outcome context cache changes
    generalize operation.perform context cache = step at outcome ⊢
    cases outcome <;> rfl
  | isAccountAlive address =>
    exact congrArg Cache.transfers (cache.cache_isAccountAlive context.ledger address)
  | load address =>
    have outcome := cache.load_outcome context.ledger address
    show (cache.load context.ledger address).cache.transfers = _
    generalize cache.load context.ledger address = step at outcome ⊢
    cases outcome <;> rfl
  | readSlot address key =>
    have outcome := cache.readSlot_outcome context.ledger address key
    show (cache.readSlot context.ledger address key).cache.transfers = _
    generalize cache.readSlot context.ledger address key = step at outcome ⊢
    cases outcome <;> rfl
  | transfer sender recipient value => exact absurd rfl (still sender recipient value)
  | preload list =>
    exact congrArg Cache.Knowledge.transfers (cache.knowledge_preload list)
  | preloadPrecompiles =>
    exact congrArg Cache.Knowledge.transfers (cache.knowledge_preloadAddresses _)
  | emit | warmAddress | warmSlot | accountCost | storageCost => rfl

variable {contents : Contents} (holds : context.ledger.Holds contents)

include holds

theorem balance_perform_of_still {operation : Operation}
    (still : ∀ sender recipient value, operation ≠ .transfer sender recipient value)
    (unset : ∀ target balance, operation ≠ .setBalance target balance) (address : Address) :
    (operation.perform context cache).cache.balance contents address =
      cache.balance contents address := by
  rw [Cache.balance_eq_view, Cache.balance_eq_view, operation.view_perform context cache holds,
    Contents.follow]
  split
  · exact Contents.balance_apply _ address still unset
  · rfl

/-- A transfer leaves balances and record alone, or changes both by the same value. -/
theorem balance_transfer (sender recipient : Address) (value : Word) :
    let after := ((transfer sender recipient value).perform context cache).cache
    (after.transfers = cache.transfers ∧
        ∀ address, after.balance contents address = cache.balance contents address) ∨
      after.transfers = cache.transfers ++ [⟨sender, recipient, value⟩] ∧
        ∀ address, (after.balance contents address).toNat +
            (if sender = address then value.toNat else 0) =
          (cache.balance contents address).toNat +
            if recipient = address then value.toNat else 0 := by
  have outcome := cache.transfer_outcome context.ledger sender recipient value
  simp only [perform, Step.map]
  generalize cache.transfer context.ledger sender recipient value = step at outcome ⊢
  cases outcome with
  | senderFailed cause unloaded failure => simp [holds.account] at failure
  | recipientFailed _ _ _ _ cause unloaded failure => simp [holds.account] at failure
  | unmoved info supplied payer loaded info' supplied' payee loaded' answer reason =>
    have same := cache.view_loadBoth holds supplied loaded supplied' loaded'
    refine .inl ⟨rfl, fun address => ?_⟩
    rw [Cache.balance_eq_view, Cache.balance_eq_view, same]
  | moved info supplied payer loaded info' supplied' payee loaded' funds moving room =>
    have different : sender ≠ recipient := fun same => moving (.inr same)
    exact .inr ⟨rfl, fun address =>
      cache.balance_payBoth address holds supplied loaded supplied' loaded' different funds room⟩

end Operation

/-- The recorded transfers account for the balances, and so they did when each of them was made. -/
structure Cache.Balanced (cache : Cache) (contents : Contents) : Prop where
  now : ∀ address, (cache.balance contents address).toNat +
      Transfer.volume Transfer.sender cache.transfers address =
    (contents.info address).balance.toNat +
      Transfer.volume Transfer.recipient cache.transfers address
  before : ∀ earlier, earlier <+: cache.transfers → ∀ address, ∃ balance : Word,
    balance.toNat + Transfer.volume Transfer.sender earlier address =
      (contents.info address).balance.toNat + Transfer.volume Transfer.recipient earlier address

namespace Cache.Balanced

variable {cache after : Cache} {contents : Contents}

theorem new (contents : Contents) : Balanced {} contents where
  now _ := rfl
  before earlier start address := by
    cases List.prefix_nil.mp start
    exact ⟨(contents.info address).balance, rfl⟩

theorem of_same (balanced : cache.Balanced contents) (record : after.transfers = cache.transfers)
    (same : ∀ address, after.balance contents address = cache.balance contents address) :
    after.Balanced contents where
  now address := by
    rw [same, record]
    exact balanced.now address
  before := record ▸ balanced.before

theorem of_paid (balanced : cache.Balanced contents) {transfer : Transfer}
    (record : after.transfers = cache.transfers ++ [transfer])
    (paid : ∀ address, (after.balance contents address).toNat +
        (if transfer.sender = address then transfer.value.toNat else 0) =
      (cache.balance contents address).toNat +
        if transfer.recipient = address then transfer.value.toNat else 0) :
    after.Balanced contents := by
  have now : ∀ address, (after.balance contents address).toNat +
      Transfer.volume Transfer.sender after.transfers address =
    (contents.info address).balance.toNat +
      Transfer.volume Transfer.recipient after.transfers address := by
    intro address
    have before := balanced.now address
    have change := paid address
    rw [record, Transfer.volume_append, Transfer.volume_append]
    omega
  refine ⟨now, ?_⟩
  intro earlier start address
  rw [record, List.prefix_concat_iff] at start
  rcases start with rfl | start
  · exact ⟨_, record ▸ now address⟩
  · exact balanced.before earlier start address

theorem perform (context : Context ε) (holds : context.ledger.Holds contents)
    (balanced : cache.Balanced contents) {operation : Operation}
    (unset : ∀ target balance, operation ≠ .setBalance target balance) :
    (operation.perform context cache).cache.Balanced contents := by
  by_cases moves : ∃ sender recipient value, operation = .transfer sender recipient value
  · obtain ⟨sender, recipient, value, rfl⟩ := moves
    rcases Operation.balance_transfer context cache holds sender recipient value with
      ⟨record, same⟩ | ⟨record, paid⟩
    · exact balanced.of_same record same
    · exact balanced.of_paid record paid
  · have still : ∀ sender recipient value, operation ≠ .transfer sender recipient value :=
      fun sender recipient value same => moves ⟨sender, recipient, value, same⟩
    exact balanced.of_same (operation.transfers_perform context cache still)
      (Operation.balance_perform_of_still context cache holds still unset)

theorem run_ofList (context : Context ε) (holds : context.ledger.Holds contents)
    (operations : List Operation)
    (unset : ∀ operation ∈ operations, ∀ target balance, operation ≠ .setBalance target balance)
    (balanced : cache.Balanced contents) :
    ((Program.ofList operations).run context cache).cache.Balanced contents := by
  induction operations generalizing cache with
  | nil => exact balanced
  | cons operation rest ih =>
    have first := balanced.perform context holds (unset operation List.mem_cons_self)
    exact ih (fun other member => unset other (List.mem_cons_of_mem _ member)) first

theorem sum_eq (balanced : cache.Balanced contents) (addresses : Finset Address)
    (inside : ∀ transfer ∈ cache.transfers,
      transfer.sender ∈ addresses ∧ transfer.recipient ∈ addresses) :
    ∑ address ∈ addresses, (cache.balance contents address).toNat =
      ∑ address ∈ addresses, (contents.info address).balance.toNat := by
  have sent := Transfer.sum_volume Transfer.sender cache.transfers addresses
    fun transfer member => (inside transfer member).1
  have received := Transfer.sum_volume Transfer.recipient cache.transfers addresses
    fun transfer member => (inside transfer member).2
  have all := Finset.sum_congr rfl fun address (_ : address ∈ addresses) => balanced.now address
  rw [Finset.sum_add_distrib, Finset.sum_add_distrib, sent, received] at all
  exact Nat.add_right_cancel all

end Cache.Balanced

namespace Program

theorem operations_run_ofList (context : Context ε) (operations : List Operation) (cache : Cache) :
    ((ofList operations).run context cache).performed.map (·.operation) = operations := by
  induction operations generalizing cache with
  | nil => rfl
  | cons operation rest ih => exact congrArg (operation :: ·) (ih _)

theorem operations_answered (context : Context ε) (program : Program) (cache : Cache) :
    ((program.run context cache).inForce.map Performed.answered).map Prod.fst =
      program.inForce := by
  rw [answered_run, List.map_map]
  exact operations_run_ofList context program.inForce cache

end Program

namespace Reaches

variable {ledger : Ledger ε} {contents : Contents} {past : List (Operation × Answer ε Reply)}
  {cache : Cache}

theorem balanced (reaches : Reaches ledger past cache) (holds : ledger.Holds contents)
    (unset : ∀ performed ∈ past, ∀ target balance, performed.1 ≠ .setBalance target balance) :
    cache.Balanced contents := by
  induction reaches with
  | new => exact .new contents
  | @run past cache before config program ih =>
    have balanced := ih fun performed member =>
      unset performed (List.mem_append_left _ member)
    -- A program leaves the balances that its operations in force leave without frames.
    rw [Program.cache_run]
    refine balanced.run_ofList ⟨ledger, config⟩ holds program.inForce ?_
    intro operation member
    rw [← Program.operations_answered ⟨ledger, config⟩ program cache] at member
    obtain ⟨performed, listed, rfl⟩ := List.mem_map.mp member
    exact unset performed (List.mem_append_right _ listed)
  | fork before ih =>
    have balanced := ih unset
    exact ⟨balanced.now, balanced.before⟩

/-- Over a ledger that never fails and without balances that are set outright, every balance is the
one of the ledger plus what the recorded transfers brought and minus what they took; so the balances
of all parties together are those of the ledger, and at no time did a balance leave its range. -/
theorem balance_eq_transfers (reaches : Reaches ledger past cache) (holds : ledger.Holds contents)
    (unset : ∀ performed ∈ past, ∀ target balance, performed.1 ≠ .setBalance target balance) :
    (∀ address, ((cache.balance contents address).toNat : ℤ) =
      (contents.info address).balance.toNat +
        Transfer.volume Transfer.recipient cache.transfers address -
          Transfer.volume Transfer.sender cache.transfers address) ∧
    (∀ addresses : Finset Address,
      (∀ transfer ∈ cache.transfers,
        transfer.sender ∈ addresses ∧ transfer.recipient ∈ addresses) →
      ∑ address ∈ addresses, (cache.balance contents address).toNat =
        ∑ address ∈ addresses, (contents.info address).balance.toNat) ∧
    ∀ earlier, earlier <+: cache.transfers → ∀ address,
      (0 : ℤ) ≤ (contents.info address).balance.toNat +
          Transfer.volume Transfer.recipient earlier address -
            Transfer.volume Transfer.sender earlier address ∧
        (contents.info address).balance.toNat +
          Transfer.volume Transfer.recipient earlier address -
            Transfer.volume Transfer.sender earlier address < (2 ^ 256 : ℤ) := by
  have balanced := reaches.balanced holds unset
  refine ⟨fun address => ?_, balanced.sum_eq, fun earlier start address => ?_⟩
  · have now := balanced.now address
    omega
  · obtain ⟨balance, held⟩ := balanced.before earlier start address
    have small := balance.isLt
    constructor <;> omega

/-- A payment in a committed frame counts, one in a reverted frame does not. -/
theorem balance_eq_transfers_after_frames :
    let payer := FixedBytes.ofNat 20 1
    let payee := FixedBytes.ofNat 20 2
    let memory : MemoryLedger := MemoryLedger.insertAccount {} payer 0 [] 100
    let ledger : Ledger Unit := memory.toLedger
    let program : Program :=
      .frame (.perform (.transfer payer payee 60) .done) .commit
        (.frame (.perform (.transfer payee payer 10) .done) .revert .done)
    let cache := (program.run ⟨ledger, {}⟩ {}).cache
    cache.transfers = [⟨payer, payee, 60⟩] ∧ cache.balance memory.contents payee = 60 := by
  intro payer payee memory ledger program cache
  have reaches : Reaches ledger _ cache := Reaches.new.run {} program
  have record : cache.transfers = [⟨payer, payee, 60⟩] := by rfl
  have start : (memory.contents.info payee).balance = 0 := by rfl
  have unset : ∀ performed ∈ [] ++ (program.run ⟨ledger, {}⟩ {}).inForce.map Performed.answered,
      ∀ target balance, performed.1 ≠ .setBalance target balance := by
    intro performed member target balance
    have listed : performed.1 ∈ program.inForce := by
      rw [← Program.operations_answered ⟨ledger, {}⟩ program {}]
      exact List.mem_map_of_mem member
    rw [List.mem_singleton.mp listed]
    simp
  obtain ⟨balances, _, _⟩ :=
    balance_eq_transfers reaches (MemoryLedger.holds_toLedger memory) unset
  have held := balances payee
  rw [record, start] at held
  have brought : Transfer.volume Transfer.recipient [⟨payer, payee, 60⟩] payee = 60 := by decide
  have taken : Transfer.volume Transfer.sender [⟨payer, payee, 60⟩] payee = 0 := by decide
  have zero : (0 : Word).toNat = 0 := rfl
  rw [brought, taken, zero] at held
  refine ⟨record, BitVec.eq_of_toNat_eq ?_⟩
  show (cache.balance memory.contents payee).toNat = 60
  omega

end Reaches

end Overlay
