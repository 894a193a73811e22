import Overlay.Ledger.Memory
import Overlay.Proofs.Aliveness
import Overlay.Proofs.Reachable

/-!
Code and code hash belong together. Whoever makes an info hashes its code: those who fill a ledger
in memory, a ledger that puts an info together from elementary answers, and a cache that sets code.
So every account that a cache has or hands out carries the hash of its code, and to look at the hash
is as good as to look at the code.
-/

set_option autoImplicit false

namespace Overlay

variable {ε : Type}

namespace Info

/-- The infos that can be made. Balance and nonce are set at will, code only along with its hash. -/
inductive Made : Info → Prop where
  | default : Made {}
  | ofCode (balance : Word) (nonce : UInt64) (code : Bytes) : Made (.ofCode balance nonce code)
  | ofCodeAndHash {balance : Word} {nonce : UInt64} {code : Bytes} {codeHash : Hash} {info : Info}
      (accepted : ofCodeAndHash? balance nonce code codeHash = some info) : Made info
  | ofBalance (balance : Word) : Made (.ofBalance balance)
  | setCode {info : Info} (before : Made info) (code : Bytes) : Made (info.setCode code)
  | revalue {info : Info} (before : Made info) (balance : Word) (nonce : UInt64) :
      Made { info with balance, nonce }

theorem Made.coherent {info : Info} (made : info.Made) : info.Coherent := by
  induction made with
  | default | ofBalance => rfl
  | ofCode balance nonce code => exact coherent_ofCode balance nonce code
  | ofCodeAndHash accepted =>
    unfold ofCodeAndHash? at accepted
    split at accepted
    · next hashed =>
      cases accepted
      exact hashed.symm
    · cases accepted
  | setCode before code => exact coherent_setCode _ code
  | revalue before balance nonce ih => exact ih

theorem hasEmptyCodeHash_iff {info : Info} (coherent : info.Coherent)
    (apart : info.code ≠ [] → keccak256 info.code ≠ emptyCodeHash) :
    info.hasEmptyCodeHash = true ↔ info.code = [] := by
  rw [hasEmptyCodeHash, decide_eq_true_iff, coherent, codeHashOf]
  cases coded : info.code with
  | nil => simp
  | cons byte rest => simpa [coded] using apart

/-- Without code there is the hash of no bytes, whatever other code may be hashed to. -/
theorem hasEmptyCodeHash_of_nil {info : Info} (coherent : info.Coherent) (bare : info.code = []) :
    info.hasEmptyCodeHash = true :=
  (hasEmptyCodeHash_iff coherent fun coded => absurd bare coded).mpr bare

end Info

namespace MemoryLedger

/-- The ledgers in memory that can be filled from nothing. -/
inductive Filled : MemoryLedger → Prop where
  | new : Filled {}
  | insertInfo {ledger : MemoryLedger} (before : Filled ledger) (address : Address) {info : Info}
      (made : info.Made) : Filled (ledger.insertInfo address info)
  | insertAccount {ledger : MemoryLedger} (before : Filled ledger) (address : Address)
      (nonce : UInt64) (code : Bytes) (balance : Word) :
      Filled (ledger.insertAccount address nonce code balance)
  | insertStorage {ledger : MemoryLedger} (before : Filled ledger) (address : Address)
      (key value : Word) : Filled (ledger.insertStorage address key value)

theorem record_insertInfo (ledger : MemoryLedger) (address other : Address) (info : Info) :
    (ledger.insertInfo address info).record other =
      if address = other then { ledger.record address with info } else ledger.record other := by
  simp only [record, insertInfo, Std.ExtTreeMap.getD_insert, Std.LawfulEqOrd.compare_eq_iff_eq]

theorem info_record_insertStorage (ledger : MemoryLedger) (address other : Address)
    (key value : Word) :
    ((ledger.insertStorage address key value).record other).info = (ledger.record other).info := by
  simp only [record, insertStorage, Std.ExtTreeMap.getD_insert, Std.LawfulEqOrd.compare_eq_iff_eq]
  split
  · next same => rw [same]
  · rfl

theorem Filled.coherent {ledger : MemoryLedger} (filled : ledger.Filled) (address : Address) :
    (ledger.record address).info.Coherent := by
  have inserted : ∀ (ledger : MemoryLedger) (target : Address) (info : Info), info.Coherent →
      (ledger.record address).info.Coherent →
        ((ledger.insertInfo target info).record address).info.Coherent := by
    intro ledger target info coherent before
    rw [record_insertInfo]
    split
    · exact coherent
    · exact before
  induction filled with
  | new => rfl
  | insertInfo before target made ih => exact inserted _ target _ made.coherent ih
  | insertAccount before target nonce code balance ih =>
    exact inserted _ target _ (Info.coherent_ofCode balance nonce code) ih
  | insertStorage before target key value ih =>
    rw [info_record_insertStorage]
    exact ih

end MemoryLedger

namespace Ledger

/-- A ledger that puts infos together from its elementary answers, or one in memory that hands out
what it was filled with. -/
inductive Standard : Ledger ε → Prop where
  | gathered (ledger : Ledger ε) (gathers : ledger.account = ledger.gather) : Standard ledger
  | memory {memory : MemoryLedger} (filled : memory.Filled) : Standard memory.toLedger

theorem coherent_of_gather {questions : Elementary ε} {address : Address} {info : Info}
    (answer : (questions.gather address).result = .ok info) : info.Coherent := by
  simp only [Elementary.gather, bind, Fetch.andThen] at answer
  cases balance : (questions.balance address).result with
  | error cause => simp [balance] at answer
  | ok amount =>
    cases nonce : (questions.nonce address).result with
    | error cause => simp [balance, nonce] at answer
    | ok count =>
      cases code : (questions.code address).result with
      | error cause => simp [balance, nonce, code] at answer
      | ok bytes =>
        simp only [balance, nonce, code] at answer
        cases answer
        exact Info.coherent_ofCode amount count bytes

theorem Standard.coherent {ledger : Ledger ε} (standard : ledger.Standard) {address : Address}
    {info : Info} (answer : (ledger.account address).result = .ok info) : info.Coherent := by
  cases standard with
  | gathered _ gathers =>
    rw [gathers] at answer
    exact coherent_of_gather answer
  | memory filled =>
    cases answer
    exact filled.coherent address

end Ledger

theorem Account.coherent_perform {ledger : Ledger ε} (standard : ledger.Standard)
    {address : Address} {account : Account} {action : Action}
    (admissible : action.Admissible ledger address account) (coherent : account.info.Coherent) :
    (account.perform action).2.info.Coherent := by
  have outcome := account.perform_outcome action
  generalize account.perform action = result at outcome ⊢
  cases outcome with
  | load info =>
    rw [info_load]
    split
    · exact coherent
    · next unloaded => exact standard.coherent (admissible (Bool.eq_false_iff.mpr unloaded))
  | setCode code => exact Info.coherent_setCode account.info code
  | setBalance | setNonce | nonceDecreased | incNonce | nonceOverflow | create | selfDestruct
  | warmSlot | preloadSlot | recordFetch | readKnown | readUnknown | writeSlot => exact coherent

/-- The accounts that a cache holds or hands out: a cached one, the marker that stands for one, the
answer to any operation, and what is in the output. -/
inductive Cache.Presents (Admitted : Ledger ε → Prop) (cache : Cache) : Account → Prop where
  | cached {address : Address} {account : Account}
      (found : cache.account? address = some account) : Presents Admitted cache account
  | entry (address : Address) : Presents Admitted cache (cache.entry address)
  | answered (context : Context ε) (admitted : Admitted context.ledger) (operation : Operation)
      {load : Load Account}
      (answer : (operation.perform context cache).result = .ok (.account load)) :
      Presents Admitted cache load.data
  | output {address : Address} {account : Account}
      (found : cache.takeOutput.1.accounts.get? address = some account) :
      Presents Admitted cache account

/-- An operation answers with no other account than one that is cached from then on. -/
theorem Operation.entry_of_answer {context : Context ε} {cache : Cache} {operation : Operation}
    {load : Load Account}
    (answer : (operation.perform context cache).result = .ok (.account load)) :
    ∃ address, (operation.perform context cache).cache.entry address = load.data := by
  have mapped : ∀ {α : Type} {result : Except (Fault ε) α} {f : α → Reply},
      result.map f = .ok (.account load) → ∃ value, f value = .account load := by
    intro α result f same
    cases result with
    | error fault => cases same
    | ok value => exact ⟨value, Except.ok.inj same⟩
  cases operation with
  | load address =>
    refine ⟨address, ?_⟩
    have outcome := cache.load_outcome context.ledger address
    simp only [perform, Step.map] at answer ⊢
    generalize cache.load context.ledger address = step at outcome answer ⊢
    cases outcome with
    | failed => cases answer
    | answered info supplied =>
      cases answer
      exact cache.entry_setEntry_self address _
  | isAccountAlive | readSlot | writeSlot | setBalance | setNonce | incNonce | setCode | create
  | selfDestruct | transfer =>
    obtain ⟨_, same⟩ := mapped answer
    cases same
  | emit | warmAddress | warmSlot | accountCost | storageCost | preload | preloadPrecompiles =>
    cases answer

namespace Reachable

variable {Admitted : Ledger ε → Prop} {cache : Cache}

theorem coherent_entry (standard : ∀ ledger, Admitted ledger → ledger.Standard)
    (reachable : Reachable Admitted cache) (address : Address) :
    (cache.entry address).info.Coherent := by
  refine reachable.entry_invariant (P := fun _ account => account.info.Coherent) ?_ ?_ address
  · exact fun _ => Info.coherent_default
  · exact fun ledger _ _ _ admitted => Account.coherent_perform (standard ledger admitted)

theorem coherent_of_presents (standard : ∀ ledger, Admitted ledger → ledger.Standard)
    (reachable : Reachable Admitted cache) {account : Account}
    (shown : cache.Presents Admitted account) : account.info.Coherent := by
  have cached : ∀ {address account}, cache.account? address = some account →
      account.info.Coherent := by
    intro address account found
    have held := reachable.coherent_entry standard address
    rwa [Cache.entry, found] at held
  cases shown with
  | cached found => exact cached found
  | entry address => exact reachable.coherent_entry standard address
  | answered context admitted operation answer =>
    obtain ⟨address, held⟩ := Operation.entry_of_answer answer
    exact held ▸ (reachable.perform context admitted operation).coherent_entry standard address
  | output found =>
    have kept := (cache.accounts.get?_filter _ _).symm.trans found
    exact cached (Option.filter_eq_some_iff.mp kept).1

/-- Over ledgers that keep code and hash together, every account that a reachable cache holds or
hands out has the hash of its code. So whether it has code or a nonce can be told from the hash, as
long as its own code is not hashed to what no code is hashed to, and an account that has either is
alive. -/
theorem codeHash_eq (standard : ∀ ledger, Admitted ledger → ledger.Standard)
    (reachable : Reachable Admitted cache) {account : Account}
    (shown : cache.Presents Admitted account) :
    (account.info.codeHash =
      if account.info.code = [] then emptyCodeHash else keccak256 account.info.code) ∧
    ((account.info.code ≠ [] → keccak256 account.info.code ≠ emptyCodeHash) →
      (account.hasCodeOrNonce = true ↔ account.info.nonce ≠ 0 ∨ account.info.code ≠ [])) ∧
    (account.hasCodeOrNonce = true → account.isAlive = true) := by
  have coherent := reachable.coherent_of_presents standard shown
  have parts : account.hasCodeOrNonce = true ↔
      account.info.nonce ≠ 0 ∨ ¬ account.info.hasEmptyCodeHash = true := by
    simp only [Account.hasCodeOrNonce, Info.hasNoCodeOrNonce, Bool.not_eq_true',
      Bool.and_eq_false_iff, decide_eq_false_iff_not, Bool.not_eq_true]
    exact or_comm
  refine ⟨?_, fun apart => ?_, fun present => ?_⟩
  · rw [coherent, codeHashOf]
    simp only [List.isEmpty_iff]
  · rw [parts, Info.hasEmptyCodeHash_iff coherent apart]
  · refine account.info.isAlive_iff.mpr ((parts.mp present).imp_right fun hashed => .inr ?_)
    exact mt (Info.hasEmptyCodeHash_of_nil coherent) hashed

/-- One account with the code that it was inserted with and one whose code was set in a committed
frame, both in the output. -/
theorem codeHash_eq_after_frame :
    let deployed := FixedBytes.ofNat 20 1
    let fresh := FixedBytes.ofNat 20 2
    let memory := MemoryLedger.insertAccount {} deployed 0 [0x60, 0x01] 0
    let context : Context Unit := ⟨memory.toLedger, {}⟩
    let program : Program :=
      .frame (.perform (.setCode fresh [0xfe]) .done) .commit
        (.perform (.setBalance deployed 5) .done)
    let cache := (program.run context {}).cache
    ∃ account account', cache.takeOutput.1.accounts.get? deployed = some account ∧
      cache.takeOutput.1.accounts.get? fresh = some account' ∧
      account.info.codeHash = keccak256 [0x60, 0x01] ∧ account'.info.codeHash = keccak256 [0xfe] ∧
      account.hasCodeOrNonce = true := by
  intro deployed fresh memory context program cache
  have standard : ∀ ledger, ledger = context.ledger → ledger.Standard := by
    rintro _ rfl
    exact .memory (.insertAccount .new deployed 0 _ 0)
  have start : Reachable (· = context.ledger) {} := .new
  have reachable := start.run context rfl program
  obtain ⟨account, found, code⟩ : ∃ account,
      cache.takeOutput.1.accounts.get? deployed = some account ∧
        account.info.code = [0x60, 0x01] := ⟨_, rfl, rfl⟩
  obtain ⟨account', found', code'⟩ : ∃ account,
      cache.takeOutput.1.accounts.get? fresh = some account ∧ account.info.code = [0xfe] :=
    ⟨_, rfl, rfl⟩
  obtain ⟨hashed, present, _⟩ := codeHash_eq standard reachable (.output found)
  obtain ⟨hashed', _, _⟩ := codeHash_eq standard reachable (.output found')
  rw [code] at hashed present
  rw [code'] at hashed'
  have apart : keccak256 [0x60, 0x01] ≠ emptyCodeHash := by decide +kernel
  have coded : ([0x60, 0x01] : Bytes) ≠ [] := List.cons_ne_nil _ _
  exact ⟨account, account', found, found', hashed, hashed',
    (present fun _ => apart).mpr (.inr coded)⟩

end Reachable

end Overlay
