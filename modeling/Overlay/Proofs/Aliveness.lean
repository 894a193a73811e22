import Overlay.Proofs.Transfer
import Overlay.Proofs.Warming

/-!
The probe of aliveness agrees with loading. The probe asks for a nonce, a code hash and a balance
and stops at the first that is there; a load asks for balance, nonce and code. Both see the same of
an account whose code hash tells whether it has code. To look at accounts and slots changes nothing
of what is shown, whether it makes the cache load the account or not.
-/

set_option autoImplicit false

namespace Overlay

variable {ε : Type}

theorem Info.isAlive_iff (info : Info) :
    info.isAlive = true ↔ info.nonce ≠ 0 ∨ info.balance ≠ 0 ∨ info.code ≠ [] := by
  simp only [isAlive, isEmpty, Bool.not_eq_true', Bool.and_eq_false_iff, decide_eq_false_iff_not,
    List.isEmpty_eq_false_iff]
  tauto

namespace Ledger

/-- All that the ledger answers of an account. The hash tells whether there is code: without any it
is the hash of no bytes or zero. -/
structure Elementary.Describes (questions : Elementary ε) (address : Address) (balance : Word)
    (nonce : UInt64) (code : Bytes) (hash : Hash) : Prop where
  hashed : hash = emptyCodeHash ∨ hash = FixedBytes.zero 32 ↔ code = []
  balance : (questions.balance address).result = .ok balance
  nonce : (questions.nonce address).result = .ok nonce
  code : (questions.code address).result = .ok code
  hash : (questions.codeHash address).result = .ok hash

namespace Elementary.Describes

variable {questions : Elementary ε} {address : Address} {balance : Word} {nonce : UInt64}
  {code : Bytes} {hash : Hash} (describes : questions.Describes address balance nonce code hash)

include describes

theorem result_gather :
    (questions.gather address).result = .ok (Info.ofCode balance nonce code) := by
  simp only [gather, bind, Fetch.andThen, describes.balance, describes.nonce, describes.code, pure,
    Fetch.known]

/-- The probe may stop before it has asked for everything, but not before it knows. -/
theorem result_probe :
    (questions.probe address).result = .ok (Info.ofCode balance nonce code).isAlive := by
  have alive := (Info.ofCode balance nonce code).isAlive_iff
  have coded := not_congr describes.hashed
  rw [not_or] at coded
  simp only [probe, bind, Fetch.andThen, describes.nonce]
  by_cases counted : nonce ≠ 0
  · rw [if_pos counted, alive.mpr (.inl counted)]
    rfl
  · simp only [if_neg counted, describes.hash]
    by_cases marked : hash ≠ emptyCodeHash ∧ hash ≠ FixedBytes.zero 32
    · rw [if_pos marked, alive.mpr (.inr (.inr (coded.mp marked)))]
      rfl
    · simp only [if_neg marked, describes.balance]
      have bare : code = [] := not_not.mp (mt coded.mpr marked)
      refine congrArg Except.ok (Bool.eq_iff_iff.mpr ?_)
      rw [decide_eq_true_iff, alive]
      simp_all [Info.ofCode]

end Elementary.Describes

end Ledger

namespace Cache

variable {ledger : Ledger ε} {cache cache' : Cache} {address : Address} {info : Info}

theorem infoOver_congr (same : cache.knowledge = cache'.knowledge) :
    cache.infoOver ledger address = cache'.infoOver ledger address := by
  have entry := knowledge_entry_congr same address
  have info : (cache.entry address).info = (cache'.entry address).info :=
    congrArg Account.Knowledge.info entry
  have status : (cache.entry address).status = (cache'.entry address).status :=
    congrArg Account.Knowledge.status entry
  rw [infoOver, infoOver, info, status]

theorem infoOver_setEntry {account : Account}
    (same : (if account.status.loaded then .ok account.info else (ledger.account address).result) =
      cache.infoOver ledger address) (other : Address) :
    (cache.setEntry address account).infoOver ledger other = cache.infoOver ledger other := by
  by_cases hit : address = other
  · subst hit
    rw [infoOver, entry_setEntry_self]
    exact same
  · rw [infoOver, entry_setEntry, if_neg hit, infoOver]

theorem load_of_infoOver (seen : cache.infoOver ledger address = .ok info) :
    ∃ load, (cache.load ledger address).result = .ok load ∧ load.data.info = info := by
  have outcome := cache.load_outcome ledger address
  generalize cache.load ledger address = step at outcome ⊢
  cases outcome with
  | answered info' supplied => exact ⟨_, rfl, info_load_of_infoOver supplied seen⟩
  | failed cause unloaded failure => exact absurd failure (not_failed_of_infoOver seen unloaded)

/-- Where the ledger probes what it would load, so does the cache. -/
theorem isAccountAlive_of_infoOver (seen : cache.infoOver ledger address = .ok info)
    (probes : (ledger.account address).result = .ok info →
      (ledger.isAlive address).result = .ok info.isAlive) :
    (cache.isAccountAlive ledger address).result = .ok info.isAlive := by
  unfold infoOver at seen
  unfold isAccountAlive
  split at seen
  · next loaded =>
    rw [if_pos loaded]
    cases seen
    rfl
  · next unloaded =>
    rw [if_neg unloaded, Step.ask_ok cache (probes seen)]

end Cache

namespace Operation

variable (context : Context ε) (cache : Cache)

/-- Neither changes nor records anything: accounts and slots are looked at and warmed. -/
def onlyLooks : Operation → Bool
  | .isAccountAlive _ | .load _ | .readSlot _ _ => true
  | operation => operation.onlyWarms

theorem infoOver_load (address other : Address) :
    ((load address).perform context cache).cache.infoOver context.ledger other =
      cache.infoOver context.ledger other := by
  have outcome := cache.load_outcome context.ledger address
  simp only [perform]
  generalize cache.load context.ledger address = step at outcome ⊢
  cases outcome with
  | failed => rfl
  | answered info supplied =>
    apply Cache.infoOver_setEntry
    rw [Account.status_load, if_pos rfl, Account.info_load, Cache.infoOver]
    split
    · rfl
    · next unloaded => exact (supplied (Bool.eq_false_iff.mpr unloaded)).symm

theorem infoOver_readSlot (address other : Address) (key : Word) :
    ((readSlot address key).perform context cache).cache.infoOver context.ledger other =
      cache.infoOver context.ledger other := by
  have outcome := cache.readSlot_outcome context.ledger address key
  simp only [perform]
  generalize cache.readSlot context.ledger address key = step at outcome ⊢
  cases outcome with
  | known | fetched | failed =>
    refine Cache.infoOver_setEntry ?_ other
    rfl

theorem infoOver_perform_of_onlyLooks {operation : Operation} (looks : operation.onlyLooks = true)
    (address : Address) :
    (operation.perform context cache).cache.infoOver context.ledger address =
      cache.infoOver context.ledger address := by
  have warming : operation.onlyWarms = true →
      (operation.perform context cache).cache.infoOver context.ledger address =
        cache.infoOver context.ledger address := fun warms =>
    Cache.infoOver_congr (operation.knowledge_perform_of_onlyWarms context cache warms)
  cases operation with
  | isAccountAlive probed =>
    exact congrArg (Cache.infoOver context.ledger · address)
      (cache.cache_isAccountAlive context.ledger probed)
  | load loaded => exact infoOver_load context cache loaded address
  | readSlot read key => exact infoOver_readSlot context cache read address key
  | _ => exact warming looks

end Operation

namespace Program

theorem infoOver_run_of_onlyLooks (context : Context ε) {program : Program}
    (looks : ∀ operation ∈ program.inForce, operation.onlyLooks = true) (cache : Cache)
    (address : Address) :
    (program.run context cache).cache.infoOver context.ledger address =
      cache.infoOver context.ledger address := by
  rw [cache_run]
  generalize program.inForce = operations at looks
  induction operations generalizing cache with
  | nil => rfl
  | cons operation rest ih =>
    obtain ⟨first, others⟩ := List.forall_mem_cons.mp looks
    exact (ih _ others).trans (operation.infoOver_perform_of_onlyLooks context cache first address)

/-- The probe says what a load would show: whether there is a nonce, a balance or code. It says the
same after any accounts and slots were looked at, whether those queries were answered or not, and
leaves the cache as it is. That holds from every cache, so whatever was done to the account. -/
theorem isAccountAlive_eq_load {questions : Ledger.Elementary ε} {address : Address}
    {balance : Word} {nonce : UInt64} {code : Bytes} {hash : Hash}
    (describes : questions.Describes address balance nonce code hash) (config : Config)
    {program : Program} (looks : ∀ operation ∈ program.inForce, operation.onlyLooks = true)
    (cache : Cache) :
    let context : Context ε := ⟨.ofElementary questions, config⟩
    let later := (program.run context cache).cache
    let probe := Operation.isAccountAlive address
    ∃ load : Load Account,
      ((Operation.load address).perform context cache).result = .ok (.account load) ∧
      (load.data.isAlive = true ↔ load.data.info.nonce ≠ 0 ∨ load.data.info.balance ≠ 0 ∨
        load.data.info.code ≠ []) ∧
      (probe.perform context cache).result = .ok (.alive load.data.isAlive) ∧
      (probe.perform context cache).cache = cache ∧
      (probe.perform context later).result = .ok (.alive load.data.isAlive) ∧
      (probe.perform context later).cache = later := by
  intro context later probe
  obtain ⟨info, seen⟩ : ∃ info, cache.infoOver context.ledger address = .ok info := by
    unfold Cache.infoOver
    split
    · exact ⟨_, rfl⟩
    · exact ⟨_, describes.result_gather⟩
  have probes : (context.ledger.account address).result = .ok info →
      (context.ledger.isAlive address).result = .ok info.isAlive := by
    intro answer
    cases describes.result_gather.symm.trans answer
    exact describes.result_probe
  have seen' := (infoOver_run_of_onlyLooks context looks cache address).trans seen
  obtain ⟨load, loaded, rfl⟩ := Cache.load_of_infoOver seen
  have answer := Cache.isAccountAlive_of_infoOver seen probes
  have answer' := Cache.isAccountAlive_of_infoOver seen' probes
  refine ⟨load, ?_, load.data.info.isAlive_iff, ?_, cache.cache_isAccountAlive _ address, ?_,
    later.cache_isAccountAlive _ address⟩
  · simp only [Operation.perform, Step.map, loaded]
    rfl
  · simp only [probe, Operation.perform, Step.map, answer]
    rfl
  · simp only [probe, Operation.perform, Step.map, later, answer']
    rfl

/-- An account that was never touched, of which the ledger gives a zero hash: it is dead before and
after its info and a slot are cached, also with a failed load of another account in between and with
a balance that was set in a reverted frame. -/
theorem isAccountAlive_eq_load_of_zero_hash :
    let address := FixedBytes.ofNat 20 1
    let questions : Ledger.Elementary Unit :=
      { nonce := fun _ => .known 0
        codeHash := fun _ => .known (FixedBytes.zero 32)
        balance := fun asked => ⟨[.balance asked], if asked = address then .ok 0 else .error ()⟩
        code := fun _ => .known []
        storage := fun _ _ => .known (some 42) }
    let context : Context Unit := ⟨.ofElementary questions, {}⟩
    let program : Program :=
      .perform (.load (FixedBytes.ofNat 20 2)) <|
        .frame (.perform (.setBalance address 5) .done) .revert <|
          .perform (.readSlot address 1) (.perform (.load address) .done)
    let later := (program.run context {}).cache
    let probe := Operation.isAccountAlive address
    (later.entry address).current? 1 = some 42 ∧
      (probe.perform context {}).result = .ok (.alive false) ∧
        (probe.perform context later).result = .ok (.alive false) := by
  intro address questions context program later probe
  have describes : questions.Describes address 0 0 [] (FixedBytes.zero 32) :=
    ⟨by simp, rfl, rfl, rfl, rfl⟩
  have looks : ∀ operation ∈ program.inForce, operation.onlyLooks = true := by decide
  obtain ⟨load, _, _, before, _, after, _⟩ := isAccountAlive_eq_load describes {} looks {}
  have dead : (probe.perform context {}).result = .ok (.alive false) := by rfl
  exact ⟨by rfl, dead, after.trans (before.symm.trans dead)⟩

end Program

end Overlay
