import Overlay.Proofs.History
import Overlay.Proofs.Marks

/-!
Nonces only grow. Of all operations two change a nonce: one sets it, and on an account that is not
selfdestructed never to a smaller one, and one counts it up unless it is the largest. Either is
refused without any other trace than that the account is loaded. No mark is ever lost, so that what
an account without the mark shows at the end of a program holds for all of its steps.
-/

set_option autoImplicit false

namespace Overlay

variable {ε : Type}

/-- The nonce that a cache sees: the one of the info if it is loaded, else the one below. -/
def Cache.nonce (cache : Cache) (contents : Contents) (address : Address) : UInt64 :=
  if (cache.entry address).status.loaded then (cache.entry address).info.nonce
  else (contents.info address).nonce

def Operation.renumbers (address : Address) (seen : UInt64) : Operation → Option UInt64
  | .setNonce target next => if target = address then some next else none
  | .incNonce target => if target = address then some (seen + 1) else none
  | _ => none

/-- All that happens to an account is that it gets loaded and warm. -/
structure Cache.OnlyLoads (contents : Contents) (address : Address) (before after : Cache) :
    Prop where
  loaded : (after.entry address).status.loaded = true
  warm : after.isWarm address = true
  /-- Nonce, balance and code are seen as before. -/
  info : (after.view contents).info address = (before.view contents).info address
  slots : ∀ key, (after.entry address).slot? key = (before.entry address).slot? key
  cached : (after.entry address).status.cached = (before.entry address).status.cached

namespace Contents

theorem nonce_apply (contents : Contents) (address : Address) (operation : Operation) :
    ((contents.apply operation).info address).nonce =
      (operation.renumbers address (contents.info address).nonce).getD
        (contents.info address).nonce := by
  cases operation with
  | setNonce target | incNonce target =>
    rw [apply, info_revise, Operation.renumbers]
    split <;> rfl
  | setBalance target | setCode target =>
    rw [apply, info_revise]
    split <;> rfl
  | transfer sender recipient value =>
    rw [apply]
    split
    · rfl
    · rw [info_revise, info_revise]
      split <;> split <;> rfl
  | _ => rfl

end Contents

namespace Cache

variable (cache : Cache) (contents : Contents) (address : Address)

theorem nonce_eq_load : cache.nonce contents address =
    ((cache.entry address).load (contents.info address)).info.nonce := by
  rw [nonce, Account.info_load]
  split <;> rfl

theorem nonce_eq_view :
    cache.nonce contents address = ((cache.view contents).info address).nonce :=
  cache.nonce_eq_load contents address

theorem onlyLoads_setLoaded {ledger : Ledger ε} {contents : Contents}
    (holds : ledger.Holds contents) :
    OnlyLoads contents address cache
      (cache.setEntry address ((cache.entry address).load (contents.info address))) where
  loaded := by simp
  warm := by simp [isWarm_setEntry]
  info := by rw [cache.view_setLoaded address holds fun _ => holds.account address]
  slots := by simp
  cached := by simp

end Cache

theorem Account.perform_of_refused (account : Account) (address : Address) (action : Action)
    {fault : Fault ε} (refused : (account.perform action).1.answer address = .error fault) :
    (account.perform action).2 = account := by
  have outcome := account.perform_outcome action
  generalize account.perform action = result at outcome refused ⊢
  cases outcome with
  | nonceDecreased | nonceOverflow | readUnknown => rfl
  | _ => simp [Account.Reply.answer] at refused

private theorem not_le_or_iff {seen next : UInt64} {gone : Bool} :
    ¬ (seen ≤ next ∨ gone = true) ↔ next < seen ∧ gone = false := by
  rw [not_or, UInt64.not_le, Bool.not_eq_true]

namespace Operation

variable (context : Context ε) (cache : Cache) {contents : Contents}
  (holds : context.ledger.Holds contents) (address : Address)

include holds

theorem change_of_holds {operation : Operation} {address : Address} {action : Account.Action}
    (changes : operation.change? = some (address, action)) :
    operation.perform context cache =
      { result := (((cache.entry address).load (contents.info address)).perform action).1.answer
          address
        cache := cache.setEntry address
          (((cache.entry address).load (contents.info address)).perform action).2
        queries := cache.loadQueries context.ledger address } :=
  change_of_supplies changes fun _ => holds.account address

theorem onlyLoads_of_refused {operation : Operation} {address : Address}
    {action : Account.Action} (changes : operation.change? = some (address, action))
    {fault : Fault ε} (refused : (operation.perform context cache).result = .error fault) :
    Cache.OnlyLoads contents address cache (operation.perform context cache).cache := by
  rw [change_of_holds context cache holds changes] at refused ⊢
  rw [Account.perform_of_refused _ address action refused]
  exact cache.onlyLoads_setLoaded address holds

theorem result_setNonce (next : UInt64) :
    ((setNonce address next).perform context cache).result =
      if next < cache.nonce contents address ∧ cache.bears address .selfDestructed = false then
        .error .nonceDecreased
      else .ok .done := by
  rw [change_of_holds context cache holds rfl, cache.nonce_eq_load, Cache.bears,
    ← Account.bears_load _ _ (contents.info address)]
  generalize (cache.entry address).load (contents.info address) = account
  have outcome := account.perform_outcome (.setNonce next)
  generalize account.perform (.setNonce next) = result at outcome ⊢
  cases outcome with
  | setNonce next allowed =>
    exact (if_neg fun lowers => not_le_or_iff.mpr lowers allowed).symm
  | nonceDecreased next refused =>
    exact (if_pos (not_le_or_iff.mp refused)).symm

theorem result_incNonce :
    ((incNonce address).perform context cache).result =
      if (cache.nonce contents address).toNat = 2 ^ 64 - 1 then .error (.nonceOverflow address)
      else .ok (.nonce (cache.nonce contents address + 1)) := by
  rw [change_of_holds context cache holds rfl, cache.nonce_eq_load]
  generalize (cache.entry address).load (contents.info address) = account
  have small := account.info.nonce.toNat_lt
  have outcome := account.perform_outcome .incNonce
  generalize account.perform .incNonce = result at outcome ⊢
  cases outcome with
  | incNonce room =>
    exact (if_neg (by omega)).symm
  | nonceOverflow full =>
    exact (if_pos (by omega)).symm

theorem allowed_of_accepted {next : UInt64}
    (accepted : ((setNonce address next).perform context cache).answer.accepted = true) :
    cache.nonce contents address ≤ next ∨ cache.bears address .selfDestructed = true := by
  by_contra lowers
  have result := result_setNonce context cache holds address next
  rw [if_pos (not_le_or_iff.mp lowers)] at result
  simp [Answer.accepted, Step.answer, result] at accepted

theorem room_of_accepted
    (accepted : ((incNonce address).perform context cache).answer.accepted = true) :
    (cache.nonce contents address).toNat ≠ 2 ^ 64 - 1 := by
  intro full
  have result := result_incNonce context cache holds address
  rw [if_pos full] at result
  simp [Answer.accepted, Step.answer, result] at accepted

theorem nonce_perform (operation : Operation) :
    (operation.perform context cache).cache.nonce contents address =
      if (operation.perform context cache).answer.accepted then
        (operation.renumbers address (cache.nonce contents address)).getD
          (cache.nonce contents address)
      else cache.nonce contents address := by
  rw [Cache.nonce_eq_view, operation.view_perform context cache holds, Contents.follow,
    cache.nonce_eq_view]
  split
  · exact Contents.nonce_apply _ address operation
  · rfl

theorem nonce_setNonce {next : UInt64}
    (accepted : ((setNonce address next).perform context cache).answer.accepted = true) :
    ((setNonce address next).perform context cache).cache.nonce contents address = next := by
  have given := (setNonce address next).nonce_perform context cache holds address
  rw [if_pos accepted, renumbers, if_pos rfl] at given
  exact given

theorem nonce_incNonce
    (accepted : ((incNonce address).perform context cache).answer.accepted = true) :
    ((incNonce address).perform context cache).result =
        .ok (.nonce (((incNonce address).perform context cache).cache.nonce contents address)) ∧
      (((incNonce address).perform context cache).cache.nonce contents address).toNat =
        (cache.nonce contents address).toNat + 1 := by
  have room := room_of_accepted context cache holds address accepted
  have small := (cache.nonce contents address).toNat_lt
  have given := (incNonce address).nonce_perform context cache holds address
  rw [if_pos accepted, renumbers, if_pos rfl, Option.getD_some] at given
  constructor
  · rw [result_incNonce context cache holds address, if_neg room, given]
  · rw [given, UInt64.toNat_add]
    exact Nat.mod_eq_of_lt (show _ + 1 < 2 ^ 64 by omega)

theorem renumbers_of_changed {operation : Operation}
    (changed : (operation.perform context cache).cache.nonce contents address ≠
      cache.nonce contents address) :
    (∃ next, operation = .setNonce address next ∧
      (cache.nonce contents address ≤ next ∨ cache.bears address .selfDestructed = true) ∧
      (operation.perform context cache).cache.nonce contents address = next) ∨
    (operation = .incNonce address ∧
      (operation.perform context cache).result =
        .ok (.nonce ((operation.perform context cache).cache.nonce contents address)) ∧
      ((operation.perform context cache).cache.nonce contents address).toNat =
        (cache.nonce contents address).toNat + 1) := by
  have given := operation.nonce_perform context cache holds address
  have accepted : (operation.perform context cache).answer.accepted = true := by
    by_contra refused
    exact changed (given.trans (if_neg refused))
  rw [if_pos accepted] at given
  cases operation with
  | setNonce target next =>
    by_cases same : target = address
    · subst same
      have allowed := allowed_of_accepted context cache holds target accepted
      exact .inl ⟨next, rfl, allowed, nonce_setNonce context cache holds target accepted⟩
    · exact absurd (by simpa [renumbers, same] using given) changed
  | incNonce target =>
    by_cases same : target = address
    · subst same
      exact .inr ⟨rfl, nonce_incNonce context cache holds target accepted⟩
    · exact absurd (by simpa [renumbers, same] using given) changed
  | _ => exact absurd given changed

theorem nonce_le_perform (operation : Operation)
    (whole : cache.bears address .selfDestructed = false) :
    cache.nonce contents address ≤
      (operation.perform context cache).cache.nonce contents address := by
  by_cases changed : (operation.perform context cache).cache.nonce contents address =
      cache.nonce contents address
  · rw [changed]
    exact UInt64.le_refl _
  · rcases operation.renumbers_of_changed context cache holds address changed with
      ⟨next, _, allowed, given⟩ | ⟨_, _, counted⟩
    · rw [given]
      exact allowed.resolve_right (by simp [whole])
    · rw [UInt64.le_iff_toNat_le, counted]
      exact Nat.le_succ _

end Operation

namespace Program

variable (context : Context ε) {contents : Contents}

/-- No mark is ever lost. -/
theorem bears_run (program : Program) {cache : Cache} {address : Address} {mark : Account.Mark}
    (bears : cache.bears address mark = true) :
    (program.run context cache).cache.bears address mark = true :=
  (program.moves_run context cache).entry_invariant (P := fun account => account.bears mark = true)
    (fun account action bears => (account.bears_perform mark action).mpr (.inl bears))
    address bears

section Growth

variable (holds : context.ledger.Holds contents) (address : Address)

include holds

/-- An account that a program leaves without being selfdestructed was so all along, and at no step
of the program did its nonce get smaller. -/
theorem nonce_le_run (program : Program) {cache : Cache}
    (whole : (program.run context cache).cache.bears address .selfDestructed = false) :
    cache.nonce contents address ≤ (program.run context cache).cache.nonce contents address := by
  rw [cache_run] at whole ⊢
  generalize program.inForce = operations at whole ⊢
  induction operations generalizing cache with
  | nil => exact UInt64.le_refl _
  | cons operation rest ih =>
    have start : cache.bears address .selfDestructed = false := by
      rw [← Bool.not_eq_true] at whole ⊢
      exact fun gone => whole ((ofList (operation :: rest)).bears_run context gone)
    exact UInt64.le_trans (operation.nonce_le_perform context cache holds address start) (ih whole)

/-- Over a ledger that never fails, the nonce of an account that is not selfdestructed only grows:
at every operation, and over every program, of which a frame that is committed is a single step.
No operation but the two changes it. Setting it is refused if and only if it would get smaller,
counting it up if and only if it is the largest. What is not refused leaves the nonce that was set,
or the one that was answered, larger by one. What is refused loads the account and does nothing else
to it. -/
theorem nonce_only_grows (cache : Cache) :
    (∀ operation : Operation, cache.bears address .selfDestructed = false →
      cache.nonce contents address ≤
        (operation.perform context cache).cache.nonce contents address) ∧
    (∀ program : Program,
      (program.run context cache).cache.bears address .selfDestructed = false →
      cache.nonce contents address ≤ (program.run context cache).cache.nonce contents address) ∧
    (∀ operation : Operation,
      let step := operation.perform context cache
      step.cache.nonce contents address ≠ cache.nonce contents address →
      (∃ next, operation = .setNonce address next ∧
        (cache.nonce contents address ≤ next ∨ cache.bears address .selfDestructed = true) ∧
        step.cache.nonce contents address = next) ∨
      (operation = .incNonce address ∧
        step.result = .ok (.nonce (step.cache.nonce contents address)) ∧
        (step.cache.nonce contents address).toNat =
          (cache.nonce contents address).toNat + 1)) ∧
    (∀ next, ((Operation.setNonce address next).perform context cache).result =
      if next < cache.nonce contents address ∧ cache.bears address .selfDestructed = false then
        .error .nonceDecreased
      else .ok .done) ∧
    (((Operation.incNonce address).perform context cache).result =
      if (cache.nonce contents address).toNat = 2 ^ 64 - 1 then .error (.nonceOverflow address)
      else .ok (.nonce (cache.nonce contents address + 1))) ∧
    (∀ next, let step := (Operation.setNonce address next).perform context cache
      step.result = .ok .done → step.cache.nonce contents address = next) ∧
    (∀ counted, let step := (Operation.incNonce address).perform context cache
      step.result = .ok (.nonce counted) →
        step.cache.nonce contents address = counted ∧
          counted.toNat = (cache.nonce contents address).toNat + 1) ∧
    ∀ operation : Operation,
      operation = .incNonce address ∨ (∃ next, operation = .setNonce address next) →
      ∀ fault, (operation.perform context cache).result = .error fault →
        Cache.OnlyLoads contents address cache (operation.perform context cache).cache := by
  refine ⟨fun operation => operation.nonce_le_perform context cache holds address,
    fun program => nonce_le_run context holds address program,
    fun operation => operation.renumbers_of_changed context cache holds address,
    Operation.result_setNonce context cache holds address,
    Operation.result_incNonce context cache holds address, ?_, ?_, ?_⟩
  · intro next step set
    have accepted : step.answer.accepted = true := by simp [Answer.accepted, Step.answer, set]
    exact Operation.nonce_setNonce context cache holds address accepted
  · intro counted step answered
    have accepted : step.answer.accepted = true := by simp [Answer.accepted, Step.answer, answered]
    obtain ⟨result, next⟩ := Operation.nonce_incNonce context cache holds address accepted
    have same : step.cache.nonce contents address = counted := by
      simpa using result.symm.trans answered
    exact ⟨same, same ▸ next⟩
  · rintro operation (rfl | ⟨next, rfl⟩) fault refused
    · exact Operation.onlyLoads_of_refused context cache holds rfl refused
    · exact Operation.onlyLoads_of_refused context cache holds rfl refused

end Growth

/-- The nonce of the ledger is counted up. Then a committed frame raises it, from where it is not
lowered again, and the largest one is not counted up. -/
theorem nonce_only_grows_after_frame :
    let address := FixedBytes.ofNat 20 1
    let memory : MemoryLedger := MemoryLedger.insertAccount {} address 5 [] 0
    let context : Context Unit := ⟨memory.toLedger, {}⟩
    let count := (Operation.incNonce address).perform context {}
    let program : Program :=
      .frame (.perform (.setNonce address 0xFFFFFFFFFFFFFFFF) .done) .commit .done
    let cache := (program.run context {}).cache
    (count.result = .ok (.nonce 6) ∧ count.cache.nonce memory.contents address = 6) ∧
      ({} : Cache).nonce memory.contents address ≤ cache.nonce memory.contents address ∧
      ((Operation.setNonce address 6).perform context cache).result = .error .nonceDecreased ∧
      ((Operation.incNonce address).perform context cache).result =
        .error (.nonceOverflow address) ∧
      Cache.OnlyLoads memory.contents address cache
        ((Operation.incNonce address).perform context cache).cache := by
  intro address memory context count program cache
  have holds : context.ledger.Holds memory.contents := MemoryLedger.holds_toLedger memory
  have grows := nonce_only_grows context holds address
  have answered : count.result = .ok (.nonce 6) := by rfl
  obtain ⟨_, _, _, _, _, _, left, _⟩ := grows {}
  obtain ⟨_, _, _, set, counted, _, _, refused⟩ := grows cache
  have seen : cache.nonce memory.contents address = 0xFFFFFFFFFFFFFFFF := by rfl
  have whole : cache.bears address .selfDestructed = false := by rfl
  have lowered := set 6
  rw [if_pos ⟨by rw [seen]; decide, whole⟩] at lowered
  rw [if_pos (by rw [seen]; decide)] at counted
  exact ⟨⟨answered, (left 6 answered).1⟩, (grows {}).2.1 program whole, lowered, counted,
    refused _ (.inl rfl) _ counted⟩

end Program

end Overlay
