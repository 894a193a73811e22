import Overlay.Proofs.Faithful
import Overlay.Proofs.View

/-!
Handing the output over loses nothing. A ledger that takes over the infos and the changed slots of
the output holds what the cache showed, also for the accounts and slots that the output leaves out.
-/

set_option autoImplicit false

namespace Overlay

variable {ε : Type}

def Output.answer {α : Type} (output : Output) (address : Address) (old : Fetch ε α)
    (new : Account → Fetch ε α) : Fetch ε α :=
  (output.accounts.get? address).elim old new

namespace Ledger

/-- The ledger after a transaction. A listed account has its new info, a created one loses the
storage it had, and the changed slots are set. -/
def settle (ledger : Ledger ε) (output : Output) : Ledger ε where
  nonce address := output.answer address (ledger.nonce address) (.known ·.info.nonce)
  codeHash address := output.answer address (ledger.codeHash address) (.known ·.info.codeHash)
  balance address := output.answer address (ledger.balance address) (.known ·.info.balance)
  code address := output.answer address (ledger.code address) (.known ·.info.code)
  account address := output.answer address (ledger.account address) (.known ·.info)
  isAlive address := output.answer address (ledger.isAlive address) (.known ·.isAlive)
  storage address key :=
    output.answer address (ledger.storage address key) fun account =>
      match InsertionMap.find? key account.changedSlots with
      | some slot => .known slot.current
      | none => if account.status.created then .known none else ledger.storage address key

def Composed (ledger : Ledger ε) (address : Address) : Prop :=
  ∀ info, (ledger.account address).result = .ok info →
    (ledger.nonce address).result = .ok info.nonce ∧
      (ledger.balance address).result = .ok info.balance ∧
        (ledger.code address).result = .ok info.code

theorem composed_settle {ledger : Ledger ε} {address : Address} (composed : ledger.Composed address)
    (output : Output) : (ledger.settle output).Composed address := by
  simp only [Composed, settle, Output.answer]
  cases output.accounts.get? address with
  | none => exact composed
  | some account =>
    rintro info ⟨⟩
    exact ⟨rfl, rfl, rfl⟩

end Ledger

theorem MemoryLedger.composed_toLedger (memory : MemoryLedger) (address : Address) :
    (memory.toLedger : Ledger ε).Composed address := by
  rintro info ⟨⟩
  exact ⟨rfl, rfl, rfl⟩

namespace Account

theorem find?_changedSlots (account : Account) (key : Word) :
    InsertionMap.find? key account.changedSlots = (account.slot? key).filter Slot.isChanged := by
  have distinct : (account.changedSlots.map Prod.fst).Nodup := by
    apply (List.filter_sublist.map Prod.fst).nodup
    rw [Std.ExtTreeMap.map_fst_toList_eq_keys]
    exact Std.ExtTreeMap.nodup_keys
  apply Option.ext
  intro slot
  rw [InsertionMap.find?_eq_some_iff distinct, changedSlots, List.mem_filter,
    Std.ExtTreeMap.mem_toList_iff_getElem?_eq_some, Option.filter_eq_some_iff]
  exact Iff.rfl

section Faithful

variable {ledger : Ledger ε} {address : Address} {account : Account} {key : Word}

theorem FaithfulSlot.current_of_changed {slot : Slot}
    (faithful : FaithfulSlot ledger address account key slot) (changed : slot.isChanged = true) :
    ∃ value, slot.current = some value := by
  apply Option.isSome_iff_exists.mp
  apply faithful.sound.known
  simp_all [Slot.isChanged]

theorem Faithful.unchanged_of_plain (faithful : Faithful ledger address account)
    (plain : account.status.cached = false) (key : Word) (slot : Slot)
    (found : account.slot? key = some slot) : slot.isChanged = false := by
  -- A written slot would have made this an account with local changes.
  have cached := (faithful.slot key slot found).cached
  simp_all [Slot.isChanged]

theorem Faithful.old_of_plain (faithful : Faithful ledger address account)
    (plain : account.status.cached = false) : account.status.created = false := by
  have cached := faithful.cached
  simp_all

theorem Faithful.valueOver_of_unchanged {contents : Contents}
    (faithful : Faithful ledger address account) (holds : ledger.Holds contents) (key : Word)
    (unchanged : ∀ slot, account.slot? key = some slot → slot.isChanged = false) :
    account.valueOver key (contents.value address key) =
      if account.status.created then 0 else contents.value address key := by
  rw [valueOver, current?]
  cases found : account.slot? key with
  | none => rfl
  | some slot =>
    have held := faithful.slot key slot found
    have same : slot.initial = slot.current := by
      by_cases written : slot.access.written = true
      · simpa [Slot.isChanged, written] using unchanged slot found
      · exact held.sound.unwritten (Bool.eq_false_iff.mpr written)
    cases current : slot.current with
    | none => simp [current]
    | some value =>
      -- The current value is the initial one, and that came from the ledger or from a creation.
      have filled := held.initial value (same.trans current)
      unfold Ledger.Fills at filled
      simp only [Option.bind_some, current, Option.getD_some]
      split at filled
      · next created => rw [filled, if_pos created]
      · next plain =>
        obtain ⟨stored, answer, rfl⟩ := filled
        obtain ⟨stored', answer', held⟩ := holds.storage address key
        rw [answer, Except.ok.injEq] at answer'
        rw [if_neg plain, held, answer']

end Faithful

end Account

namespace Cache

theorem get?_output (cache : Cache) (address : Address) :
    cache.output.accounts.get? address = (cache.account? address).filter (·.status.cached) :=
  InsertionMap.get?_filter cache.accounts _ address

/-- The output lists an account with all its local changes, or there are none. -/
theorem listed_or_plain (cache : Cache) (address : Address) :
    (cache.output.accounts.get? address = some (cache.entry address) ∧
        (cache.entry address).status.cached = true) ∨
      (cache.output.accounts.get? address = none ∧
        (cache.entry address).status.cached = false) := by
  rw [get?_output, entry]
  cases cache.account? address with
  | none => exact .inr ⟨rfl, rfl⟩
  | some account =>
    cases cached : account.status.cached with
    | true => exact .inl ⟨by simp [Option.filter, cached], cached⟩
    | false => exact .inr ⟨by simp [Option.filter, cached], cached⟩

variable {ledger : Ledger ε} {contents : Contents} {cache : Cache}
  (holds : ledger.Holds contents)
  (faithful : ∀ address, (cache.entry address).Faithful ledger address) (address : Address)

include holds faithful

theorem account_settle :
    ((ledger.settle cache.output).account address).result =
      .ok ((cache.view contents).info address) := by
  have entry := faithful address
  rw [info_view]
  rcases cache.listed_or_plain address with ⟨listed, cached⟩ | ⟨missing, plain⟩
  · simp only [Ledger.settle, Output.answer, listed, Option.elim_some]
    rw [Account.load_of_loaded (entry.loaded cached)]
    rfl
  · simp only [Ledger.settle, Output.answer, missing, Option.elim_none]
    rw [Account.info_load]
    split
    · next loaded => exact entry.info loaded plain
    · exact holds.account address

theorem storage_settle_of_listed (key : Word)
    (listed : cache.output.accounts.get? address = some (cache.entry address)) :
    ∃ found, ((ledger.settle cache.output).storage address key).result = .ok found ∧
      (cache.view contents).value address key = found.getD 0 := by
  have entry := faithful address
  rw [value_view]
  simp only [Ledger.settle, Output.answer, listed, Option.elim_some, Account.find?_changedSlots]
  cases changed : ((cache.entry address).slot? key).filter Slot.isChanged with
  | some slot =>
    -- The output sets the slot to its current value, which a written slot has.
    obtain ⟨found, change⟩ := Option.filter_eq_some_iff.mp changed
    obtain ⟨value, current⟩ := (entry.slot key slot found).current_of_changed change
    refine ⟨slot.current, rfl, ?_⟩
    rw [Account.valueOver, Account.current?, found, Option.bind_some, current]
    rfl
  | none =>
    -- What is left out reads as the storage of the ledger does, which a creation empties.
    rw [entry.valueOver_of_unchanged holds key (by simpa using changed)]
    by_cases created : (cache.entry address).status.created = true
    · simp only [if_pos created]
      exact ⟨none, rfl, rfl⟩
    · simp only [if_neg created]
      exact holds.storage address key

theorem storage_settle_of_plain (key : Word)
    (missing : cache.output.accounts.get? address = none)
    (plain : (cache.entry address).status.cached = false) :
    ∃ found, ((ledger.settle cache.output).storage address key).result = .ok found ∧
      (cache.view contents).value address key = found.getD 0 := by
  have entry := faithful address
  rw [value_view, entry.valueOver_of_unchanged holds key (entry.unchanged_of_plain plain key),
    entry.old_of_plain plain]
  simp only [Ledger.settle, Output.answer, missing, Option.elim_none]
  exact holds.storage address key

theorem settle_holds : (ledger.settle cache.output).Holds (cache.view contents) where
  account := account_settle holds faithful
  storage address key := by
    rcases cache.listed_or_plain address with ⟨listed, _⟩ | ⟨missing, plain⟩
    · exact storage_settle_of_listed holds faithful address key listed
    · exact storage_settle_of_plain holds faithful address key missing plain

end Cache

/-- Handing the output over loses nothing: the settled ledger has the infos and the values that the
cache would have answered just before, also where the output lists nothing. -/
theorem Reachable.settle_takeOutput {ledger : Ledger ε} {contents : Contents} {cache : Cache}
    (reachable : Reachable (· = ledger) cache) (holds : ledger.Holds contents)
    (address : Address) :
    (∃ load, (cache.load ledger address).result = .ok load ∧
      ((ledger.settle cache.takeOutput.1).account address).result = .ok load.data.info ∧
      (ledger.Composed address →
        ((ledger.settle cache.takeOutput.1).nonce address).result = .ok load.data.info.nonce ∧
        ((ledger.settle cache.takeOutput.1).balance address).result = .ok load.data.info.balance ∧
        ((ledger.settle cache.takeOutput.1).code address).result = .ok load.data.info.code)) ∧
    ∀ key, ∃ load found, (cache.readSlot ledger address key).result = .ok load ∧
      ((ledger.settle cache.takeOutput.1).storage address key).result = .ok found ∧
      found.getD 0 = load.data := by
  have settled := Cache.settle_holds holds reachable.faithful
  constructor
  · obtain ⟨⟨load, result, info⟩, _⟩ := cache.load_view address holds
    have account : ((ledger.settle cache.takeOutput.1).account address).result =
        .ok load.data.info := (settled.account address).trans (congrArg Except.ok info.symm)
    exact ⟨load, result, account, fun composed =>
      Ledger.composed_settle composed cache.takeOutput.1 _ account⟩
  · intro key
    obtain ⟨⟨load, result, value⟩, _⟩ := cache.readSlot_view address holds key
    obtain ⟨found, answer, stored⟩ := settled.storage address key
    exact ⟨load, found, result, answer, stored.symm.trans value.symm⟩

/-- A committed frame creates an account and writes to it. Settling drops what was stored before and
keeps the nonce. -/
theorem settle_created_account :
    let address := FixedBytes.ofNat 20 1
    let memory := (MemoryLedger.insertAccount {} address 5 [] 0).insertStorage address 1 3
    let ledger : Ledger Unit := memory.toLedger
    let body : Program := .perform (.create address) (.perform (.writeSlot address 2 9) .done)
    let cache := ((Program.frame body .commit .done).run ⟨ledger, {}⟩ {}).cache
    ((ledger.settle cache.takeOutput.1).nonce address).result = .ok 5 ∧
      (∃ load, (cache.readSlot ledger address 1).result = .ok load ∧ load.data = 0) ∧
        ∃ load, (cache.readSlot ledger address 2).result = .ok load ∧ load.data = 9 := by
  intro address memory ledger body cache
  have start : Reachable (· = ledger) {} := .new
  have reachable := start.run ⟨ledger, {}⟩ rfl (.frame body .commit .done)
  obtain ⟨⟨load, loaded, _, parts⟩, values⟩ :=
    reachable.settle_takeOutput (MemoryLedger.holds_toLedger memory) address
  obtain ⟨nonce, _⟩ := parts (memory.composed_toLedger address)
  refine ⟨?_, ?_, ?_⟩
  · have counted : (cache.load ledger address).result.map (·.data.info.nonce) = .ok 5 := by rfl
    rw [loaded] at counted
    exact nonce.trans (congrArg Except.ok (Except.ok.inj counted))
  · obtain ⟨load, found, result, stored, same⟩ := values 1
    have answer : ((ledger.settle cache.takeOutput.1).storage address 1).result = .ok none := by
      rfl
    have emptied : none = found := Except.ok.inj (answer.symm.trans stored)
    exact ⟨load, result, by rw [← same, ← emptied]; rfl⟩
  · obtain ⟨load, found, result, stored, same⟩ := values 2
    have answer : ((ledger.settle cache.takeOutput.1).storage address 2).result = .ok (some 9) := by
      rfl
    have written : some 9 = found := Except.ok.inj (answer.symm.trans stored)
    exact ⟨load, result, by rw [← same, ← written]; rfl⟩

end Overlay
