import Overlay.Proofs.Faithful
import Overlay.Proofs.Marks

/-!
The slots of one account on its own, through any actions in any order, whether a cache would ask for
them or not. The values of a slot stay in line with its flags, and nothing that is warm or marked is
ever unmarked. Once a value is known it stays: an initial one until a creation makes it zero, a
current one until a creation or a write of the slot, of which the latest counts.
-/

set_option autoImplicit false

namespace Overlay.Account

inductive Fresh : Account → Prop where
  | marker (address : Address) : Fresh (marker address)
  | loaded (address : Address) (info : Info) : Fresh (loaded address info)
  | ofCode (address : Address) (nonce : UInt64) (code : Bytes) (balance : Word) :
      Fresh (ofCode address nonce code balance)

def after (account : Account) (actions : List Action) : Account :=
  actions.foldl (fun account action => (account.perform action).2) account

def initial? (account : Account) (key : Word) : Option Word :=
  (account.slot? key).bind Slot.initial

def Action.decides (key : Word) : Action → Option Word
  | .writeSlot target value => if target = key then some value else none
  | .create => some 0
  | _ => none

def Sound (account : Account) : Prop :=
  ∀ key slot, account.slot? key = some slot → slot.Sound

/-- What is warm, loaded or marked in the first is so in the second. -/
structure Grows (before after : Account) : Prop where
  warm : ∀ key, before.isSlotWarm key = true → after.isSlotWarm key = true
  loaded : before.status.loaded = true → after.status.loaded = true
  marked : ∀ mark, before.bears mark = true → after.bears mark = true

theorem Fresh.slot? {account : Account} (fresh : account.Fresh) (key : Word) :
    account.slot? key = none := by
  cases fresh <;> exact Std.ExtTreeMap.getElem?_empty

/-! ## One action -/

namespace Sound

variable {account : Account} (sound : account.Sound)

include sound

theorem slotD (key : Word) : ((account.slot? key).getD Slot.warm).Sound :=
  account.slotD key Slot.sound_warm (sound key)

theorem editSlot (key : Word) (edit : Slot → Slot)
    (edited : (edit ((account.slot? key).getD Slot.warm)).Sound) :
    (account.editSlot key edit).Sound := fun other slot found =>
  account.slot_editSlot key other edit (P := fun _ => Slot.Sound) sound edited slot found

/-- No action breaks a slot, whatever is loaded, fetched or written. -/
theorem perform (action : Action) : (account.perform action).2.Sound := by
  have outcome := account.perform_outcome action
  generalize account.perform action = result at outcome ⊢
  cases outcome with
  | load info =>
    intro key slot found
    rw [slot?_load] at found
    exact sound key slot found
  | setBalance | setNonce | nonceDecreased | incNonce | nonceOverflow | setCode | selfDestruct
  | readUnknown => exact sound
  | create =>
    intro key slot found
    rw [slot?_create, Option.map_eq_some_iff] at found
    obtain ⟨old, _, rfl⟩ := found
    exact old.sound_cleared
  | warmSlot key => exact sound.editSlot key _ (sound.slotD key)
  | preloadSlot key => exact sound.editSlot key _ (sound.slotD key).recordPreload
  | recordFetch key fetched => exact sound.editSlot key _ ((sound.slotD key).recordFetch fetched)
  | readKnown key value known =>
    have current : ((account.slot? key).getD Slot.warm).current.isSome = true := by
      rw [current_slot, known]
      rfl
    exact sound.editSlot key _ ((sound.slotD key).recordRead current)
  | writeSlot key value =>
    exact sound.editSlot key (·.recordWrite value) (Slot.sound_recordWrite _ value)

end Sound

section Step

variable (account : Account)

theorem grows_perform (action : Action) : account.Grows (account.perform action).2 where
  warm key warm := (account.isSlotWarm_perform key action).mpr (.inl warm)
  loaded loaded := by
    have outcome := account.perform_outcome action
    generalize account.perform action = result at outcome ⊢
    cases outcome <;> simp [loaded]
  marked mark marked := (account.bears_perform mark action).mpr (.inl marked)

theorem slot?_bind_editSlot (part : Slot → Option Word) (edit : Slot → Slot)
    {key other value : Word}
    (keeps : ∀ slot, part slot = some value → part (edit slot) = some value)
    (known : (account.slot? other).bind part = some value) :
    ((account.editSlot key edit).slot? other).bind part = some value := by
  rw [slot?_editSlot]
  split
  · next same =>
    obtain ⟨slot, cached, part⟩ := Option.bind_eq_some_iff.mp known
    rw [same, cached]
    exact keeps slot part
  · exact known

variable {account : Account} {key value : Word}

theorem initial?_perform (known : account.initial? key = some value) (action : Action) :
    (account.perform action).2.initial? key = some (if action = .create then 0 else value) := by
  have outcome := account.perform_outcome action
  generalize account.perform action = result at outcome ⊢
  cases outcome with
  | load info => rwa [initial?, slot?_load]
  | setBalance | setNonce | nonceDecreased | incNonce | nonceOverflow | setCode | selfDestruct
  | readUnknown => exact known
  | create =>
    obtain ⟨slot, cached, _⟩ := Option.bind_eq_some_iff.mp known
    rw [initial?, slot?_create, cached]
    rfl
  | warmSlot | preloadSlot | readKnown =>
    exact account.slot?_bind_editSlot Slot.initial _ (fun _ => id) known
  | recordFetch target fetched =>
    -- What is known already wins over what was fetched.
    refine account.slot?_bind_editSlot Slot.initial _ (fun slot initial => ?_) known
    simp only [Slot.recordFetch, initial, Option.some_or]
  | writeSlot target written =>
    exact account.slot?_bind_editSlot Slot.initial (·.recordWrite written) (fun _ => id) known

theorem current?_perform (known : account.current? key = some value) (action : Action) :
    (account.perform action).2.current? key = some ((action.decides key).getD value) := by
  have outcome := account.perform_outcome action
  generalize account.perform action = result at outcome ⊢
  cases outcome with
  | load info => rwa [current?_load]
  | setBalance | setNonce | nonceDecreased | incNonce | nonceOverflow | setCode | selfDestruct
  | readUnknown => exact known
  | create =>
    obtain ⟨slot, cached, _⟩ := Option.bind_eq_some_iff.mp known
    rw [current?, slot?_create, cached]
    rfl
  | warmSlot | preloadSlot | readKnown =>
    exact account.slot?_bind_editSlot Slot.current _ (fun _ => id) known
  | recordFetch target fetched =>
    refine account.slot?_bind_editSlot Slot.current _ (fun slot current => ?_) known
    simp only [Slot.recordFetch, current, Option.some_or]
  | writeSlot target written =>
    have decided : (Action.writeSlot target written).decides key =
        if target = key then some written else none := rfl
    rw [current?_writeSlot, decided]
    split
    · rfl
    · exact known

theorem reply_readKnown (account : Account) (key : Word) :
    (account.perform (.readKnown key)).1 = .value (account.current? key) := by
  simp only [perform, readKnown?_eq]
  cases account.current? key <;> rfl

theorem reply_recordFetch (account : Account) (key fetched : Word) :
    (account.perform (.recordFetch key fetched)).1 =
        .value (some ((account.current? key).getD fetched)) ∧
      (account.perform (.recordFetch key fetched)).2.current? key =
        some ((account.current? key).getD fetched) := by
  simp only [perform, recordFetch_eq_editSlot, current?_editSlot_recordFetch, Option.getD_some,
    and_self]

theorem perform_of_nonceDecreased {account : Account} {nonce : UInt64}
    (refused : (account.perform (.setNonce nonce)).1 = .nonceDecreased) :
    (account.perform (.setNonce nonce)).2 = account := by
  have outcome := account.perform_outcome (.setNonce nonce)
  generalize account.perform (.setNonce nonce) = result at outcome refused ⊢
  cases outcome with
  | setNonce => cases refused
  | nonceDecreased => rfl

end Step

/-! ## Any actions -/

theorem after_append (account : Account) (first second : List Action) :
    account.after (first ++ second) = (account.after first).after second :=
  List.foldl_append

theorem Sound.after {account : Account} (sound : account.Sound) (actions : List Action) :
    (account.after actions).Sound := by
  induction actions generalizing account with
  | nil => exact sound
  | cons action rest ih => exact ih (sound.perform action)

theorem grows_after (account : Account) (actions : List Action) :
    account.Grows (account.after actions) := by
  induction actions generalizing account with
  | nil => exact ⟨fun _ => id, id, fun _ => id⟩
  | cons action rest ih =>
    have first := account.grows_perform action
    have later := ih (account.perform action).2
    exact ⟨fun key warm => later.warm key (first.warm key warm),
      fun loaded => later.loaded (first.loaded loaded),
      fun mark marked => later.marked mark (first.marked mark marked)⟩

section Values

variable {account : Account} {key value : Word}

theorem initial?_after (known : account.initial? key = some value) (actions : List Action) :
    (account.after actions).initial? key = some (if .create ∈ actions then 0 else value) := by
  induction actions generalizing account value with
  | nil => exact known
  | cons action rest ih =>
    have later := ih (initial?_perform known action)
    refine later.trans (congrArg some ?_)
    by_cases created : action = .create <;> by_cases again : .create ∈ rest <;>
      simp [created, again, eq_comm]

theorem current?_after (known : account.current? key = some value) (actions : List Action) :
    (account.after actions).current? key =
      some ((actions.reverse.findSome? (·.decides key)).getD value) := by
  induction actions generalizing account value with
  | nil => exact known
  | cons action rest ih =>
    have later := ih (current?_perform known action)
    exact later.trans (congrArg some (getD_findSome?_reverse_cons _ action rest value).symm)

end Values

/-- An account that starts out fresh keeps sound slots through any actions. What it has been warmed
for and marked with stays; a known initial value stays until a creation, a known current one until
the latest creation or write; a fetch answers what was known before it, or else what was fetched,
and so does a read right after it; and a refused nonce changes nothing. -/
theorem Fresh.slots_after {start : Account} (fresh : start.Fresh) (past : List Action) :
    (∀ key slot, (start.after past).slot? key = some slot →
      (slot.access.read = true ∨ slot.access.written = true → slot.current.isSome = true) ∧
      (slot.initial.isSome = true → slot.current.isSome = true) ∧
      (slot.access.written = false → slot.initial = slot.current)) ∧
    (∀ later, (start.after past).Grows (start.after (past ++ later)) ∧
      ∀ key value,
        ((start.after past).initial? key = some value →
          (start.after (past ++ later)).initial? key =
            some (if .create ∈ later then 0 else value)) ∧
        ((start.after past).current? key = some value →
          (start.after (past ++ later)).current? key =
            some ((later.reverse.findSome? (·.decides key)).getD value))) ∧
    (∀ key fetched,
      ((start.after past).perform (.recordFetch key fetched)).1 =
        .value (some (((start.after past).current? key).getD fetched)) ∧
      ((start.after (past ++ [.recordFetch key fetched])).perform (.readKnown key)).1 =
        .value (some (((start.after past).current? key).getD fetched))) ∧
    ∀ nonce, ((start.after past).perform (.setNonce nonce)).1 = .nonceDecreased →
      start.after (past ++ [.setNonce nonce]) = start.after past := by
  simp only [after_append]
  generalize accounted : start.after past = account
  have sound : account.Sound := by
    have bare : start.Sound := fun key slot found => by simp [fresh.slot? key] at found
    exact accounted ▸ bare.after past
  refine ⟨fun key slot found => ?_, fun later => ⟨account.grows_after later, fun key value => ?_⟩,
    fun key fetched => ?_, fun nonce refused => perform_of_nonceDecreased refused⟩
  · have held := sound key slot found
    exact ⟨fun accessed => held.known (by simpa using accessed), held.current_of_initial,
      held.unwritten⟩
  · exact ⟨fun known => initial?_after known later, fun known => current?_after known later⟩
  · obtain ⟨answer, stored⟩ := account.reply_recordFetch key fetched
    exact ⟨answer, (reply_readKnown _ key).trans (congrArg Reply.value stored)⟩

/-- A slot that was written before it was fetched, cleared by a creation and written again. -/
theorem Fresh.slots_after_creation :
    let start := Account.marker (FixedBytes.ofNat 20 1)
    let past : List Action := [.writeSlot 1 7, .recordFetch 1 3]
    let later : List Action := [.create, .writeSlot 1 5, .recordFetch 1 9]
    (start.after past).initial? 1 = some 3 ∧ (start.after past).current? 1 = some 7 ∧
      (start.after (past ++ later)).initial? 1 = some 0 ∧
      (start.after (past ++ later)).current? 1 = some 5 := by
  intro start past later
  have initial : (start.after past).initial? 1 = some 3 := by rfl
  have current : (start.after past).current? 1 = some 7 := by rfl
  obtain ⟨_, along, _⟩ := (Fresh.marker (FixedBytes.ofNat 20 1)).slots_after past
  obtain ⟨started, stands⟩ := (along later).2 1 3
  refine ⟨initial, current, started initial, ?_⟩
  exact ((along later).2 1 7).2 current

end Overlay.Account
