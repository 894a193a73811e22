import Overlay.Account.Action

/-!
What each change does to the parts of an account. Every access to a slot edits the slot that is
there, or one that is warm and nothing more; the other changes leave the slots alone, except that a
creation clears them all. The outcomes of an action say which change it comes to.
-/

set_option autoImplicit false

namespace Overlay.Account

@[simp] theorem slot?_marker (address : Address) (key : Word) :
    (marker address).slot? key = none :=
  Std.ExtTreeMap.getElem?_empty

theorem ext_slot? {first second : Account} (address : first.address = second.address)
    (info : first.info = second.info) (status : first.status = second.status)
    (slots : ∀ key, first.slot? key = second.slot? key) : first = second := by
  have storage : first.storage = second.storage := Std.ExtTreeMap.ext_getElem? slots
  cases first
  cases second
  simp_all

/-- Passes a slot through a change; a slot that is not cached yet starts out warm. -/
def editSlot (account : Account) (key : Word) (edit : Slot → Slot) : Account :=
  account.putSlot key (edit ((account.slot? key).getD Slot.warm))

theorem slot?_editSlot (account : Account) (key other : Word) (edit : Slot → Slot) :
    (account.editSlot key edit).slot? other =
      if key = other then some (edit ((account.slot? key).getD Slot.warm))
      else account.slot? other :=
  account.slot?_putSlot key other _

theorem putSlot_of_slot? {account : Account} {key : Word} {slot : Slot}
    (found : account.slot? key = some slot) : account.putSlot key slot = account := by
  have same : account.storage.insert key slot = account.storage := by
    apply Std.ExtTreeMap.ext_getElem?
    intro other
    rw [Std.ExtTreeMap.getElem?_insert]
    split
    · next hit =>
      rw [← Std.LawfulEqOrd.eq_of_compare hit]
      exact found.symm
    · rfl
  cases account
  exact congrArg (Account.mk _ _ · _) same

theorem warmSlot_eq_editSlot (account : Account) (key : Word) :
    account.warmSlot key = account.editSlot key id := by
  have warmth := account.isSlotWarm_eq key
  unfold warmSlot editSlot
  cases found : account.slot? key with
  | none =>
    rw [found] at warmth
    rw [if_neg (of_decide_eq_false warmth)]
    rfl
  | some slot =>
    rw [found] at warmth
    rw [if_pos (of_decide_eq_true warmth)]
    exact (putSlot_of_slot? found).symm

theorem preloadSlot_eq_editSlot (account : Account) (key : Word) :
    account.preloadSlot key = account.editSlot key Slot.recordPreload := by
  unfold preloadSlot editSlot
  cases account.slot? key <;> rfl

theorem recordFetch_eq_editSlot (account : Account) (key fetched : Word) :
    account.recordFetch key fetched = account.editSlot key (·.recordFetch fetched) := by
  unfold recordFetch editSlot
  cases account.slot? key <;> rfl

theorem readKnown?_eq (account : Account) (key : Word) :
    account.readKnown? key =
      (account.current? key).map fun value => (value, account.editSlot key Slot.recordRead) := by
  unfold readKnown? recordRead editSlot current?
  cases account.slot? key <;> rfl

section Parts

variable (account : Account) (key other : Word) (edit : Slot → Slot)

@[simp] theorem address_editSlot : (account.editSlot key edit).address = account.address := rfl

@[simp] theorem info_editSlot : (account.editSlot key edit).info = account.info := rfl

@[simp] theorem status_editSlot : (account.editSlot key edit).status = account.status := rfl

@[simp] theorem info_writeSlot (value : Word) : (account.writeSlot key value).info = account.info :=
  rfl

@[simp] theorem status_writeSlot (value : Word) :
    (account.writeSlot key value).status = { account.status with cached := true } := rfl

/-- What holds of every slot also does after an edit, if it does of the slot that is edited. -/
theorem slot_editSlot {P : Word → Slot → Prop}
    (holds : ∀ other slot, account.slot? other = some slot → P other slot)
    (edited : P key (edit ((account.slot? key).getD Slot.warm))) (slot : Slot)
    (found : (account.editSlot key edit).slot? other = some slot) : P other slot := by
  rw [slot?_editSlot] at found
  split at found
  · next same =>
    cases found
    exact same ▸ edited
  · exact holds other slot found

theorem slotD {P : Slot → Prop} (warm : P Slot.warm)
    (holds : ∀ slot, account.slot? key = some slot → P slot) :
    P ((account.slot? key).getD Slot.warm) := by
  cases found : account.slot? key with
  | some slot => exact holds slot found
  | none => exact warm

theorem current?_editSlot :
    (account.editSlot key edit).current? other =
      if key = other then (edit ((account.slot? key).getD Slot.warm)).current
      else account.current? other := by
  rw [current?, slot?_editSlot]
  split <;> rfl

theorem current_slot : ((account.slot? key).getD Slot.warm).current = account.current? key := by
  unfold current?
  cases account.slot? key <;> rfl

theorem current?_editSlot_recordFetch (fetched : Word) :
    (account.editSlot key (·.recordFetch fetched)).current? key =
      some ((account.current? key).getD fetched) := by
  rw [current?_editSlot, if_pos rfl, Slot.recordFetch, current_slot]
  cases account.current? key <;> rfl

theorem slot?_writeSlot (value : Word) :
    (account.writeSlot key value).slot? other =
      if key = other then some (((account.slot? key).getD Slot.warm).recordWrite value)
      else account.slot? other :=
  account.slot?_editSlot key other (·.recordWrite value)

@[simp] theorem info_change (info : Info) : (account.change info).info = info := rfl

@[simp] theorem status_change (info : Info) :
    (account.change info).status = { account.status with loaded := true, cached := true } := rfl

@[simp] theorem slot?_change (info : Info) : (account.change info).slot? key = account.slot? key :=
  rfl

@[simp] theorem info_create : account.create.info = account.info := rfl

@[simp] theorem status_create :
    account.create.status =
      { account.status with loaded := true, cached := true, created := true } := rfl

@[simp] theorem info_selfDestruct : account.selfDestruct.info = account.info := rfl

@[simp] theorem status_selfDestruct :
    account.selfDestruct.status =
      { account.status with loaded := true, cached := true, selfDestructed := true } := rfl

@[simp] theorem slot?_selfDestruct : account.selfDestruct.slot? key = account.slot? key := rfl

@[simp] theorem address_load (info : Info) : (account.load info).address = account.address := by
  unfold load
  split <;> rfl

theorem info_load (info : Info) :
    (account.load info).info = if account.status.loaded then account.info else info := by
  unfold load
  split <;> rfl

@[simp] theorem status_load (info : Info) :
    (account.load info).status = { account.status with loaded := true } := by
  unfold load
  split
  · next loaded => rw [← loaded]
  · rfl

@[simp] theorem slot?_load (info : Info) : (account.load info).slot? key = account.slot? key := by
  unfold load
  split <;> rfl

theorem load_of_loaded {account : Account} (loaded : account.status.loaded = true) (info : Info) :
    account.load info = account :=
  if_pos loaded

@[simp] theorem current?_load (info : Info) :
    (account.load info).current? key = account.current? key := by
  rw [current?, slot?_load, current?]

@[simp] theorem isSlotWarm_load (info : Info) :
    (account.load info).isSlotWarm key = account.isSlotWarm key := by
  rw [isSlotWarm_eq, slot?_load, isSlotWarm_eq]

theorem isSlotWarm_editSlot :
    (account.editSlot key edit).isSlotWarm other =
      (decide (key = other) || account.isSlotWarm other) := by
  rw [isSlotWarm_eq, slot?_editSlot, isSlotWarm_eq]
  by_cases hit : key = other <;> simp [hit]

theorem isSlotWarm_create : account.create.isSlotWarm key = account.isSlotWarm key := by
  rw [isSlotWarm_eq, slot?_create, isSlotWarm_eq, Option.isSome_map]

end Parts

/-- All that an action can come to: what it replies and the account that is left. -/
inductive Outcome (account : Account) : Action → Reply × Account → Prop where
  | load (info : Info) : Outcome account (.load info) (.done, account.load info)
  | setBalance (balance : Word) :
      Outcome account (.setBalance balance) (.done, account.change { account.info with balance })
  | setNonce (nonce : UInt64)
      (allowed : account.info.nonce ≤ nonce ∨ account.status.selfDestructed = true) :
      Outcome account (.setNonce nonce) (.done, account.change { account.info with nonce })
  | nonceDecreased (nonce : UInt64)
      (refused : ¬ (account.info.nonce ≤ nonce ∨ account.status.selfDestructed = true)) :
      Outcome account (.setNonce nonce) (.nonceDecreased, account)
  | incNonce (room : account.info.nonce.toNat + 1 < 2 ^ 64) :
      Outcome account .incNonce
        (.nonce (some (account.info.nonce + 1)),
          account.change { account.info with nonce := account.info.nonce + 1 })
  | nonceOverflow (full : ¬ account.info.nonce.toNat + 1 < 2 ^ 64) :
      Outcome account .incNonce (.nonce none, account)
  | setCode (code : Bytes) :
      Outcome account (.setCode code) (.done, account.change (account.info.setCode code))
  | create : Outcome account .create (.done, account.create)
  | selfDestruct : Outcome account .selfDestruct (.done, account.selfDestruct)
  | warmSlot (key : Word) :
      Outcome account (.warmSlot key)
        (.wasWarm (account.isSlotWarm key), account.editSlot key id)
  | preloadSlot (key : Word) :
      Outcome account (.preloadSlot key)
        (.wasWarm (account.isSlotWarm key), account.editSlot key Slot.recordPreload)
  | recordFetch (key fetched : Word) :
      Outcome account (.recordFetch key fetched)
        (.value (some ((account.current? key).getD fetched)),
          account.editSlot key (·.recordFetch fetched))
  | readKnown (key value : Word) (known : account.current? key = some value) :
      Outcome account (.readKnown key)
        (.value (some value), account.editSlot key Slot.recordRead)
  | readUnknown (key : Word) (unknown : account.current? key = none) :
      Outcome account (.readKnown key) (.value none, account)
  | writeSlot (key value : Word) :
      Outcome account (.writeSlot key value)
        (.wasWarm (account.isSlotWarm key), account.writeSlot key value)

theorem perform_outcome (account : Account) (action : Action) :
    Outcome account action (account.perform action) := by
  cases action with
  | load info => exact .load info
  | setBalance balance => exact .setBalance balance
  | setNonce nonce =>
    by_cases allowed : account.info.nonce ≤ nonce ∨ account.status.selfDestructed = true
    · simp only [perform, setNonce?, if_pos allowed]
      exact .setNonce nonce allowed
    · simp only [perform, setNonce?, if_neg allowed]
      exact .nonceDecreased nonce allowed
  | incNonce =>
    by_cases room : account.info.nonce.toNat + 1 < 2 ^ 64
    · simp only [perform, incNonce?, if_pos room]
      exact .incNonce room
    · simp only [perform, incNonce?, if_neg room]
      exact .nonceOverflow room
  | setCode code => exact .setCode code
  | create => exact .create
  | selfDestruct => exact .selfDestruct
  | warmSlot key =>
    rw [perform, warmSlot_eq_editSlot]
    exact .warmSlot key
  | preloadSlot key =>
    rw [perform, preloadSlot_eq_editSlot]
    exact .preloadSlot key
  | recordFetch key fetched =>
    simp only [perform, recordFetch_eq_editSlot, current?_editSlot_recordFetch, Option.getD_some]
    exact .recordFetch key fetched
  | readKnown key =>
    simp only [perform, readKnown?_eq]
    cases known : account.current? key with
    | none => exact .readUnknown key known
    | some value => exact .readKnown key value known
  | writeSlot key value => exact .writeSlot key value

end Overlay.Account
