import Overlay.Proofs.Reachable

/-!
What every entry of a reachable cache keeps. A slot that was not written has its initial value, and
that is the one of the ledger, or zero where the account was created; an account without local
changes has the info of the ledger. Whatever differs from the ledger is marked as changed.
-/

set_option autoImplicit false

namespace Overlay

variable {ε : Type}

/-- How the values of a slot and its accesses go together. -/
structure Slot.Sound (slot : Slot) : Prop where
  unwritten : slot.access.written = false → slot.initial = slot.current
  known : (slot.access.read || slot.access.written) = true → slot.current.isSome = true

namespace Slot

variable {slot : Slot}

theorem sound_warm : warm.Sound := ⟨fun _ => rfl, by simp [warm]⟩

theorem Sound.recordPreload (sound : slot.Sound) : slot.recordPreload.Sound :=
  ⟨sound.unwritten, sound.known⟩

theorem Sound.recordRead (sound : slot.Sound) (known : slot.current.isSome = true) :
    slot.recordRead.Sound :=
  ⟨sound.unwritten, fun _ => known⟩

theorem Sound.recordFetch (sound : slot.Sound) (fetched : Word) :
    (slot.recordFetch fetched).Sound where
  unwritten unwritten := by
    have same := sound.unwritten unwritten
    simp only [Slot.recordFetch, same]
  known _ := by simp [Slot.recordFetch]

theorem sound_recordWrite (slot : Slot) (value : Word) : (slot.recordWrite value).Sound :=
  ⟨by simp [Slot.recordWrite], by simp [Slot.recordWrite]⟩

theorem sound_cleared (slot : Slot) : slot.cleared.Sound := ⟨fun _ => rfl, fun _ => rfl⟩

theorem Sound.current_of_initial (sound : slot.Sound) (known : slot.initial.isSome = true) :
    slot.current.isSome = true := by
  cases written : slot.access.written with
  | true => exact sound.known (by simp [written])
  | false => rwa [← sound.unwritten written]

end Slot

namespace Account

structure FaithfulSlot (ledger : Ledger ε) (address : Address) (account : Account) (key : Word)
    (slot : Slot) : Prop where
  sound : slot.Sound
  initial : ∀ value, slot.initial = some value → ledger.Fills address account key value
  cached : slot.access.written = true → account.status.cached = true

structure Faithful (ledger : Ledger ε) (address : Address) (account : Account) : Prop where
  loaded : account.status.cached = true → account.status.loaded = true
  cached : account.status.created = true → account.status.cached = true
  info : account.status.loaded = true → account.status.cached = false →
    (ledger.account address).result = .ok account.info
  slot : ∀ key slot, account.slot? key = some slot →
    FaithfulSlot ledger address account key slot

namespace Faithful

variable {ledger : Ledger ε} {address : Address} {account : Account}

theorem marker (ledger : Ledger ε) (address : Address) :
    Faithful ledger address (Account.marker address) where
  loaded cached := by cases cached
  cached created := by cases created
  info loaded := by cases loaded
  slot key slot found := by simp at found

theorem slotD (faithful : Faithful ledger address account) (key : Word) :
    FaithfulSlot ledger address account key ((account.slot? key).getD Slot.warm) :=
  account.slotD key ⟨Slot.sound_warm, by simp [Slot.warm], by simp [Slot.warm]⟩
    (faithful.slot key)

theorem load (faithful : Faithful ledger address account) {info : Info}
    (supplied : ledger.Supplies address account info) :
    Faithful ledger address (account.load info) := by
  refine { loaded := by simp, cached := ?_, info := ?_, slot := ?_ }
  · simpa using faithful.cached
  · intro _ plain
    rw [status_load] at plain
    rw [info_load]
    split
    · next loaded => exact faithful.info loaded plain
    · next unloaded => exact supplied (Bool.eq_false_iff.mpr unloaded)
  · intro key slot found
    rw [slot?_load] at found
    have old := faithful.slot key slot found
    exact ⟨old.sound, by simpa [Ledger.Fills] using old.initial, by simpa using old.cached⟩

theorem change (faithful : Faithful ledger address account) (info : Info) :
    Faithful ledger address (account.change info) where
  loaded _ := rfl
  cached _ := rfl
  info _ plain := by cases plain
  slot key slot found := ⟨(faithful.slot key slot found).sound,
    (faithful.slot key slot found).initial, fun _ => rfl⟩

theorem selfDestruct (faithful : Faithful ledger address account) :
    Faithful ledger address account.selfDestruct where
  loaded _ := rfl
  cached _ := rfl
  info _ plain := by cases plain
  slot key slot found := ⟨(faithful.slot key slot found).sound,
    (faithful.slot key slot found).initial, fun _ => rfl⟩

-- A creation makes zero the initial value of every slot, so it asks nothing of the old ones.
theorem create (ledger : Ledger ε) (address : Address) (account : Account) :
    Faithful ledger address account.create where
  loaded _ := rfl
  cached _ := rfl
  info _ plain := by cases plain
  slot key slot found := by
    rw [slot?_create, Option.map_eq_some_iff] at found
    obtain ⟨old, _, rfl⟩ := found
    refine ⟨old.sound_cleared, ?_, fun _ => rfl⟩
    rintro value ⟨⟩
    simp [Ledger.Fills]

theorem editSlot (faithful : Faithful ledger address account) {key : Word} {edit : Slot → Slot}
    (edited : FaithfulSlot ledger address account key
      (edit ((account.slot? key).getD Slot.warm))) :
    Faithful ledger address (account.editSlot key edit) where
  loaded := faithful.loaded
  cached := faithful.cached
  info := faithful.info
  slot other slot found := by
    rw [slot?_editSlot] at found
    split at found
    · next same =>
      cases found
      exact same ▸ ⟨edited.sound, edited.initial, edited.cached⟩
    · have old := faithful.slot other slot found
      exact ⟨old.sound, old.initial, old.cached⟩

theorem writeSlot (faithful : Faithful ledger address account)
    (loaded : account.status.loaded = true) (key value : Word) :
    Faithful ledger address (account.writeSlot key value) where
  loaded _ := loaded
  cached _ := rfl
  info _ plain := by cases plain
  slot other slot found := by
    rw [slot?_writeSlot] at found
    split at found
    · next same =>
      cases found
      subst same
      exact ⟨Slot.sound_recordWrite _ value, (faithful.slotD key).initial, fun _ => rfl⟩
    · have old := faithful.slot other slot found
      exact ⟨old.sound, old.initial, fun _ => rfl⟩

theorem recordFetch (faithful : Faithful ledger address account) {key fetched : Word}
    (filled : ledger.Fills address account key fetched) :
    Faithful ledger address (account.editSlot key (·.recordFetch fetched)) := by
  have old := faithful.slotD key
  refine faithful.editSlot ⟨old.sound.recordFetch fetched, ?_, old.cached⟩
  intro value known
  -- What is known already wins over what was fetched.
  simp only [Slot.recordFetch, Option.or_eq_some_iff] at known
  rcases known with before | ⟨_, now⟩
  · exact old.initial value before
  · cases now
    exact filled

/-- Every action that a cache asks of an account keeps it faithful. -/
theorem perform (faithful : Faithful ledger address account) {action : Action}
    (admissible : action.Admissible ledger address account) :
    Faithful ledger address (account.perform action).2 := by
  have outcome := account.perform_outcome action
  generalize account.perform action = result at outcome ⊢
  cases outcome with
  | load info => exact faithful.load admissible
  | setBalance | setNonce | incNonce | setCode => exact faithful.change _
  | nonceDecreased | nonceOverflow | readUnknown => exact faithful
  | create => exact create ledger address account
  | selfDestruct => exact faithful.selfDestruct
  | warmSlot key => exact faithful.editSlot (faithful.slotD key)
  | preloadSlot key =>
    have old := faithful.slotD key
    exact faithful.editSlot ⟨old.sound.recordPreload, old.initial, old.cached⟩
  | recordFetch key fetched => exact faithful.recordFetch admissible
  | readKnown key value known =>
    have old := faithful.slotD key
    have current : ((account.slot? key).getD Slot.warm).current.isSome = true := by
      rw [current_slot, known]
      rfl
    exact faithful.editSlot ⟨old.sound.recordRead current, old.initial, old.cached⟩
  | writeSlot key value => exact faithful.writeSlot admissible key value

end Faithful

end Account

theorem Reachable.faithful {ledger : Ledger ε} {cache : Cache}
    (reachable : Reachable (· = ledger) cache) (address : Address) :
    (cache.entry address).Faithful ledger address := by
  refine reachable.entry_invariant (Account.Faithful.marker ledger) ?_ address
  rintro _ address account action rfl admissible faithful
  exact faithful.perform admissible

end Overlay
