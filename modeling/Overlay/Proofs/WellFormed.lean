import Overlay.Proofs.Frame
import Overlay.Proofs.Reachable

/-!
How the parts of a cache go together, whatever happened to it and over whichever ledgers. What one
action keeps of an account, every entry of a reachable cache has; a commit adds nothing to that,
since it takes every entry from one cache or the other.
-/

set_option autoImplicit false

namespace Overlay

variable {ε : Type}

structure Slot.Fits (slot : Slot) (status : Status) : Prop where
  written : slot.access.written = true → status.cached = true
  initial : status.created = true → ∀ value, slot.initial = some value → value = 0

theorem Slot.fits_warm (status : Status) : Slot.warm.Fits status :=
  ⟨by simp [warm], by simp [warm]⟩

namespace Account

structure WellFormed (address : Address) (account : Account) : Prop where
  named : account.address = address
  loaded : account.status.cached = true → account.status.loaded = true
  cached : account.status.created = true ∨ account.status.selfDestructed = true →
    account.status.cached = true
  info : account.status.loaded = false → account.info = default
  reserved : account.status.reserved = 0
  slot : ∀ key slot, account.slot? key = some slot → slot.Fits account.status

namespace WellFormed

variable {ledger : Ledger ε} {address : Address} {account : Account}

theorem marker (address : Address) : WellFormed address (Account.marker address) where
  named := rfl
  loaded cached := by cases cached
  cached either := by simp [Account.marker] at either
  info _ := rfl
  reserved := rfl
  slot key slot found := by simp at found

theorem slotD (formed : WellFormed address account) (key : Word) :
    ((account.slot? key).getD Slot.warm).Fits account.status :=
  account.slotD key (Slot.fits_warm account.status) (formed.slot key)

theorem load (formed : WellFormed address account) (info : Info) :
    WellFormed address (account.load info) where
  named := by
    unfold Account.load
    split <;> exact formed.named
  loaded _ := by simp
  cached := by simpa using formed.cached
  info unloaded := by simp at unloaded
  reserved := by simpa using formed.reserved
  slot key slot found := by
    rw [slot?_load] at found
    have old := formed.slot key slot found
    exact ⟨by simpa using old.written, by simpa using old.initial⟩

theorem change (formed : WellFormed address account) (info : Info) :
    WellFormed address (account.change info) where
  named := formed.named
  loaded _ := rfl
  cached _ := rfl
  info unloaded := by cases unloaded
  reserved := formed.reserved
  slot key slot found := ⟨fun _ => rfl, (formed.slot key slot found).initial⟩

theorem selfDestruct (formed : WellFormed address account) :
    WellFormed address account.selfDestruct where
  named := formed.named
  loaded _ := rfl
  cached _ := rfl
  info unloaded := by cases unloaded
  reserved := formed.reserved
  slot key slot found := ⟨fun _ => rfl, (formed.slot key slot found).initial⟩

-- A created account keeps its slots, but none of the values that they had.
theorem create (formed : WellFormed address account) : WellFormed address account.create where
  named := formed.named
  loaded _ := rfl
  cached _ := rfl
  info unloaded := by cases unloaded
  reserved := formed.reserved
  slot key slot found := by
    rw [slot?_create, Option.map_eq_some_iff] at found
    obtain ⟨old, _, rfl⟩ := found
    refine ⟨fun _ => rfl, ?_⟩
    rintro _ value ⟨⟩
    rfl

theorem editSlot (formed : WellFormed address account) {key : Word} {edit : Slot → Slot}
    (edited : (edit ((account.slot? key).getD Slot.warm)).Fits account.status) :
    WellFormed address (account.editSlot key edit) where
  named := formed.named
  loaded := formed.loaded
  cached := formed.cached
  info := formed.info
  reserved := formed.reserved
  slot other slot found := account.slot_editSlot key other edit (P := fun _ => (·.Fits _))
    formed.slot edited slot found

theorem recordFetch (formed : WellFormed address account) {key fetched : Word}
    (filled : ledger.Fills address account key fetched) :
    WellFormed address (account.editSlot key (·.recordFetch fetched)) := by
  have old := formed.slotD key
  refine formed.editSlot ⟨old.written, fun created value known => ?_⟩
  simp only [Slot.recordFetch, Option.or_eq_some_iff] at known
  rcases known with before | ⟨_, now⟩
  · exact old.initial created value before
  · -- Nothing else than zero is fetched for a created account.
    cases now
    rwa [Ledger.Fills, if_pos created] at filled

theorem writeSlot (formed : WellFormed address account) (loaded : account.status.loaded = true)
    (key value : Word) : WellFormed address (account.writeSlot key value) where
  named := formed.named
  loaded _ := loaded
  cached _ := rfl
  info := formed.info
  reserved := formed.reserved
  slot other slot found := by
    refine ⟨fun _ => rfl, fun created => ?_⟩
    -- A write leaves every initial value as it was.
    exact account.slot_editSlot key other (·.recordWrite value)
      (P := fun _ slot => ∀ value, slot.initial = some value → value = 0)
      (fun other slot found => (formed.slot other slot found).initial created)
      ((formed.slotD key).initial created) slot found

/-- Every action that a cache asks of an account keeps it well formed. -/
theorem perform (formed : WellFormed address account) {action : Action}
    (admissible : action.Admissible ledger address account) :
    WellFormed address (account.perform action).2 := by
  have outcome := account.perform_outcome action
  generalize account.perform action = result at outcome ⊢
  cases outcome with
  | load info => exact formed.load info
  | setBalance | setNonce | incNonce | setCode => exact formed.change _
  | nonceDecreased | nonceOverflow | readUnknown => exact formed
  | create => exact formed.create
  | selfDestruct => exact formed.selfDestruct
  | warmSlot key | preloadSlot key | readKnown key =>
    have old := formed.slotD key
    exact formed.editSlot ⟨old.written, old.initial⟩
  | recordFetch key fetched => exact formed.recordFetch admissible
  | writeSlot key value => exact formed.writeSlot admissible key value

end WellFormed

end Account

namespace Cache

structure WellFormed (cache : Cache) : Prop where
  warm : ∀ address, address ∈ cache.accounts → address ∈ cache.warm
  account : ∀ address account, cache.account? address = some account →
    account.WellFormed address
  logs : cache.inherited.logs ≤ cache.logs.length
  transfers : cache.inherited.transfers ≤ cache.transfers.length

variable {ledger : Ledger ε} {before after : Cache}

theorem warm_of_move (move : Move ledger before after)
    (holds : ∀ address, address ∈ before.accounts → address ∈ before.warm) :
    ∀ address, address ∈ after.accounts → address ∈ after.warm := by
  have set : ∀ target account address,
      address ∈ (before.setEntry target account).accounts →
        address ∈ (before.setEntry target account).warm := by
    intro target account address member
    have either := InsertionMap.mem_insert.mp member
    exact mem_warm_setEntry.mpr (either.imp_left (holds address))
  cases move with
  | warm target => exact fun address member => InsertionSet.mem_insert.mpr (.inl (holds _ member))
  | touch target => exact set target _
  | act target action => exact set target _
  | emit | record => exact holds

end Cache

namespace Reachable

variable {Admitted : Ledger ε → Prop} {cache : Cache}

theorem warm_of_mem (reachable : Reachable Admitted cache) :
    ∀ address, address ∈ cache.accounts → address ∈ cache.warm := by
  apply reachable.invariant (P := fun cache => ∀ address, address ∈ cache.accounts →
    address ∈ cache.warm)
  · exact fun address member => absurd member List.not_mem_nil
  · exact fun _ _ _ _ move => Cache.warm_of_move move
  · exact fun cache holds => holds
  · intro parent child waiting ended address member
    -- The child brings its warm addresses along with its entries.
    have either := InsertionMap.mem_union.mp member
    exact InsertionSet.mem_union.mpr (either.imp (waiting address) (ended address))

theorem inherited_le (reachable : Reachable Admitted cache) :
    cache.inherited.logs ≤ cache.logs.length ∧
      cache.inherited.transfers ≤ cache.transfers.length := by
  apply reachable.invariant (P := fun cache => cache.inherited.logs ≤ cache.logs.length ∧
    cache.inherited.transfers ≤ cache.transfers.length)
  · exact ⟨Nat.le_refl 0, Nat.le_refl 0⟩
  · -- Logs and transfers only grow, and what was inherited stays what it was.
    rintro ledger before after _ move ⟨logs, transfers⟩
    have grown := Cache.extends_of_move move
    rw [grown.inherited]
    exact ⟨Nat.le_trans logs grown.logs.length_le,
      Nat.le_trans transfers grown.transfers.length_le⟩
  · exact fun cache _ => ⟨Nat.le_refl _, Nat.le_refl _⟩
  · rintro parent child ⟨logs, transfers⟩ _
    simp only [Cache.commit, List.length_append]
    exact ⟨Nat.le_add_right_of_le logs, Nat.le_add_right_of_le transfers⟩

theorem wellFormed_entry (reachable : Reachable Admitted cache) (address : Address) :
    (cache.entry address).WellFormed address := by
  refine reachable.entry_invariant Account.WellFormed.marker ?_ address
  intro ledger address account action _ admissible formed
  exact formed.perform admissible

/-- Every cache that can be reached is well formed, over any ledgers, after any faults and after
commits of caches that have nothing to do with each other. -/
theorem wellFormed (reachable : Reachable Admitted cache) : cache.WellFormed where
  warm := reachable.warm_of_mem
  account address account found := by
    have formed := reachable.wellFormed_entry address
    rwa [Cache.entry, found] at formed
  logs := reachable.inherited_le.1
  transfers := reachable.inherited_le.2

/-- A cache that took over a fresh one which wrote to an account it had created. -/
theorem wellFormed_after_fresh_commit :
    let ledger : Ledger Unit := .empty
    let address := FixedBytes.ofNat 20 1
    let creation : Program := .perform (.create address) (.perform (.writeSlot address 2 9) .done)
    let child := (creation.run ⟨ledger, {}⟩ {}).cache
    let parent := ((Operation.setBalance address 5).perform ⟨ledger, {}⟩ {}).cache
    address ∈ (parent.commit child).warm ∧
      ∃ account, (parent.commit child).account? address = some account ∧
        account.status.created = true ∧ account.status.loaded = true := by
  intro ledger address creation child parent
  have fresh : Reachable (fun _ => True) child :=
    Reachable.new.run ⟨ledger, {}⟩ trivial creation
  have waiting : Reachable (fun _ => True) parent :=
    Reachable.new.perform ⟨ledger, {}⟩ trivial (.setBalance address 5)
  have formed := (waiting.commit fresh).wellFormed
  have listed : address ∈ (parent.commit child).accounts :=
    InsertionMap.mem_union.mpr (.inr List.mem_cons_self)
  obtain ⟨account, found⟩ := Option.isSome_iff_exists.mp (InsertionMap.mem_iff_isSome.mp listed)
  have entry := formed.account address account found
  have created : account.status.created = true := by
    cases found
    rfl
  exact ⟨formed.warm address listed, account, found, created,
    entry.loaded (entry.cached (.inl created))⟩

end Reachable

end Overlay
