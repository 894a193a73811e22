import Mathlib.Algebra.GroupWithZero.Nat
import Mathlib.Data.Finset.Card
import Mathlib.Data.List.Induction
import Overlay.Proofs.Warmth

/-!
What access costs. An access list is paid up front, by entry and key, with every repetition: all
ways to its price come to the exact sum as far as 64 bits show it. Accesses one after another are
each paid by the warmth they find, and yet their total depends only on the start and on which places
they mention: a slot is paid for as cold once, and an address once if its account comes before its
slots.
-/

set_option autoImplicit false

namespace Overlay

variable {ε : Type}

namespace AccessList

def keyCount (list : AccessList) : Nat := (list.map (·.keys.length)).sum

def Countable (list : AccessList) : Prop := list.length < 2 ^ 64 ∧ list.keyCount < 2 ^ 64

theorem keyCount_cons (entry : Entry) (rest : AccessList) :
    keyCount (entry :: rest) = entry.keys.length + rest.keyCount := rfl

theorem keyCount_append (first second : AccessList) :
    keyCount (first ++ second) = first.keyCount + second.keyCount := by
  rw [keyCount, List.map_append, List.sum_append]
  rfl

theorem counts_eq (list : AccessList) :
    list.counts = (UInt64.ofNat list.length, UInt64.ofNat list.keyCount) := by
  induction list using List.reverseRecOn with
  | nil => rfl
  | append_singleton past entry ih =>
    unfold counts at ih ⊢
    rw [List.foldl_append, ih, keyCount_append]
    simp [keyCount, UInt64.ofNat_add]

namespace Countable

variable {list first second : AccessList}

theorem of_append (countable : Countable (first ++ second)) :
    first.Countable ∧ second.Countable := by
  obtain ⟨entries, keys⟩ := countable
  rw [List.length_append] at entries
  rw [keyCount_append] at keys
  exact ⟨⟨by omega, by omega⟩, by omega, by omega⟩

theorem toNat_counts (countable : list.Countable) :
    list.counts.1.toNat = list.length ∧ list.counts.2.toNat = list.keyCount := by
  rw [counts_eq]
  exact ⟨UInt64.toNat_ofNat_of_lt' countable.1, UInt64.toNat_ofNat_of_lt' countable.2⟩

/-- There is room for every entry when its turn comes to be counted. -/
theorem room {past rest : AccessList} {entry : Entry} (countable : list.Countable)
    (reached : list = past ++ entry :: rest) :
    past.counts.1.toNat + 1 < 2 ^ 64 ∧ past.counts.2.toNat + entry.keys.length < 2 ^ 64 := by
  subst reached
  obtain ⟨entries, keys⟩ := countable.of_append.1.toNat_counts
  obtain ⟨allEntries, allKeys⟩ := countable
  rw [List.length_append, List.length_cons] at allEntries
  rw [keyCount_append, keyCount_cons] at allKeys
  omega

end Countable

end AccessList

namespace Gas

theorem toNat_satAdd (first second : UInt64) :
    (satAdd first second).toNat = min (first.toNat + second.toNat) (2 ^ 64 - 1) :=
  toNat_saturate _

theorem toNat_satMul (first second : UInt64) :
    (satMul first second).toNat = min (first.toNat * second.toNat) (2 ^ 64 - 1) :=
  toNat_saturate _

theorem satMul_comm (first second : UInt64) : satMul first second = satMul second first := by
  rw [satMul, satMul, Nat.mul_comm]

theorem berlinAccessListCost_eq (list : AccessList) :
    berlinAccessListCost list = Schedule.berlin.accessListCost list := by
  rw [berlinAccessListCost, satMul_comm, satMul_comm list.counts.2]
  rfl

namespace Schedule

variable (schedule : Schedule)

def exactCost (list : AccessList) : Nat :=
  schedule.accessListAddress.toNat * list.length +
    schedule.accessListStorageKey.toNat * list.keyCount

theorem exactCost_append (first second : AccessList) :
    schedule.exactCost (first ++ second) =
      schedule.exactCost first + schedule.exactCost second := by
  rw [exactCost, List.length_append, AccessList.keyCount_append, Nat.mul_add, Nat.mul_add,
    exactCost, exactCost]
  omega

/-- To saturate at every step on the way is to saturate once at the end. -/
theorem toNat_accessListCost {list : AccessList} (countable : list.Countable) :
    (schedule.accessListCost list).toNat = min (2 ^ 64 - 1) (schedule.exactCost list) := by
  obtain ⟨entries, keys⟩ := countable.toNat_counts
  rw [accessListCost, entriesCost, toNat_satAdd, toNat_satMul, toNat_satMul, entries, keys,
    exactCost]
  omega

theorem accessListCost_append {first second : AccessList}
    (countable : AccessList.Countable (first ++ second)) :
    schedule.accessListCost (first ++ second) =
      satAdd (schedule.accessListCost first) (schedule.accessListCost second) := by
  obtain ⟨ofFirst, ofSecond⟩ := countable.of_append
  apply UInt64.toNat_inj.mp
  rw [toNat_satAdd, toNat_accessListCost _ countable, toNat_accessListCost _ ofFirst,
    toNat_accessListCost _ ofSecond, exactCost_append]
  omega

end Schedule

end Gas

namespace Operation

/-- An access list whose entries and keys can be counted costs their exact sum, or the largest
64-bit number where that is more: so it is charged by the operation that preloads it, from any
cache, and by the schedule alone. The Berlin price is the one of the Berlin schedule, no count
overflows on the way, and two lists together cost the saturated sum of their prices. -/
theorem preload_price (context : Context ε) (cache : Cache) {list : AccessList}
    (countable : list.Countable) :
    let gas := context.config.gas
    ∃ price : UInt64,
      ((preload list).perform context cache).result = .ok (.gas price) ∧
      gas.accessListCost list = price ∧
      price.toNat = min (2 ^ 64 - 1) (gas.accessListAddress.toNat * list.length +
        gas.accessListStorageKey.toNat * list.keyCount) ∧
      Gas.berlinAccessListCost list = Gas.Schedule.berlin.accessListCost list ∧
      (∀ (past : AccessList) entry rest, list = past ++ entry :: rest →
        past.counts.1.toNat + 1 < 2 ^ 64 ∧ past.counts.2.toNat + entry.keys.length < 2 ^ 64) ∧
      ∀ rest, AccessList.Countable (list ++ rest) →
        gas.accessListCost (list ++ rest) = Gas.satAdd price (gas.accessListCost rest) := by
  intro gas
  exact ⟨gas.accessListCost list, rfl, rfl, gas.toNat_accessListCost countable,
    Gas.berlinAccessListCost_eq list, fun _ _ _ => countable.room,
    fun _ => gas.accessListCost_append⟩

/-- Each of the two products fits, but not their sum. -/
theorem preload_price_saturated :
    let key : Hash := FixedBytes.ofNat 32 1
    let list : AccessList := [⟨FixedBytes.ofNat 20 1, [key, key]⟩, ⟨FixedBytes.ofNat 20 1, [key]⟩]
    let each := UInt64.ofNat (2 ^ 62)
    let gas : Gas.Schedule := { accessListAddress := each, accessListStorageKey := each }
    let context : Context Unit := ⟨.empty, { gas }⟩
    list.Countable ∧ ∃ price : UInt64,
      ((preload list).perform context {}).result = .ok (.gas price) ∧
        price.toNat = 2 ^ 64 - 1 := by
  intro key list each gas context
  have countable : list.Countable := ⟨by decide, by decide⟩
  obtain ⟨price, charged, _, exact, _⟩ := preload_price context {} countable
  exact ⟨countable, price, charged, exact.trans (by decide +kernel)⟩

end Operation

namespace Place

def address : Place → Address
  | .account address | .slot address _ => address

def isSlot : Place → Bool
  | .account _ => false
  | .slot _ _ => true

def access : Place → Operation
  | .account address => .accountCost address
  | .slot address key => .storageCost address key

/-- What an access to the place warms: with a slot its address as well, with an account no slot. -/
def warms : Place → List Place
  | .account address => within address []
  | .slot address key => within address [key]

theorem account_mem_warms {place : Place} {address : Address} :
    account address ∈ place.warms ↔ address = place.address := by
  cases place <;> simp [warms, within, Place.address]

theorem mem_warms_of_isSlot {place slot : Place} (isSlot : slot.isSlot = true) :
    slot ∈ place.warms ↔ slot = place := by
  cases slot with
  | account => cases isSlot
  | slot address key => cases place <;> simp [warms, within]

theorem account_address {place : Place} (plain : place.isSlot = false) :
    account place.address = place := by
  cases place with
  | account => rfl
  | slot => cases plain

end Place

namespace Cache

variable (cache : Cache)

def coldSlots (places : List Place) : Finset Place :=
  places.toFinset.filter fun place => place.isSlot = true ∧ cache.isWarmAt place = false

/-- The cold addresses of which the places mention the account before any slot. -/
def coldAccounts (places : List Place) : Finset Address :=
  (places.map Place.address).toFinset.filter fun address =>
    cache.isWarm address = false ∧
      places.find? (fun place => place.address = address) = some (.account address)

private theorem card_eq_card_add {α : Type} [DecidableEq α] {first second : Finset α} {a : α}
    (missing : a ∉ second) (others : ∀ b, b ≠ a → (b ∈ first ↔ b ∈ second)) :
    first.card = second.card + if a ∈ first then 1 else 0 := by
  have erased : first.erase a = second := by
    ext b
    by_cases same : b = a
    · simp [same, missing]
    · simp [same, others]
  rw [← erased]
  split
  · next member => exact (Finset.card_erase_add_one member).symm
  · next absent => rw [Finset.erase_eq_of_notMem absent, Nat.add_zero]

section Cons

variable {cache} {after : Cache} {place : Place}
  (warmed : ∀ other, after.isWarmAt other = true ↔
    cache.isWarmAt other = true ∨ other ∈ place.warms)

include warmed

theorem card_coldSlots_cons (rest : List Place) :
    (cache.coldSlots (place :: rest)).card =
      (after.coldSlots rest).card +
        if place.isSlot = true ∧ cache.isWarmAt place = false then 1 else 0 := by
  have cold : ∀ slot : Place, slot.isSlot = true →
      (after.isWarmAt slot = false ↔ cache.isWarmAt slot = false ∧ slot ≠ place) := by
    intro slot isSlot
    rw [← Bool.not_eq_true, warmed, Place.mem_warms_of_isSlot isSlot, not_or, Bool.not_eq_true]
  have missing : place ∉ after.coldSlots rest := by
    intro member
    obtain ⟨_, isSlot, still⟩ := Finset.mem_filter.mp member
    exact ((cold place isSlot).mp still).2 rfl
  rw [card_eq_card_add missing]
  · simp [coldSlots]
  · intro slot different
    simp only [coldSlots, Finset.mem_filter, List.mem_toFinset, List.mem_cons]
    by_cases isSlot : slot.isSlot = true <;> simp [different, isSlot, cold]

/-- Any access to a cold address takes it away from those that the later ones find cold, but only
one to the account is charged for it. -/
theorem card_coldAccounts_cons (rest : List Place) :
    (cache.coldAccounts (place :: rest)).card =
      (after.coldAccounts rest).card +
        if place.isSlot = false ∧ cache.isWarmAt place = false then 1 else 0 := by
  have cold : ∀ address,
      after.isWarm address = false ↔ cache.isWarm address = false ∧ address ≠ place.address := by
    intro address
    have either := warmed (.account address)
    rw [Place.account_mem_warms] at either
    rw [← Bool.not_eq_true, ← Bool.not_eq_true, ← not_or]
    exact not_congr either
  have missing : place.address ∉ after.coldAccounts rest := by
    intro member
    obtain ⟨_, still, _⟩ := Finset.mem_filter.mp member
    exact ((cold _).mp still).2 rfl
  have charged : place.address ∈ cache.coldAccounts (place :: rest) ↔
      place.isSlot = false ∧ cache.isWarmAt place = false := by
    cases place <;> simp [coldAccounts, Place.address, Place.isSlot, isWarmAt]
  rw [card_eq_card_add missing]
  · simp only [charged]
  · intro address different
    simp [coldAccounts, cold, different, different.symm]

end Cons

theorem coldAccounts_of_accounts {places : List Place}
    (accounts : ∀ place ∈ places, place.isSlot = false) :
    cache.coldAccounts places =
      (places.map Place.address).toFinset.filter (cache.isWarm · = false) := by
  apply Finset.filter_congr
  intro address member
  obtain ⟨place, listed, rfl⟩ := List.mem_map.mp (List.mem_toFinset.mp member)
  apply and_iff_left
  have mentioned : (places.find? fun other => other.address = place.address).isSome = true :=
    List.find?_isSome.mpr ⟨place, listed, by simp⟩
  obtain ⟨first, found⟩ := Option.isSome_iff_exists.mp mentioned
  have same : first.address = place.address := by simpa using List.find?_some found
  rw [found, ← same, Place.account_address (accounts first (List.mem_of_find?_eq_some found))]

theorem coldAccounts_of_slots {places : List Place}
    (slots : ∀ place ∈ places, place.isSlot = true) : cache.coldAccounts places = ∅ := by
  apply Finset.filter_eq_empty_iff.mpr
  rintro address _ ⟨_, found⟩
  cases slots _ (List.mem_of_find?_eq_some found)

end Cache

namespace Gas

def Schedule.price (schedule : Schedule) (place : Place) (isCold : Bool) : UInt64 :=
  if place.isSlot then schedule.storageCost isCold else schedule.accountCost isCold

def toll (coldPrice warmPrice : UInt64) (cold accesses : Nat) : Nat :=
  coldPrice.toNat * cold + warmPrice.toNat * (accesses - cold)

section Toll

variable (coldPrice warmPrice : UInt64) (cold accesses : Nat)

theorem toll_cold :
    toll coldPrice warmPrice (cold + 1) (accesses + 1) =
      coldPrice.toNat + toll coldPrice warmPrice cold accesses := by
  rw [toll, toll, Nat.add_sub_add_right, Nat.mul_add_one]
  omega

theorem toll_warm (le : cold ≤ accesses) :
    toll coldPrice warmPrice cold (accesses + 1) =
      warmPrice.toNat + toll coldPrice warmPrice cold accesses := by
  rw [toll, toll, Nat.succ_sub le, Nat.mul_succ]
  omega

end Toll

end Gas

def Reply.price? : Reply → Option UInt64
  | .cost load => some load.data
  | _ => none

def Run.prices (run : Run ε) : List UInt64 :=
  run.performed.filterMap fun performed => performed.step.result.toOption.bind Reply.price?

namespace Program

variable (context : Context ε)

def accesses (places : List Place) : Program := ofList (places.map Place.access)

def charged (places : List Place) (cache : Cache) : Nat :=
  (((accesses places).run context cache).prices.map UInt64.toNat).sum

theorem isWarmAt_access (cache : Cache) (place other : Place) :
    (place.access.perform context cache).cache.isWarmAt other = true ↔
      cache.isWarmAt other = true ∨ other ∈ place.warms := by
  cases place with
  | account address =>
    exact (cache.isWarmAt_warmAddress address other).trans (or_congr_right List.mem_singleton.symm)
  | slot address key => exact cache.isWarmAt_warmSlot address key other

theorem prices_cons (place : Place) (rest : List Place) (cache : Cache) :
    ((accesses (place :: rest)).run context cache).prices =
      context.config.gas.price place (!cache.isWarmAt place) ::
        ((accesses rest).run context (place.access.perform context cache).cache).prices := by
  cases place <;> rfl

theorem length_prices (places : List Place) (cache : Cache) :
    ((accesses places).run context cache).prices.length = places.length := by
  induction places generalizing cache with
  | nil => rfl
  | cons place rest ih => rw [prices_cons, List.length_cons, ih, List.length_cons]

theorem charged_eq_toll (places : List Place) (cache : Cache) :
    let gas := context.config.gas
    let slots := places.countP Place.isSlot
    let accounts := places.countP (!·.isSlot)
    (cache.coldSlots places).card ≤ slots ∧ (cache.coldAccounts places).card ≤ accounts ∧
      charged context places cache =
        Gas.toll gas.coldStorageAccess gas.warmStorageAccess (cache.coldSlots places).card slots +
          Gas.toll gas.coldAccountAccess gas.warmAccountAccess (cache.coldAccounts places).card
            accounts := by
  induction places generalizing cache with
  | nil => exact ⟨Nat.le_refl 0, Nat.le_refl 0, rfl⟩
  | cons place rest ih =>
    obtain ⟨slots, accounts, later⟩ := ih (place.access.perform context cache).cache
    have warmed := isWarmAt_access context cache place
    have first : charged context (place :: rest) cache =
        (context.config.gas.price place (!cache.isWarmAt place)).toNat +
          charged context rest (place.access.perform context cache).cache := by
      rw [charged, prices_cons, List.map_cons, List.sum_cons, charged]
    simp only [first, later, Cache.card_coldSlots_cons warmed, Cache.card_coldAccounts_cons warmed,
      List.countP_cons]
    -- One more access of its kind, which is one more cold one or else a warm one.
    cases isSlot : place.isSlot <;> cases warm : cache.isWarmAt place <;>
      simp [Gas.Schedule.price, Gas.Schedule.storageCost, Gas.Schedule.accountCost, isSlot,
        Gas.toll_cold, Gas.toll_warm, slots, accounts] <;>
      omega

theorem charged_perm {places other : List Place} (perm : places.Perm other)
    (kind : (∀ place ∈ places, place.isSlot = true) ∨ ∀ place ∈ places, place.isSlot = false)
    (cache : Cache) : charged context places cache = charged context other cache := by
  have slots : cache.coldSlots places = cache.coldSlots other := by
    rw [Cache.coldSlots, List.toFinset_eq_of_perm _ _ perm, Cache.coldSlots]
  have accounts : cache.coldAccounts places = cache.coldAccounts other := by
    rcases kind with slots | accounts
    · have slots' : ∀ place ∈ other, place.isSlot = true :=
        fun place member => slots place (perm.mem_iff.mpr member)
      rw [cache.coldAccounts_of_slots slots, cache.coldAccounts_of_slots slots']
    · have accounts' : ∀ place ∈ other, place.isSlot = false :=
        fun place member => accounts place (perm.mem_iff.mpr member)
      rw [cache.coldAccounts_of_accounts accounts, cache.coldAccounts_of_accounts accounts',
        List.toFinset_eq_of_perm _ _ (perm.map Place.address)]
  obtain ⟨_, _, total⟩ := charged_eq_toll context places cache
  obtain ⟨_, _, total'⟩ := charged_eq_toll context other cache
  rw [total, total', slots, accounts, perm.countP_eq, perm.countP_eq]

/-- The total price of accesses to accounts and slots, each of which is charged for. Every slot that
is cold at the start is paid for as cold once, and so is every cold address if its account is
mentioned before any of its slots; all other accesses are warm. Accesses of one kind cost the same
in any order. -/
theorem charged_eq (places : List Place) (cache : Cache) :
    let gas := context.config.gas
    let slots := places.countP Place.isSlot
    let accounts := places.countP (!·.isSlot)
    let coldSlots := (cache.coldSlots places).card
    let coldAccounts := (cache.coldAccounts places).card
    ((accesses places).run context cache).prices.length = places.length ∧
    coldSlots ≤ slots ∧ coldAccounts ≤ accounts ∧
    charged context places cache =
      gas.coldStorageAccess.toNat * coldSlots +
        gas.warmStorageAccess.toNat * (slots - coldSlots) +
        gas.coldAccountAccess.toNat * coldAccounts +
        gas.warmAccountAccess.toNat * (accounts - coldAccounts) ∧
    ∀ other, places.Perm other →
      ((∀ place ∈ places, place.isSlot = true) ∨ ∀ place ∈ places, place.isSlot = false) →
      charged context places cache = charged context other cache := by
  intro gas slots accounts coldSlots coldAccounts
  obtain ⟨cheaper, cheaper', total⟩ := charged_eq_toll context places cache
  refine ⟨length_prices context places cache, cheaper, cheaper', ?_,
    fun other perm kind => charged_perm context perm kind cache⟩
  rw [total, Gas.toll, Gas.toll, ← Nat.add_assoc]

/-- Of accesses of both kinds the order counts: a slot warms its address, an account no slot. -/
example :
    let context : Context Unit := ⟨.empty, {}⟩
    let address := FixedBytes.ofNat 20 1
    charged context [.slot address 1, .account address] {} = 2100 + 100 ∧
      charged context [.account address, .slot address 1] {} = 2600 + 2100 := by
  decide

end Program

end Overlay
