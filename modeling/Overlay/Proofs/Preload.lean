import Mathlib.Data.List.Forall2
import Overlay.Proofs.Effect
import Overlay.Proofs.Listing

/-!
What preloading an access list comes to, whatever was done to its accounts and slots before: the
listed addresses and slots are warm and the slots are marked, nothing is fetched and no value
changes. The order of the entries and of their keys, and repetitions among them, matter only to the
order of the addresses that are new.
-/

set_option autoImplicit false

namespace Overlay

variable {ε : Type}

namespace AccessList

def addresses (list : AccessList) : List Address := list.map (·.address)

def Declares (list : AccessList) (address : Address) (key : Word) : Prop :=
  ∃ entry ∈ list, entry.address = address ∧ ∃ hash ∈ entry.keys, hash.toNat = key.toNat

instance (list : AccessList) (address : Address) (key : Word) :
    Decidable (list.Declares address key) :=
  inferInstanceAs (Decidable (∃ entry ∈ list, _))

def Rearranges (list other : AccessList) : Prop :=
  ∃ entries, list.Perm entries ∧
    List.Forall₂ (fun entry entry' => entry.address = entry'.address ∧ entry.keys.Perm entry'.keys)
      entries other

theorem declares_cons (entry : Entry) (rest : AccessList) (address : Address) (key : Word) :
    Declares (entry :: rest) address key ↔
      Declares [entry] address key ∨ rest.Declares address key := by
  simp [Declares, or_and_right, exists_or]

namespace Rearranges

variable {list other : AccessList} (rearranges : list.Rearranges other)

include rearranges

theorem mem_addresses (address : Address) :
    address ∈ list.addresses ↔ address ∈ other.addresses := by
  obtain ⟨entries, perm, alike⟩ := rearranges
  have same : entries.map (·.address) = other.map (·.address) := by
    rw [← List.forall₂_eq_eq_eq, List.forall₂_map_left_iff, List.forall₂_map_right_iff]
    exact alike.imp fun _ _ => And.left
  rw [addresses, addresses, ← same]
  exact (perm.map _).mem_iff

theorem declares (address : Address) (key : Word) :
    list.Declares address key ↔ other.Declares address key := by
  obtain ⟨entries, perm, alike⟩ := rearranges
  have moved : list.Declares address key ↔ Declares entries address key :=
    exists_congr fun entry => and_congr_left fun _ => perm.mem_iff
  rw [moved]
  clear moved perm
  induction alike with
  | nil => exact Iff.rfl
  | @cons entry entry' rest rest' same _ ih =>
    have first : Declares [entry] address key ↔ Declares [entry'] address key := by
      simp [Declares, same.1, same.2.mem_iff]
    exact (declares_cons ..).trans ((or_congr first ih).trans (declares_cons ..).symm)

end Rearranges

end AccessList

namespace Slot

/-- What is cached of a slot once it is declared: its value, if there is one, and its other marks
are those from before. -/
def declared (slot : Option Slot) : Slot :=
  let slot := slot.getD {}
  { slot with access := { slot.access with preloaded := true } }

theorem declared_or {first later both : Prop} [Decidable first] [Decidable later] [Decidable both]
    (either : both ↔ first ∨ later) {slot : Option Slot} :
    (if later then some (declared (if first then some (declared slot) else slot))
      else if first then some (declared slot) else slot) =
      if both then some (declared slot) else slot := by
  by_cases early : first <;> by_cases late : later <;> simp [either, early, late, declared]

end Slot

theorem Account.slot?_foldl_preloadSlot (account : Account) (keys : List Hash) (key : Word) :
    (keys.foldl (fun account hash => account.preloadSlot (Word.ofHash hash)) account).slot? key =
      if ∃ hash ∈ keys, hash.toNat = key.toNat then some (Slot.declared (account.slot? key))
      else account.slot? key := by
  induction keys generalizing account with
  | nil => simp
  | cons hash rest ih =>
    have first : (account.preloadSlot (Word.ofHash hash)).slot? key =
        if hash.toNat = key.toNat then some (Slot.declared (account.slot? key))
        else account.slot? key := by
      have hit : Word.ofHash hash = key ↔ hash.toNat = key.toNat := by
        rw [← BitVec.toNat_inj, Word.toNat_ofHash]
      rw [preloadSlot_eq_editSlot, slot?_editSlot]
      simp only [hit]
      split
      · next same => rw [hit.mpr same]; rfl
      · rfl
    rw [List.foldl_cons, ih, first]
    exact Slot.declared_or (by simp)

namespace Cache

/-- All that preloading the list does to a cache. -/
structure Preloads (list : AccessList) (before after : Cache) : Prop where
  keys : after.accounts.keys =
    before.accounts.keys ++ (list.addresses.filter (· ∉ before.accounts.keys)).eraseDups
  warm : after.warm.toList =
    before.warm.toList ++ (list.addresses.filter (· ∉ before.warm.toList)).eraseDups
  others : ∀ address, address ∉ list.addresses → after.account? address = before.account? address
  owner : ∀ address, (after.entry address).address = (before.entry address).address
  info : ∀ address, (after.entry address).info = (before.entry address).info
  status : ∀ address, (after.entry address).status = (before.entry address).status
  declared : ∀ address key, list.Declares address key →
    (after.entry address).slot? key = some (Slot.declared ((before.entry address).slot? key))
  undeclared : ∀ address key, ¬ list.Declares address key →
    (after.entry address).slot? key = (before.entry address).slot? key
  logs : after.logs = before.logs
  transfers : after.transfers = before.transfers
  inherited : after.inherited = before.inherited

section Preloading

variable (cache : Cache)

theorem warm_preload (list : AccessList) :
    (cache.preload list).warm = list.addresses.foldl InsertionSet.insert cache.warm := by
  induction list generalizing cache with
  | nil => rfl
  | cons entry rest ih => exact ih (cache.preloadEntry entry)

theorem entry_preload {α : Type} (part : Account → α)
    (kept : ∀ account key edit, part (account.editSlot key edit) = part account)
    (list : AccessList) (address : Address) :
    part ((cache.preload list).entry address) = part (cache.entry address) := by
  let P (after : Cache) := part (after.entry address) = part (cache.entry address)
  have touched : ∀ after other, P after → P (after.touch other) := by
    intro after other same
    exact (congrArg part (after.entry_touch other address)).trans same
  have declared : ∀ after other key, P after →
      P (after.setEntry other ((after.entry other).preloadSlot key)) := by
    intro after other key same
    show part _ = _
    rw [entry_setEntry]
    split
    · next hit => rw [Account.preloadSlot_eq_editSlot, kept, hit, same]
    · exact same
  exact preload_invariant touched declared cache list rfl

theorem slot?_preload (list : AccessList) (address : Address) (key : Word) :
    ((cache.preload list).entry address).slot? key =
      if list.Declares address key then some (Slot.declared ((cache.entry address).slot? key))
      else (cache.entry address).slot? key := by
  induction list generalizing cache with
  | nil => rfl
  | cons entry rest ih =>
    have first : ((cache.preloadEntry entry).entry address).slot? key =
        if AccessList.Declares [entry] address key then
          some (Slot.declared ((cache.entry address).slot? key))
        else (cache.entry address).slot? key := by
      rw [preloadEntry, entry_setEntry]
      by_cases hit : entry.address = address
      · subst hit
        rw [if_pos rfl, Account.slot?_foldl_preloadSlot]
        simp [AccessList.Declares]
      · simp [AccessList.Declares, hit]
    refine (ih (cache.preloadEntry entry)).trans ?_
    rw [first]
    exact Slot.declared_or (AccessList.declares_cons entry rest address key)

theorem preloads_preload (list : AccessList) : cache.Preloads list (cache.preload list) where
  keys := by
    have order := congrArg InsertionSet.toList (cache.listed_preload list)
    exact order.trans (InsertionSet.toList_foldl_insert list.addresses cache.listed)
  warm := by
    rw [warm_preload]
    exact InsertionSet.toList_foldl_insert list.addresses cache.warm
  others address unlisted := by
    induction list generalizing cache with
    | nil => rfl
    | cons entry rest ih =>
      have different : address ≠ entry.address := List.ne_of_not_mem_cons unlisted
      refine (ih (cache.preloadEntry entry) (List.not_mem_of_not_mem_cons unlisted)).trans ?_
      rw [preloadEntry, account?_setEntry, if_neg different.symm]
  owner := cache.entry_preload Account.address Account.address_editSlot list
  info := cache.entry_preload Account.info Account.info_editSlot list
  status := cache.entry_preload Account.status Account.status_editSlot list
  declared address key declares := by rw [slot?_preload, if_pos declares]
  undeclared address key absent := by rw [slot?_preload, if_neg absent]
  logs := preload_invariant (P := fun after => after.logs = cache.logs) (fun _ _ => id)
    (fun _ _ _ => id) cache list rfl
  transfers := preload_invariant (P := fun after => after.transfers = cache.transfers)
    (fun _ _ => id) (fun _ _ _ => id) cache list rfl
  inherited := preload_invariant (P := fun after => after.inherited = cache.inherited)
    (fun _ _ => id) (fun _ _ _ => id) cache list rfl

end Preloading

theorem account?_congr {first second : Cache} {address : Address}
    (keys : address ∈ first.accounts ↔ address ∈ second.accounts)
    (entry : first.entry address = second.entry address) :
    first.account? address = second.account? address := by
  rw [InsertionMap.mem_iff_isSome, InsertionMap.mem_iff_isSome] at keys
  change (first.account? address).isSome = true ↔ (second.account? address).isSome = true at keys
  simp only [Cache.entry] at entry
  cases cached : first.account? address <;> cases cached' : second.account? address <;> simp_all

theorem mem_append_fresh {old listed : List Address} {address : Address} :
    address ∈ old ++ (listed.filter (· ∉ old)).eraseDups ↔ address ∈ old ∨ address ∈ listed := by
  rw [List.mem_append, List.mem_eraseDups, List.mem_filter, decide_eq_true_iff]
  tauto

namespace Preloads

variable {list other : AccessList} {before after left right : Cache}

theorem mem_accounts (preloads : before.Preloads list after) {address : Address} :
    address ∈ after.accounts ↔ address ∈ before.accounts ∨ address ∈ list.addresses := by
  show address ∈ after.accounts.keys ↔ _
  rw [preloads.keys, mem_append_fresh]
  rfl

theorem mem_warm (preloads : before.Preloads list after) {address : Address} :
    address ∈ after.warm ↔ address ∈ before.warm ∨ address ∈ list.addresses := by
  show address ∈ after.warm.toList ↔ _
  rw [preloads.warm, mem_append_fresh]
  rfl

/-- Only which addresses and slots the list declares counts for what is cached. -/
theorem entry_eq (preloads : before.Preloads list left) (preloads' : before.Preloads other right)
    (same : ∀ address key, list.Declares address key ↔ other.Declares address key)
    (address : Address) : left.entry address = right.entry address := by
  apply Account.ext_slot?
  · rw [preloads.owner, preloads'.owner]
  · rw [preloads.info, preloads'.info]
  · rw [preloads.status, preloads'.status]
  · intro key
    by_cases declares : list.Declares address key
    · rw [preloads.declared _ _ declares, preloads'.declared _ _ ((same _ _).mp declares)]
    · rw [preloads.undeclared _ _ declares, preloads'.undeclared _ _ (mt (same _ _).mpr declares)]

theorem equiv (preloads : before.Preloads list left) (preloads' : before.Preloads other right)
    (rearranges : list.Rearranges other) : left.Equiv right where
  accounts address := by
    refine account?_congr ?_ (preloads.entry_eq preloads' rearranges.declares address)
    rw [preloads.mem_accounts, preloads'.mem_accounts, rearranges.mem_addresses]
  warm address := by rw [preloads.mem_warm, preloads'.mem_warm, rearranges.mem_addresses]
  logs := preloads.logs.trans preloads'.logs.symm
  transfers := preloads.transfers.trans preloads'.transfers.symm
  inherited := preloads.inherited.trans preloads'.inherited.symm

theorem entry_again (preloads : before.Preloads list left) (again : left.Preloads list right)
    (address : Address) : right.entry address = left.entry address := by
  apply Account.ext_slot? (again.owner address) (again.info address) (again.status address)
  intro key
  by_cases declares : list.Declares address key
  · rw [again.declared _ _ declares, preloads.declared _ _ declares]
    rfl
  · exact again.undeclared _ _ declares

theorem fresh_eq_nil {old : List Address} (present : ∀ address ∈ list.addresses, address ∈ old) :
    old ++ (list.addresses.filter (· ∉ old)).eraseDups = old := by
  have none_fresh : list.addresses.filter (· ∉ old) = [] :=
    List.filter_eq_nil_iff.mpr fun address member => by simpa using present address member
  rw [none_fresh, List.eraseDups_nil, List.append_nil]

theorem again_eq (preloads : before.Preloads list left) (again : left.Preloads list right) :
    right = left := by
  have keys : right.accounts.keys = left.accounts.keys :=
    again.keys.trans (fresh_eq_nil fun _ member => preloads.mem_accounts.mpr (.inr member))
  have warm : right.warm.toList = left.warm.toList :=
    again.warm.trans (fresh_eq_nil fun _ member => preloads.mem_warm.mpr (.inr member))
  -- The order of the keys is the same, so the maps are equal and not only equivalent.
  have accounts : right.accounts = left.accounts := by
    refine InsertionMap.ext_get? keys fun address => ?_
    refine account?_congr ?_ (preloads.entry_again again address)
    show address ∈ right.accounts.keys ↔ address ∈ left.accounts.keys
    rw [keys]
  calc
    right = ⟨right.accounts, right.warm, right.logs, right.transfers, right.inherited⟩ := rfl
    _ = left := by
      rw [accounts, InsertionSet.ext_toList warm, again.logs, again.transfers, again.inherited]

end Preloads

end Cache

namespace Operation

/-- Preloading a list asks the ledger nothing and does what the list says, once however often it is
preloaded, and up to the order of what is new it does so for the list in any arrangement. Different
keys of the list are different slots. -/
theorem preload_exact (context : Context ε) (cache : Cache) (list : AccessList) :
    let step := (Operation.preload list).perform context cache
    step.queries = [] ∧ cache.Preloads list step.cache ∧ Function.Injective Word.ofHash ∧
      ((Operation.preload list).perform context step.cache).cache = step.cache ∧
      ∀ other, list.Rearranges other →
        step.cache.Equiv ((Operation.preload other).perform context cache).cache := by
  have preloads := cache.preloads_preload list
  refine ⟨rfl, preloads, fun _ _ => Word.ofHash_injective, ?_, fun other rearranges => ?_⟩
  · exact preloads.again_eq (Cache.preloads_preload _ list)
  · exact preloads.equiv (cache.preloads_preload other) rearranges

end Operation

end Overlay
