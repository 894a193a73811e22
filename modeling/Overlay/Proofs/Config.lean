import Overlay.Operation
import Overlay.Proofs.Precompile

/-!
Configurations by how they were built, and what they warm. However the settings are ordered and
repeated, the precompiles are those of the hardfork that was chosen last, and then the other
addresses that were added, in the order in which each was added first. A cache gets entries for the
ones that it has none for, in this order, and warms them.
-/

set_option autoImplicit false

namespace Overlay

variable {ε : Type}

private theorem filter_unlisted (addresses : List Address) :
    addresses.filter (· ∉ ([] : List Address)) = addresses :=
  List.filter_eq_self.mpr fun _ _ => decide_eq_true List.not_mem_nil

def Hardfork.precompileSet (fork : Hardfork) : InsertionSet Address where
  toList := fork.precompiles
  nodup := fork.nodup_precompiles

namespace Config

inductive Setting where
  | gas (gas : Gas.Schedule)
  | hardfork (hardfork : Hardfork)
  | extraPrecompile (address : Address)
  deriving DecidableEq

namespace Setting

def apply (config : Config) : Setting → Config
  | gas prices => config.withGas prices
  | hardfork fork => config.withHardfork fork
  | extraPrecompile address => config.withExtraPrecompile address

def hardfork? : Setting → Option Hardfork
  | hardfork fork => some fork
  | _ => none

def address? : Setting → Option Address
  | extraPrecompile address => some address
  | _ => none

end Setting

def build (settings : List Setting) : Config :=
  settings.foldl Setting.apply {}

def chosen (settings : List Setting) : Hardfork :=
  (settings.reverse.findSome? Setting.hardfork?).getD .latest

def added (settings : List Setting) : List Address :=
  settings.filterMap Setting.address?

theorem hardfork_foldl (settings : List Setting) (config : Config) :
    (settings.foldl Setting.apply config).hardfork =
      (settings.reverse.findSome? Setting.hardfork?).getD config.hardfork := by
  induction settings generalizing config with
  | nil => rfl
  | cons setting rest ih =>
    rw [List.foldl_cons, ih, getD_findSome?_reverse_cons]
    congr 1
    cases setting with
    | gas | hardfork => rfl
    | extraPrecompile address =>
      show (config.withExtraPrecompile address).hardfork = config.hardfork
      unfold withExtraPrecompile
      split <;> rfl

/-- The extra precompiles are a set in the order of insertion, though they are kept as a list. -/
theorem extraPrecompiles_foldl (settings : List Setting) {config : Config}
    {extra : InsertionSet Address} (kept : config.extraPrecompiles = extra.toList) :
    (settings.foldl Setting.apply config).extraPrecompiles =
      ((added settings).foldl InsertionSet.insert extra).toList := by
  induction settings generalizing config extra with
  | nil => exact kept
  | cons setting rest ih =>
    cases setting with
    | gas | hardfork => exact ih kept
    | extraPrecompile address =>
      apply ih
      show (config.withExtraPrecompile address).extraPrecompiles = (extra.insert address).toList
      rw [InsertionSet.toList_insert, withExtraPrecompile, kept]
      by_cases present : address ∈ extra
      · rw [if_pos present, if_pos (show address ∈ extra.toList from present), kept]
      · rw [if_neg present, if_neg (show address ∉ extra.toList from present)]

def warmed (settings : List Setting) : InsertionSet Address :=
  (chosen settings).precompileSet.union (.ofList (added settings))

theorem precompiles_build (settings : List Setting) :
    (build settings).precompiles = (warmed settings).toList := by
  have extra : (build settings).extraPrecompiles = (InsertionSet.ofList (added settings)).toList :=
    extraPrecompiles_foldl settings rfl
  have fork : (build settings).hardfork = chosen settings := hardfork_foldl settings {}
  rw [precompiles, extra, fork, warmed, InsertionSet.toList_union]
  rfl

theorem toList_ofList_added (settings : List Setting) :
    (InsertionSet.ofList (added settings)).toList = (added settings).eraseDups := by
  have all : (added settings).filter (· ∉ (∅ : InsertionSet Address).toList) = added settings :=
    filter_unlisted _
  rw [InsertionSet.ofList, InsertionSet.toList_foldl_insert, all]
  rfl

theorem mem_precompiles_build (settings : List Setting) (address : Address) :
    address ∈ (build settings).precompiles ↔
      (chosen settings).isPrecompile address = true ∨ address ∈ added settings := by
  rw [precompiles_build, Hardfork.isPrecompile_iff, ← Hardfork.mem_precompiles_iff]
  refine InsertionSet.mem_union.trans (or_congr Iff.rfl ?_)
  show address ∈ (InsertionSet.ofList (added settings)).toList ↔ _
  rw [toList_ofList_added, List.mem_eraseDups]

end Config

namespace Cache

theorem entries_touch (cache : Cache) (address : Address) :
    (cache.touch address).accounts.entries =
      if address ∈ cache.accounts then cache.accounts.entries
      else cache.accounts.entries ++ [(address, .marker address)] := by
  show InsertionMap.put address (cache.entry address) cache.accounts.entries = _
  split
  · next present =>
    obtain ⟨account, found⟩ := Option.isSome_iff_exists.mp (InsertionMap.mem_iff_isSome.mp present)
    have held : cache.entry address = account := congrArg (Option.getD · _) found
    rw [held, InsertionMap.put_of_find? found]
  · next missing =>
    have held : cache.entry address = .marker address :=
      congrArg (Option.getD · _) (InsertionMap.get?_eq_none_iff.mpr missing)
    rw [held, InsertionMap.put_of_not_mem _ missing]

theorem entries_preloadAddresses (cache : Cache) {addresses : List Address}
    (distinct : addresses.Nodup) :
    (cache.preloadAddresses addresses).accounts.entries =
      cache.accounts.entries ++ (addresses.filter (· ∉ cache.accounts)).map fun address =>
        (address, .marker address) := by
  induction addresses generalizing cache with
  | nil => simp [preloadAddresses]
  | cons address rest ih =>
    obtain ⟨unlisted, distinct⟩ := List.nodup_cons.mp distinct
    -- The first address makes no difference to which of the others are new.
    have fresh : rest.filter (· ∉ (cache.touch address).accounts) =
        rest.filter (· ∉ cache.accounts) := by
      apply List.filter_congr
      intro other member
      have different : other ≠ address := fun same => unlisted (same ▸ member)
      have same : other ∈ (cache.touch address).accounts ↔ other ∈ cache.accounts :=
        InsertionMap.mem_insert.trans (or_iff_left different)
      simp only [same]
    refine (ih (cache.touch address) distinct).trans ?_
    rw [fresh, entries_touch]
    by_cases present : address ∈ cache.accounts
    · rw [if_pos present, List.filter_cons_of_neg (by simpa using present)]
    · rw [if_neg present, List.filter_cons_of_pos (by simpa using present), List.map_cons,
        List.append_assoc, List.singleton_append]

theorem preloadAddresses_eq (cache : Cache) (addresses : List Address) :
    cache.preloadAddresses addresses =
      { cache with
        accounts := (cache.preloadAddresses addresses).accounts
        warm := (cache.preloadAddresses addresses).warm } := by
  induction addresses generalizing cache with
  | nil => rfl
  | cons address rest ih => exact ih (cache.touch address)

theorem warm_preloadAddresses (cache : Cache) (addresses : List Address) :
    (cache.preloadAddresses addresses).warm = addresses.foldl InsertionSet.insert cache.warm := by
  induction addresses generalizing cache with
  | nil => rfl
  | cons address rest ih => exact ih (cache.touch address)

end Cache

/-- The precompiles of a configuration, however it was built: no address twice, those of the chosen
hardfork in ascending order and then the added ones that are not among them, in the order in which
they came first. A cache is extended by these, in this order, where it lacks them: by markers in its
entries, and in its warm addresses. All that it had stays as it is. -/
theorem Operation.preloadPrecompiles_exact (settings : List Config.Setting) (ledger : Ledger ε)
    (cache : Cache) :
    let config := Config.build settings
    let canonical := (Config.chosen settings).precompiles
    let listed := config.precompiles
    let after := (preloadPrecompiles.perform ⟨ledger, config⟩ cache).cache
    let fresh := (preloadPrecompiles.perform ⟨ledger, config⟩ {}).cache
    listed.Nodup ∧
    listed = canonical ++ (Config.added settings).eraseDups.filter (· ∉ canonical) ∧
    canonical.Pairwise (fun first second => compare first second = .lt) ∧
    (∀ address, address ∈ listed ↔
      (Config.chosen settings).isPrecompile address = true ∨ address ∈ Config.added settings) ∧
    after.accounts.entries = cache.accounts.entries ++
      (listed.filter (· ∉ cache.accounts)).map (fun address => (address, .marker address)) ∧
    after.warm.toList = cache.warm.toList ++ listed.filter (· ∉ cache.warm) ∧
    after = { cache with accounts := after.accounts, warm := after.warm } ∧
    fresh.accounts.keys = listed ∧ fresh.warm.toList = listed := by
  intro config canonical listed after fresh
  have order : listed = (Config.warmed settings).toList := Config.precompiles_build settings
  have distinct : listed.Nodup := order ▸ (Config.warmed settings).nodup
  have entries (cache : Cache) := cache.entries_preloadAddresses distinct
  have warm (cache : Cache) : (cache.preloadAddresses listed).warm.toList =
      cache.warm.toList ++ listed.filter (· ∉ cache.warm) := by
    rw [cache.warm_preloadAddresses, order]
    exact cache.warm.toList_union (Config.warmed settings)
  refine ⟨distinct, ?_, Hardfork.pairwise_precompiles _, Config.mem_precompiles_build settings,
    entries cache, warm cache, ?_, ?_, ?_⟩
  · rw [order, Config.warmed, InsertionSet.toList_union, Config.toList_ofList_added]
    rfl
  · exact cache.preloadAddresses_eq listed
  · have markers : (Cache.preloadAddresses {} listed).accounts.entries =
        (listed.filter (· ∉ ([] : List Address))).map fun address => (address, .marker address) :=
      entries {}
    show (Cache.preloadAddresses {} listed).accounts.entries.map Prod.fst = listed
    rw [markers, filter_unlisted, List.map_map]
    exact List.map_id listed
  · exact (warm {}).trans (filter_unlisted listed)

end Overlay
