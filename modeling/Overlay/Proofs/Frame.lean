import Overlay.Frame
import Overlay.Proofs.Move

/-!
Frames are transparent: a program leaves what its operations in force leave when they run one after
another on the cache itself, and each of them answers the same. Two facts carry this. No operation
looks at what the cache inherited, and every operation only goes on where the cache stopped, so a
commit takes the child over as it is.
-/

set_option autoImplicit false

namespace Overlay

variable {ε α β : Type}

namespace Cache

def inheriting (cache : Cache) (extent : Extent) : Cache :=
  { cache with inherited := extent }

end Cache

namespace Step

def inheriting (step : Step ε α) (extent : Extent) : Step ε α :=
  { step with cache := step.cache.inheriting extent }

theorem andThen_inheriting (first : Step ε α) (next : α → Cache → Step ε β) (extent : Extent)
    (blind : ∀ value cache, next value (cache.inheriting extent) =
      (next value cache).inheriting extent) :
    (first.inheriting extent).andThen next = (first.andThen next).inheriting extent := by
  obtain ⟨result, cache, queries⟩ := first
  cases result with
  | error fault => rfl
  | ok value => simp only [andThen, inheriting, blind]

end Step

namespace Cache

section Blind

variable (ledger : Ledger ε) (cache : Cache) (address : Address) (extent : Extent)

theorem entry_inheriting : (cache.inheriting extent).entry address = cache.entry address := rfl

theorem load_inheriting :
    (cache.inheriting extent).load ledger address =
      (cache.load ledger address).inheriting extent := by
  unfold load
  rw [entry_inheriting]
  by_cases loaded : (cache.entry address).status.loaded = true
  · simp only [if_pos loaded]
    rfl
  · simp only [if_neg loaded]
    change Step.andThen (Step.inheriting (.ask address (ledger.account address) cache) extent) _ = _
    apply Step.andThen_inheriting
    intro info after
    rfl

theorem isAccountAlive_inheriting :
    (cache.inheriting extent).isAccountAlive ledger address =
      (cache.isAccountAlive ledger address).inheriting extent := by
  unfold isAccountAlive
  rw [entry_inheriting]
  by_cases loaded : (cache.entry address).status.loaded = true
  · simp only [if_pos loaded]
    rfl
  · simp only [if_neg loaded]
    rfl

theorem readSlot_inheriting (key : Word) :
    (cache.inheriting extent).readSlot ledger address key =
      (cache.readSlot ledger address key).inheriting extent := by
  unfold readSlot
  rw [entry_inheriting]
  generalize cache.entry address = account
  cases known : account.readKnown? key with
  | some read =>
    simp only [known]
    rfl
  | none =>
    by_cases created : account.status.created = true
    · simp only [known, if_pos created]
      rfl
    · simp only [known, if_neg created]
      change Step.andThen (Step.inheriting
        (.ask address (ledger.storage address key) (cache.touch address)) extent) _ = _
      apply Step.andThen_inheriting
      intro value after
      rfl

theorem change_inheriting (attempt : Account → Except (Fault ε) (α × Account)) :
    (cache.inheriting extent).change ledger address attempt =
      (cache.change ledger address attempt).inheriting extent := by
  unfold change
  rw [load_inheriting]
  apply Step.andThen_inheriting
  intro load cache
  cases attempt load.data <;> rfl

theorem transfer_inheriting (sender recipient : Address) (value : Word) :
    (cache.inheriting extent).transfer ledger sender recipient value =
      (cache.transfer ledger sender recipient value).inheriting extent := by
  unfold transfer
  rw [load_inheriting]
  apply Step.andThen_inheriting
  intro payer cache
  rw [load_inheriting]
  apply Step.andThen_inheriting
  intro payee cache
  cases payer.data.info.balance.checkedSub value with
  | none => rfl
  | some remaining =>
    dsimp only
    split
    · rfl
    · cases payee.data.info.balance.checkedAdd value <;> rfl

theorem preloadAddresses_inheriting (addresses : List Address) :
    (cache.inheriting extent).preloadAddresses addresses =
      (cache.preloadAddresses addresses).inheriting extent := by
  induction addresses generalizing cache with
  | nil => rfl
  | cons address rest ih => exact ih (cache.touch address)

theorem preload_inheriting (list : AccessList) :
    (cache.inheriting extent).preload list = (cache.preload list).inheriting extent := by
  induction list generalizing cache with
  | nil => rfl
  | cons entry rest ih => exact ih (cache.preloadEntry entry)

end Blind

end Cache

/-- No operation looks at what the cache inherited. -/
theorem Operation.perform_inheriting (context : Context ε) (cache : Cache) (extent : Extent)
    (operation : Operation) :
    operation.perform context (cache.inheriting extent) =
      (operation.perform context cache).inheriting extent := by
  cases operation with
  | isAccountAlive address =>
    exact congrArg (Step.map _) (cache.isAccountAlive_inheriting context.ledger address extent)
  | load address =>
    exact congrArg (Step.map _) (cache.load_inheriting context.ledger address extent)
  | readSlot address key =>
    exact congrArg (Step.map _) (cache.readSlot_inheriting context.ledger address extent key)
  | writeSlot | setBalance | setNonce | incNonce | setCode | create | selfDestruct =>
    exact congrArg (Step.map _) (cache.change_inheriting context.ledger _ extent _)
  | transfer sender recipient value =>
    exact congrArg (Step.map _)
      (cache.transfer_inheriting context.ledger extent sender recipient value)
  | emit | warmAddress | warmSlot | accountCost | storageCost => rfl
  | preload list => exact congrArg (Step.done _) (cache.preload_inheriting extent list)
  | preloadPrecompiles =>
    exact congrArg (Step.done _) (cache.preloadAddresses_inheriting extent _)

namespace Cache

/-- Nothing that was there is lost or reordered, and what is new comes behind it. -/
structure Extends (before after : Cache) : Prop where
  accounts : before.accounts.keys <+: after.accounts.keys
  warm : before.warm.toList <+: after.warm.toList
  logs : before.logs <+: after.logs
  transfers : before.transfers <+: after.transfers
  inherited : after.inherited = before.inherited

theorem Extends.refl (cache : Cache) : cache.Extends cache :=
  ⟨List.prefix_rfl, List.prefix_rfl, List.prefix_rfl, List.prefix_rfl, rfl⟩

theorem Extends.trans {first second third : Cache} (earlier : first.Extends second)
    (later : second.Extends third) : first.Extends third where
  accounts := earlier.accounts.trans later.accounts
  warm := earlier.warm.trans later.warm
  logs := earlier.logs.trans later.logs
  transfers := earlier.transfers.trans later.transfers
  inherited := later.inherited.trans earlier.inherited

theorem extends_warmAddress (cache : Cache) (address : Address) :
    cache.Extends (cache.warmAddress address) := by
  refine { Extends.refl cache with warm := ?_ }
  show _ <+: (cache.warm.insert address).toList
  rw [InsertionSet.toList_insert]
  split
  · exact List.prefix_rfl
  · exact List.prefix_append _ _

theorem extends_setEntry (cache : Cache) (address : Address) (account : Account) :
    cache.Extends (cache.setEntry address account) := by
  refine { cache.extends_warmAddress address with accounts := ?_ }
  show _ <+: (cache.accounts.insert address account).keys
  rw [InsertionMap.keys_insert]
  split
  · exact List.prefix_rfl
  · exact List.prefix_append _ _

theorem extends_of_move {ledger : Ledger ε} {before after : Cache}
    (move : Move ledger before after) : before.Extends after := by
  cases move with
  | warm address => exact before.extends_warmAddress address
  | touch address => exact before.extends_setEntry address _
  | act address action => exact before.extends_setEntry address _
  | emit log => exact { Extends.refl before with logs := List.prefix_append _ _ }
  | record transfer => exact { Extends.refl before with transfers := List.prefix_append _ _ }

theorem extends_perform (context : Context ε) (cache : Cache) (operation : Operation) :
    cache.Extends (operation.perform context cache).cache :=
  (operation.moves_perform context cache).invariant
    (fun _ _ move grown => grown.trans (extends_of_move move)) (Extends.refl cache)

/-- A child that only went on where its parent stopped becomes the parent. -/
theorem commit_inheriting {parent child : Cache} (grown : parent.Extends child) :
    parent.commit (child.inheriting parent.extent) = child := by
  -- The fork inherited exactly the logs and transfers that the parent has.
  have logs : parent.logs ++ child.logs.drop parent.logs.length = child.logs := by
    obtain ⟨fresh, order⟩ := grown.logs
    rw [← order, List.drop_left]
  have transfers :
      parent.transfers ++ child.transfers.drop parent.transfers.length = child.transfers := by
    obtain ⟨fresh, order⟩ := grown.transfers
    rw [← order, List.drop_left]
  have accounts := InsertionMap.union_eq_right grown.accounts
  have warm := InsertionSet.union_eq_right grown.warm
  unfold commit inheriting extent
  rw [accounts, warm, logs, transfers, ← grown.inherited]

end Cache

def Run.inForce (run : Run ε) : List (Performed ε) :=
  run.performed.filter (·.inForce)

def Performed.answered (performed : Performed ε) : Operation × Answer ε Reply :=
  (performed.operation, performed.step.answer)

namespace Program

variable (context : Context ε)

theorem run_ofList_append (first second : List Operation) (cache : Cache) :
    (ofList (first ++ second)).run context cache =
      { cache := ((ofList second).run context ((ofList first).run context cache).cache).cache
        performed := ((ofList first).run context cache).performed ++
          ((ofList second).run context ((ofList first).run context cache).cache).performed } := by
  induction first generalizing cache with
  | nil => rfl
  | cons operation rest ih =>
    simp only [List.cons_append, ofList, run, ih]

theorem extends_run_ofList (operations : List Operation) (cache : Cache) :
    cache.Extends ((ofList operations).run context cache).cache := by
  induction operations generalizing cache with
  | nil => exact .refl cache
  | cons operation rest ih => exact (cache.extends_perform context operation).trans (ih _)

theorem cache_run_ofList_inheriting (operations : List Operation) (cache : Cache)
    (extent : Extent) :
    ((ofList operations).run context (cache.inheriting extent)).cache =
      ((ofList operations).run context cache).cache.inheriting extent := by
  induction operations generalizing cache with
  | nil => rfl
  | cons operation rest ih =>
    simp only [ofList, run, operation.perform_inheriting context cache extent]
    exact ih _

theorem answered_run_ofList_inheriting (operations : List Operation) (cache : Cache)
    (extent : Extent) :
    ((ofList operations).run context (cache.inheriting extent)).performed.map Performed.answered =
      ((ofList operations).run context cache).performed.map Performed.answered := by
  induction operations generalizing cache with
  | nil => rfl
  | cons operation rest ih =>
    simp only [ofList, run, operation.perform_inheriting context cache extent, List.map_cons]
    exact congrArg _ (ih _)

theorem inForce_commit (performed : List (Performed ε)) :
    performed.map Fate.commit.apply = performed :=
  List.map_id performed

theorem inForce_revert (performed : List (Performed ε)) :
    (performed.map Fate.revert.apply).filter (·.inForce) = [] := by
  rw [List.filter_eq_nil_iff]
  intro reverted member
  obtain ⟨_, _, rfl⟩ := List.mem_map.mp member
  exact Bool.false_ne_true

theorem commit_run_ofList (operations : List Operation) (cache : Cache) :
    cache.commit ((ofList operations).run context cache.fork).cache =
      ((ofList operations).run context cache).cache := by
  have forked : cache.fork = cache.inheriting cache.extent := rfl
  rw [forked, cache_run_ofList_inheriting]
  exact Cache.commit_inheriting (extends_run_ofList context operations cache)

theorem cache_run (program : Program) (cache : Cache) :
    (program.run context cache).cache = ((ofList program.inForce).run context cache).cache := by
  induction program generalizing cache with
  | done => rfl
  | perform operation rest ih => exact ih (operation.perform context cache).cache
  | frame body fate rest ihBody ihRest =>
    cases fate with
    | revert => exact ihRest cache
    | commit =>
      -- The body is flat by induction, and a flat body may as well run on the parent.
      simp only [run, inForce, run_ofList_append, Fate.close]
      rw [ihBody cache.fork, commit_run_ofList]
      exact ihRest _

theorem answered_run (program : Program) (cache : Cache) :
    (program.run context cache).inForce.map Performed.answered =
      ((ofList program.inForce).run context cache).performed.map Performed.answered := by
  induction program generalizing cache with
  | done => rfl
  | perform operation rest ih =>
    exact congrArg (List.cons (operation, _)) (ih (operation.perform context cache).cache)
  | frame body fate rest ihBody ihRest =>
    cases fate with
    | revert =>
      simp only [run, Run.inForce, List.filter_append, inForce_revert, List.nil_append]
      exact ihRest cache
    | commit =>
      -- What the fork inherits is the only difference to a body that runs without a frame.
      have forked : cache.fork = cache.inheriting cache.extent := rfl
      have answers := ihBody cache.fork
      rw [forked, answered_run_ofList_inheriting, ← forked] at answers
      simp only [run, inForce, run_ofList_append, Fate.close, Run.inForce, List.filter_append,
        List.map_append, inForce_commit]
      rw [cache_run, commit_run_ofList]
      exact congrArg₂ _ answers (ihRest _)

theorem moves_run (program : Program) (cache : Cache) :
    Moves context.ledger cache (program.run context cache).cache := by
  rw [cache_run]
  generalize program.inForce = operations
  induction operations generalizing cache with
  | nil => exact .refl
  | cons operation rest ih => exact (operation.moves_perform context cache).trans (ih _)

/-- Frames are transparent: the cache at the end and the answers in force are those of the
operations in force, performed one after another without any fork. -/
theorem run_eq_run_inForce (program : Program) (cache : Cache) :
    (program.run context cache).cache = ((ofList program.inForce).run context cache).cache ∧
      (program.run context cache).inForce.map Performed.answered =
        ((ofList program.inForce).run context cache).performed.map Performed.answered :=
  ⟨program.cache_run context cache, program.answered_run context cache⟩

end Program

end Overlay
