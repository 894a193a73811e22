import Overlay.Proofs.Settle
import Overlay.Proofs.Warmth
import Overlay.Proofs.WellFormed

/-!
What a commit leaves of the parent. The entries of the child replace those of the parent as wholes,
so an entry of the parent stays as far as the one of the child has what it had. That is so where the
child has none, and where it went on from the entry of the parent without local changes. Where
neither cache has local changes both know what the ledger knows, and so does the cache after it.
Nested commits come to the same in either grouping.
-/

set_option autoImplicit false

namespace Overlay

variable {ε : Type}

/-- What stays of an account that goes on without local changes: all that is known of it, and all
flags but the one of a load. -/
structure Account.Keeps (before after : Account) : Prop where
  info : before.status.loaded = true → after.info = before.info
  loaded : before.status.loaded = true → after.status.loaded = true
  status : after.status = { before.status with loaded := after.status.loaded }
  value : ∀ key value, before.current? key = some value → after.current? key = some value

structure Cache.Shows (cache : Cache) (ledger : Ledger ε) (address : Address) (account : Account) :
    Prop where
  info : account.status.loaded = true → ∃ load, (cache.load ledger address).result = .ok load ∧
    load.data.info = account.info ∧ load.data.status = account.status
  value : ∀ key value, account.current? key = some value →
    ∃ load, (cache.readSlot ledger address key).result = .ok load ∧ load.data = value

namespace Account

namespace Keeps

theorem refl (account : Account) : account.Keeps account :=
  ⟨fun _ => rfl, id, rfl, fun _ _ => id⟩

theorem trans {first second third : Account} (earlier : first.Keeps second)
    (later : second.Keeps third) : first.Keeps third where
  info loaded := (later.info (earlier.loaded loaded)).trans (earlier.info loaded)
  loaded := later.loaded ∘ earlier.loaded
  status := by rw [later.status, earlier.status]
  value key value known := later.value key value (earlier.value key value known)

theorem cached {before after : Account} (keeps : before.Keeps after) :
    after.status.cached = before.status.cached := by
  rw [keeps.status]

end Keeps

section Changes

variable (account : Account)

theorem keeps_load (info : Info) : account.Keeps (account.load info) where
  info loaded := by rw [load_of_loaded loaded]
  loaded _ := by simp
  status := by simp
  value key value known := by rwa [current?_load]

theorem keeps_editSlot (key : Word) {edit : Slot → Slot}
    (keeps : ∀ slot value, slot.current = some value → (edit slot).current = some value) :
    account.Keeps (account.editSlot key edit) where
  info _ := rfl
  loaded := id
  status := rfl
  value other value known := by
    rw [current?_editSlot]
    split
    · next same =>
      rw [← same, ← current_slot] at known
      exact keeps _ value known
    · exact known

/-- An action that leaves no local change takes nothing away. -/
theorem keeps_perform {action : Action}
    (plain : (account.perform action).2.status.cached = false) :
    account.Keeps (account.perform action).2 := by
  have outcome := account.perform_outcome action
  generalize account.perform action = result at outcome plain ⊢
  cases outcome with
  | load info => exact account.keeps_load info
  | setBalance | setNonce | incNonce | setCode | create | selfDestruct | writeSlot =>
    -- These are local changes and are marked as such.
    cases plain
  | nonceDecreased | nonceOverflow | readUnknown => exact .refl account
  | warmSlot key | preloadSlot key | readKnown key =>
    exact account.keeps_editSlot key fun _ _ known => known
  | recordFetch key fetched =>
    have kept : ∀ (slot : Slot) (value : Word), slot.current = some value →
        (slot.recordFetch fetched).current = some value := by
      intro slot value known
      simp [Slot.recordFetch, known]
    exact account.keeps_editSlot key kept

end Changes

section Plain

variable {ledger : Ledger ε} {address : Address} {account : Account}

theorem fills_of_old (old : account.status.created = false) {key value : Word} :
    ledger.Fills address account key value ↔
      ∃ found, (ledger.storage address key).result = .ok found ∧ value = found.getD 0 := by
  rw [Ledger.Fills, old, if_neg Bool.false_ne_true]

theorem WellFormed.status_of_plain (formed : account.WellFormed address)
    (plain : account.status.cached = false) :
    account.status = { loaded := account.status.loaded } := by
  have flags : ¬ (account.status.created = true ∨ account.status.selfDestructed = true) :=
    fun either => absurd (formed.cached either) (Bool.eq_false_iff.mp plain)
  have reserved := formed.reserved
  generalize account.status = status at plain flags reserved
  cases status
  simp_all

theorem Faithful.stored_of_plain (faithful : Faithful ledger address account)
    (plain : account.status.cached = false) {key value : Word}
    (known : account.current? key = some value) :
    ∃ found, (ledger.storage address key).result = .ok found ∧ value = found.getD 0 := by
  obtain ⟨slot, found, current⟩ := Option.bind_eq_some_iff.mp known
  have held := faithful.slot key slot found
  have unwritten : slot.access.written = false := by
    have cached := held.cached
    simp_all
  have initial : slot.initial = some value := (held.sound.unwritten unwritten).trans current
  exact (fills_of_old (faithful.old_of_plain plain)).mp (held.initial value initial)

end Plain

end Account

namespace Program

variable (context : Context ε) (program : Program) (cache : Cache) (address : Address)

theorem isSlotWarm_run {key : Word} (warm : cache.isSlotWarm address key = true) :
    (program.run context cache).cache.isSlotWarm address key = true := by
  rw [Cache.isSlotWarm_eq_entry] at warm ⊢
  refine (program.moves_run context cache).entry_invariant (P := (·.isSlotWarm key = true)) ?_
    address warm
  intro account action warm
  exact (account.isSlotWarm_perform key action).mpr (.inl warm)

theorem keeps_run
    (plain : ((program.run context cache).cache.entry address).status.cached = false) :
    (cache.entry address).Keeps ((program.run context cache).cache.entry address) := by
  -- Local changes are never unmarked, so an account without any never had one on the way.
  refine (program.moves_run context cache).entry_invariant
    (P := fun account => account.status.cached = false → (cache.entry address).Keeps account)
    ?_ address (fun _ => .refl _) plain
  intro account action kept plain
  have step := account.keeps_perform plain
  exact (kept (step.cached.symm.trans plain)).trans step

end Program

namespace Cache

section Commit

variable (parent child : Cache) (address : Address)

theorem isWarm_commit :
    (parent.commit child).isWarm address = true ↔
      parent.isWarm address = true ∨ child.isWarm address = true := by
  simp only [isWarm, decide_eq_true_iff]
  exact InsertionSet.mem_union

theorem isSlotWarm_commit (key : Word) :
    (parent.commit child).isSlotWarm address key = true ↔
      child.isSlotWarm address key = true ∨
        child.account? address = none ∧ parent.isSlotWarm address key = true := by
  simp only [isSlotWarm, account?_commit]
  cases child.account? address <;> simp

theorem keeps_commit :
    (parent.entry address).Keeps ((parent.commit child).entry address) ↔
      child.account? address = none ∨ (parent.entry address).Keeps (child.entry address) := by
  have own : child.entry address =
      (child.account? address).getD (Account.marker address) := rfl
  rw [entry_commit, own]
  cases child.account? address with
  | none => exact iff_of_true (.refl (parent.entry address)) (.inl rfl)
  | some account => simp

theorem commit_commit {child : Cache} (logs : child.inherited.logs ≤ child.logs.length)
    (transfers : child.inherited.transfers ≤ child.transfers.length) (grandchild : Cache) :
    (parent.commit child).commit grandchild = parent.commit (child.commit grandchild) := by
  simp only [commit, InsertionMap.union_assoc, InsertionSet.union_assoc,
    List.drop_append_of_le_length logs, List.drop_append_of_le_length transfers, List.append_assoc]

/-- A middle cache that holds less than that loses a log of the cache it takes over first. -/
example :
    let child : Cache := { inherited := { logs := 1 } }
    let grandchild : Cache := { logs := [⟨FixedBytes.ofNat 20 1, [], []⟩] }
    (({} : Cache).commit child).commit grandchild ≠
      ({} : Cache).commit (child.commit grandchild) := by
  decide

theorem entry_commit_of {P : Account → Prop} (waiting : P (parent.entry address))
    (ended : P (child.entry address)) : P ((parent.commit child).entry address) := by
  rcases parent.entry_commit_eq child address with taken | kept
  · rwa [taken]
  · rwa [kept]

end Commit

variable {ledger : Ledger ε} {address : Address}

/-- Two accounts that have no local changes over the same ledger show the same. -/
theorem shows_of_plain {cache : Cache} {account : Account}
    (entry : (cache.entry address).Faithful ledger address)
    (formed : (cache.entry address).WellFormed address)
    (plain : (cache.entry address).status.cached = false)
    (faithful : account.Faithful ledger address) (formed' : account.WellFormed address)
    (plain' : account.status.cached = false) : cache.Shows ledger address account where
  info loaded := by
    have held := faithful.info loaded plain'
    have outcome := cache.load_outcome ledger address
    generalize cache.load ledger address = step at outcome ⊢
    cases outcome with
    | failed cause unloaded failure => simp [held] at failure
    | answered info supplied =>
      -- Whether the entry was loaded before or is only now, its info is the one of the ledger.
      have answer := (entry.load supplied).info (by simp) (by simpa using plain)
      rw [held, Except.ok.injEq] at answer
      refine ⟨_, rfl, answer.symm, ?_⟩
      rw [Account.status_load, formed.status_of_plain plain, formed'.status_of_plain plain', loaded]
  value key value known := by
    obtain ⟨found, stored, same⟩ := faithful.stored_of_plain plain' known
    have agrees : ∀ other : Word, (∃ found, (ledger.storage address key).result = .ok found ∧
        other = found.getD 0) → other = value := by
      rintro other ⟨found', stored', same'⟩
      rw [stored, Except.ok.injEq] at stored'
      rw [same, same', stored']
    have outcome := cache.readSlot_outcome ledger address key
    generalize cache.readSlot ledger address key = step at outcome ⊢
    cases outcome with
    | failed cause unknown old failure => simp [stored] at failure
    | known other known' => exact ⟨_, rfl, agrees other (entry.stored_of_plain plain known')⟩
    | fetched other unknown filled =>
      exact ⟨_, rfl, agrees other ((Account.fills_of_old (entry.old_of_plain plain)).mp filled)⟩

end Cache

section Copy

variable {context : Context ε} {program : Program} {start parent child : Cache} {address : Address}
  (copied : child = (program.run context start.fork).cache)

include copied

theorem Cache.isSlotWarm_commit_of_run {key : Word} (warm : start.isSlotWarm address key = true) :
    (parent.commit child).isSlotWarm address key = true := by
  have kept := program.isSlotWarm_run context start.fork address warm
  rw [← copied] at kept
  exact (parent.isSlotWarm_commit child address key).mpr (.inl kept)

theorem Cache.keeps_commit_of_run (unused : parent.entry address = start.entry address)
    (plain : (child.entry address).status.cached = false) :
    (parent.entry address).Keeps ((parent.commit child).entry address) := by
  have kept := program.keeps_run context start.fork address (by rwa [← copied])
  rw [← copied] at kept
  refine (parent.keeps_commit child address).mpr (.inr ?_)
  rw [unused]
  exact kept

end Copy

namespace Reachable

variable {ledger : Ledger ε} {parent child : Cache}

theorem shows_commit (waiting : Reachable (· = ledger) parent)
    (ended : Reachable (· = ledger) child) (address : Address)
    (plain : (parent.entry address).status.cached = false)
    (plain' : (child.entry address).status.cached = false) :
    (parent.commit child).Shows ledger address (parent.entry address) :=
  have merged := waiting.commit ended
  have unchanged : ((parent.commit child).entry address).status.cached = false :=
    parent.entry_commit_of child address (P := (·.status.cached = false)) plain plain'
  Cache.shows_of_plain (merged.faithful address) (merged.wellFormed_entry address) unchanged
    (waiting.faithful address) (waiting.wellFormed_entry address) plain

/-- Addresses never turn cold by a commit. A slot of the parent does, and what the parent knew of an
account is lost, if and only if the child has an entry for the address that has not got it. That
cannot happen where the child has no entry; nor to what the parent still has from the time of the
fork, if the child went on from there without local changes. Where neither cache has local changes,
what is lost is at least answered as before. -/
theorem commit_keeps (waiting : Reachable (· = ledger) parent)
    (ended : Reachable (· = ledger) child) (address : Address) :
    ((parent.commit child).isWarm address = true ↔
      parent.isWarm address = true ∨ child.isWarm address = true) ∧
    (∀ key, (parent.commit child).isSlotWarm address key = true ↔
      child.isSlotWarm address key = true ∨
        child.account? address = none ∧ parent.isSlotWarm address key = true) ∧
    ((parent.entry address).Keeps ((parent.commit child).entry address) ↔
      child.account? address = none ∨ (parent.entry address).Keeps (child.entry address)) ∧
    (child.account? address = none →
      (parent.commit child).account? address = parent.account? address) ∧
    (∀ (context : Context ε) (start : Cache) (program : Program),
      child = (program.run context start.fork).cache →
      (∀ key, start.isSlotWarm address key = true →
        (parent.commit child).isSlotWarm address key = true) ∧
      (parent.entry address = start.entry address → (child.entry address).status.cached = false →
        (parent.entry address).Keeps ((parent.commit child).entry address))) ∧
    ((parent.entry address).status.cached = false → (child.entry address).status.cached = false →
      (parent.commit child).Shows ledger address (parent.entry address)) := by
  refine ⟨parent.isWarm_commit child address, parent.isSlotWarm_commit child address,
    parent.keeps_commit child address, ?_, ?_, waiting.shows_commit ended address⟩
  · intro missing
    rw [Cache.account?_commit, missing]
    rfl
  · intro context start program copied
    exact ⟨fun key => Cache.isSlotWarm_commit_of_run copied, Cache.keeps_commit_of_run copied⟩

/-- A copy that only warms another slot gives back the slot and the balance of the parent. -/
theorem commit_keeps_after_copy :
    let address := FixedBytes.ofNat 20 1
    let memory : MemoryLedger := MemoryLedger.insertAccount {} address 0 [] 7
    let context : Context Unit := ⟨memory.toLedger, {}⟩
    let opening : Program := .perform (.load address) (.perform (.warmSlot address 1) .done)
    let call : Program := .perform (.warmSlot address 2) .done
    let parent := (opening.run context {}).cache
    let child := (call.run context parent.fork).cache
    (parent.commit child).isSlotWarm address 1 = true ∧
      ((parent.commit child).entry address).info.balance = 7 := by
  intro address memory context opening call parent child
  have start : Reachable (· = context.ledger) {} := .new
  have waiting : Reachable (· = context.ledger) parent := start.run context rfl opening
  have ended : Reachable (· = context.ledger) child := waiting.fork.run context rfl call
  obtain ⟨_, _, _, _, copies, _⟩ := waiting.commit_keeps ended address
  obtain ⟨warm, keeps⟩ := copies context parent call rfl
  have plain : (child.entry address).status.cached = false := by rfl
  have loaded : (parent.entry address).status.loaded = true := by rfl
  have balance : (parent.entry address).info.balance = 7 := by rfl
  exact ⟨warm 1 (by decide), by rw [(keeps rfl plain).info loaded, balance]⟩

/-- The entry of a child replaces the one that its parent made in the meantime, also without any
local change. The child is a copy of a new cache, which is nothing else than a new cache. -/
theorem commit_replaces_entry :
    let address := FixedBytes.ofNat 20 1
    let context : Context Unit := ⟨.empty, {}⟩
    let start : Cache := {}
    let opening : Program :=
      .perform (.setBalance address 5) (.perform (.warmSlot address 1) .done)
    let call : Program := .perform (.warmSlot address 2) .done
    let parent := (opening.run context start).cache
    let child := (call.run context start.fork).cache
    (Reachable (· = context.ledger) parent ∧ Reachable (· = context.ledger) child) ∧
      start.fork = {} ∧
        (parent.isSlotWarm address 1 = true ∧
          (parent.commit child).isSlotWarm address 1 = false) ∧
        (child.entry address).status.cached = false ∧
          (parent.entry address).info.balance = 5 ∧
            ((parent.commit child).entry address).info.balance = 0 := by
  intro address context start opening call parent child
  have fresh : Reachable (· = context.ledger) start := .new
  have waiting : Reachable (· = context.ledger) parent := fresh.run context rfl opening
  have ended : Reachable (· = context.ledger) child := fresh.fork.run context rfl call
  exact ⟨⟨waiting, ended⟩, rfl, ⟨by decide, by decide⟩, by rfl, by rfl, by rfl⟩

/-- A frame may take over a frame inside it before it is committed itself, or be committed first.
Only the frame in the middle has to be reachable, so that it inherited no more than it holds. -/
theorem commit_assoc {Admitted : Ledger ε → Prop} (running : Reachable Admitted child)
    (parent grandchild : Cache) :
    (parent.commit child).commit grandchild = parent.commit (child.commit grandchild) :=
  have held := running.inherited_le
  parent.commit_commit held.1 held.2 grandchild

/-- Three nested frames that each add a log and set the same balance: in either grouping every log
is there once, and the balance is the one of the innermost frame. -/
theorem commit_assoc_of_nested_frames :
    let address := FixedBytes.ofNat 20 1
    let context : Context Unit := ⟨.empty, {}⟩
    let body (balance : Word) : Program :=
      .perform (.emit ⟨address, [], [7]⟩) (.perform (.setBalance address balance) .done)
    let parent := ((body 1).run context {}).cache
    let child := ((body 2).run context parent.fork).cache
    let grandchild := ((body 3).run context child.fork).cache
    let inner := parent.commit (child.commit grandchild)
    (parent.commit child).commit grandchild = inner ∧
      inner.logs.length = 3 ∧ (inner.entry address).info.balance = 3 := by
  intro address context body parent child grandchild inner
  have fresh : Reachable (· = context.ledger) {} := .new
  have running : Reachable (· = context.ledger) child :=
    (fresh.run context rfl (body 1)).fork.run context rfl (body 2)
  exact ⟨running.commit_assoc parent grandchild, by rfl, by decide⟩

end Reachable

end Overlay
