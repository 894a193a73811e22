import Overlay.Frame
import Overlay.Proofs.Move

/-!
The caches that can be reached: from a new one by operations, by forks, by commits of any two
reachable caches and by handing the output over. An invariant needs a look at the single moves and
at commits only. A trace follows one cache and remembers what happened to it.
-/

set_option autoImplicit false

namespace Overlay

variable {ε : Type}

/-- Every operation may run over another ledger, as long as it is an admitted one. -/
inductive Reachable (Admitted : Ledger ε → Prop) : Cache → Prop where
  | new : Reachable Admitted {}
  | perform {cache : Cache} (before : Reachable Admitted cache) (context : Context ε)
      (admitted : Admitted context.ledger) (operation : Operation) :
      Reachable Admitted (operation.perform context cache).cache
  | fork {cache : Cache} (before : Reachable Admitted cache) : Reachable Admitted cache.fork
  | commit {parent child : Cache} (waiting : Reachable Admitted parent)
      (ended : Reachable Admitted child) : Reachable Admitted (parent.commit child)
  | takeOutput {cache : Cache} (before : Reachable Admitted cache) :
      Reachable Admitted cache.takeOutput.2

/-- One operation on a cache, with what the cache worked with and what it answered. -/
structure Event (ε : Type) where
  context : Context ε
  operation : Operation
  answer : Answer ε Reply

def Operation.event (context : Context ε) (cache : Cache) (operation : Operation) : Event ε :=
  ⟨context, operation, (operation.perform context cache).answer⟩

/-- What happened to one cache since it was new. The ledger may be another one at every step. -/
inductive Trace : List (Event ε) → Cache → Prop where
  | new : Trace [] {}
  | step {past : List (Event ε)} {cache : Cache} (before : Trace past cache) (context : Context ε)
      (operation : Operation) :
      Trace (past ++ [operation.event context cache]) (operation.perform context cache).cache

/-- What only ever comes about by an event is there if and only if one has brought it about. -/
theorem Trace.iff_exists {P : Cache → Prop} {brings : Event ε → Prop} (new : ¬ P {})
    (step : ∀ (context : Context ε) (cache : Cache) (operation : Operation),
      P (operation.perform context cache).cache ↔
        P cache ∨ brings (operation.event context cache))
    {past : List (Event ε)} {cache : Cache} (trace : Trace past cache) :
    P cache ↔ ∃ event ∈ past, brings event := by
  induction trace with
  | new => simp [new]
  | step before context operation ih =>
    simp only [step, ih, List.mem_append, List.mem_singleton, or_and_right, exists_or,
      exists_eq_left]

namespace Cache

theorem account?_commit (parent child : Cache) (address : Address) :
    (parent.commit child).account? address =
      (child.account? address).or (parent.account? address) :=
  InsertionMap.get?_union parent.accounts child.accounts address

theorem entry_commit (parent child : Cache) (address : Address) :
    (parent.commit child).entry address =
      ((child.account? address).or (parent.account? address)).getD (Account.marker address) :=
  congrArg (Option.getD · _) (parent.account?_commit child address)

theorem entry_commit_eq (parent child : Cache) (address : Address) :
    (parent.commit child).entry address = child.entry address ∨
      (parent.commit child).entry address = parent.entry address := by
  rw [entry_commit, entry, entry]
  cases child.account? address with
  | some account => exact .inl rfl
  | none => exact .inr rfl

end Cache

namespace Reachable

variable {Admitted : Ledger ε → Prop} {cache : Cache}

theorem invariant {P : Cache → Prop} (new : P {})
    (move : ∀ ledger before after, Admitted ledger → Move ledger before after → P before → P after)
    (fork : ∀ cache, P cache → P cache.fork)
    (commit : ∀ parent child, P parent → P child → P (parent.commit child))
    (reachable : Reachable Admitted cache) : P cache := by
  induction reachable with
  | new => exact new
  | perform before context admitted operation ih =>
    exact (operation.moves_perform context _).invariant
      (fun before after => move context.ledger before after admitted) ih
  | fork before ih => exact fork _ ih
  | commit waiting ended ihParent ihChild => exact commit _ _ ihParent ihChild
  | takeOutput before ih => exact new

-- What holds of every entry on its own needs no look at forks and commits.
theorem entry_invariant {P : Address → Account → Prop}
    (marker : ∀ address, P address (Account.marker address))
    (act : ∀ ledger address account action, Admitted ledger →
      Account.Action.Admissible ledger address account action → P address account →
        P address (account.perform action).2)
    (reachable : Reachable Admitted cache) (address : Address) :
    P address (cache.entry address) := by
  revert address
  apply invariant (P := fun cache => ∀ address, P address (cache.entry address)) _ _ _ _ reachable
  · exact marker
  · intro ledger before after admitted moved holds address
    rcases moved.entry address with same | ⟨action, admissible, same⟩
    · rw [same]
      exact holds address
    · rw [same]
      exact act ledger address _ action admitted admissible (holds address)
  · exact fun cache holds => holds
  · intro parent child waiting ended address
    rcases parent.entry_commit_eq child address with taken | kept
    · exact taken ▸ ended address
    · exact kept ▸ waiting address

theorem run (before : Reachable Admitted cache) (context : Context ε)
    (admitted : Admitted context.ledger) (program : Program) :
    Reachable Admitted (program.run context cache).cache := by
  induction program generalizing cache with
  | done => exact before
  | perform operation rest ih => exact ih (before.perform context admitted operation)
  | frame body fate rest ihBody ihRest =>
    have child := ihBody before.fork
    cases fate with
    | commit => exact ihRest (before.commit child)
    | revert => exact ihRest before

end Reachable

end Overlay
