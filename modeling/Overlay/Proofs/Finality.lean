import Overlay.Proofs.Frame
import Overlay.Proofs.Question
import Overlay.Proofs.Reachable

/-!
What a cache knows is final. Whatever its ledger would say by now about what the cache has an answer
to, no run can tell: over ledgers that agree on the rest it goes the same way, step by step.
-/

set_option autoImplicit false

namespace Overlay

variable {ε : Type}

def Performed.unasked (performed : Performed ε) : Performed ε :=
  { performed with step := { performed.step with queries := [] } }

theorem Performed.unasked_congr {first second : Step ε Reply} (matching : first.Matches second)
    (operation : Operation) (inForce : Bool) :
    unasked ⟨operation, first, inForce⟩ = unasked ⟨operation, second, inForce⟩ := by
  simp only [unasked, matching.result, matching.cache]

theorem Fate.unasked_apply (fate : Fate) (performed : Performed ε) :
    (fate.apply performed).unasked = fate.apply performed.unasked := by
  cases fate <;> rfl

/-- The ledgers agree on all that the cache has no answer to. -/
def Cache.AgreesBeyond (cache : Cache) (first second : Ledger ε) : Prop :=
  ∀ question, cache.lacks question = true → first.Agrees second question

namespace Cache.AgreesBeyond

variable {first second : Ledger ε} {cache : Cache}

theorem fork (agree : cache.AgreesBeyond first second) : cache.fork.AgreesBeyond first second :=
  agree

theorem moves {ledger : Ledger ε} (agree : cache.AgreesBeyond first second) {after : Cache}
    (moves : Moves ledger cache after) : after.AgreesBeyond first second :=
  fun question lacking => agree question (moves.lacks lacking)

theorem commit {child : Cache} (waiting : cache.AgreesBeyond first second)
    (ended : child.AgreesBeyond first second) :
    (cache.commit child).AgreesBeyond first second := by
  intro question lacking
  unfold lacks at lacking
  rcases cache.entry_commit_eq child question.address with taken | kept
  · exact ended question (by rwa [taken] at lacking)
  · exact waiting question (by rwa [kept] at lacking)

theorem close {child : Cache} (waiting : cache.AgreesBeyond first second)
    (ended : child.AgreesBeyond first second) (fate : Fate) :
    (fate.close cache child).AgreesBeyond first second := by
  cases fate with
  | commit => exact waiting.commit ended
  | revert => exact waiting

theorem perform (agree : cache.AgreesBeyond first second) (config : Config)
    (operation : Operation) :
    (operation.perform ⟨first, config⟩ cache).Matches
      (operation.perform ⟨second, config⟩ cache) :=
  operation.matches_perform config cache fun question asked =>
    agree question (operation.lacks_of_mem_questions first cache asked)

end Cache.AgreesBeyond

namespace Program

/-- Two ledgers that agree on what the cache has no answer to lead every program through the same
steps to the same cache, in nested calls as well, however much they differ on the rest. -/
theorem run_eq_of_agreesBeyond (config : Config) (program : Program) (cache : Cache)
    {first second : Ledger ε} (agree : cache.AgreesBeyond first second) :
    (program.run ⟨first, config⟩ cache).performed.map Performed.unasked =
        (program.run ⟨second, config⟩ cache).performed.map Performed.unasked ∧
      (program.run ⟨first, config⟩ cache).cache = (program.run ⟨second, config⟩ cache).cache := by
  induction program generalizing cache with
  | done => exact ⟨rfl, rfl⟩
  | perform operation rest ih =>
    have step := agree.perform config operation
    have later := agree.moves (operation.moves_perform ⟨first, config⟩ cache)
    obtain ⟨performed, same⟩ := ih _ later
    simp only [run, List.map_cons, Performed.unasked_congr step operation]
    rw [performed, same, step.cache]
    exact ⟨rfl, rfl⟩
  | frame body fate rest ihBody ihRest =>
    obtain ⟨inside, ended⟩ := ihBody cache.fork agree.fork
    have child := agree.fork.moves (body.moves_run ⟨first, config⟩ cache.fork)
    obtain ⟨performed, same⟩ := ihRest _ (agree.close child fate)
    have marked : ∀ performed : List (Performed ε),
        (performed.map fate.apply).map Performed.unasked =
          (performed.map Performed.unasked).map fate.apply := by
      intro performed
      rw [List.map_map, List.map_map]
      exact List.map_congr_left fun performed _ => fate.unasked_apply performed
    simp only [run, List.map_append, marked]
    rw [inside, performed, same, ended]
    exact ⟨rfl, rfl⟩

/-- The info of a loaded account, a written slot and the storage of a created account are read as
before, although the second ledger has other values for all of them. -/
theorem run_over_revised_ledger :
    let address := FixedBytes.ofNat 20 1
    let created := FixedBytes.ofNat 20 2
    let old : Ledger.Elementary Unit :=
      { nonce := fun _ => .known 0
        codeHash := fun _ => .known emptyCodeHash
        balance := fun _ => .known 7
        code := fun _ => .known []
        storage := fun _ _ => .known none }
    let revised : Ledger.Elementary Unit :=
      { old with
        balance := fun other => .known (if other = address ∨ other = created then 9 else 7)
        storage := fun other key =>
          .known (if other = address ∧ key = 1 ∨ other = created then some 3 else none) }
    let opening : Program :=
      .perform (.writeSlot address 1 5) (.perform (.create created) .done)
    let program : Program :=
      .frame (.perform (.readSlot created 4) (.perform (.load address) .done)) .commit
        (.perform (.readSlot address 1) .done)
    let cache := (opening.run ⟨.ofElementary old, {}⟩ {}).cache
    (old.balance address).result = .ok 7 ∧ (revised.balance address).result = .ok 9 ∧
      (program.run ⟨.ofElementary old, {}⟩ cache).cache =
        (program.run ⟨.ofElementary revised, {}⟩ cache).cache := by
  intro address created old revised opening program cache
  have apart : ∀ other, (cache.entry other).status.loaded = false →
      ¬ (other = address ∨ other = created) := by
    rintro other unloaded (rfl | rfl) <;> cases unloaded
  have agree : cache.AgreesBeyond (.ofElementary old) (.ofElementary revised) := by
    intro question lacking
    apply Ledger.agrees_ofElementary
    intro query member
    cases question with
    | account other | isAlive other =>
      have unloaded : (cache.entry other).status.loaded = false := by simpa using lacking
      simp only [Question.parts, List.mem_cons, List.not_mem_nil, or_false] at member
      rcases member with rfl | rfl | rfl <;>
        simp [Ledger.Elementary.Agrees, old, revised, apart other unloaded]
    | storage other key =>
      have unknown : ¬ (other = address ∧ key = 1 ∨ other = created) := by
        rintro (⟨rfl, rfl⟩ | rfl)
        · exact absurd lacking (by decide)
        · cases lacking
      cases List.mem_singleton.mp member
      show Except.ok none = Except.ok (if other = address ∧ key = 1 ∨ other = created then _ else _)
      rw [if_neg unknown]
  exact ⟨rfl, by rfl, (program.run_eq_of_agreesBeyond {} cache agree).2⟩

end Program

end Overlay
