import Mathlib.Data.List.Forall2
import Overlay.Proofs.Frame
import Overlay.Proofs.Knowledge
import Overlay.Proofs.Settle

/-!
Warming is transparent to values. Operations that only warm can be put in anywhere, also in nested
calls, and all that is seen of the other operations stays the same, except for what is cold and what
it costs. Two facts carry this: to warm changes nothing of what the cache knows, and every operation
answers from what is known.
-/

set_option autoImplicit false

namespace Overlay

variable {ε : Type}

namespace Operation

def onlyWarms : Operation → Bool
  | .warmAddress _ | .warmSlot _ _ | .accountCost _ | .storageCost _ _ | .preload _
  | .preloadPrecompiles => true
  | _ => false

theorem knowledge_perform_of_onlyWarms (context : Context ε) (cache : Cache)
    {operation : Operation} (warms : operation.onlyWarms = true) :
    (operation.perform context cache).cache.knowledge = cache.knowledge := by
  cases operation with
  | warmAddress | accountCost => rfl
  | warmSlot address key | storageCost address key => exact cache.knowledge_warmSlot address key
  | preload list => exact cache.knowledge_preload list
  | preloadPrecompiles => exact cache.knowledge_preloadAddresses _
  | _ => cases warms

end Operation

namespace Cache

variable {parent parent' child child' : Cache}

theorem knowledge_commit_left (same : parent.knowledge = parent'.knowledge) (child : Cache) :
    (parent.commit child).knowledge = (parent'.commit child).knowledge := by
  have accounts : (parent.commit child).knowledge.account =
      (parent'.commit child).knowledge.account := by
    funext address
    show ((parent.commit child).entry address).knowledge =
      ((parent'.commit child).entry address).knowledge
    rw [entry_commit, entry_commit]
    cases child.account? address with
    | some account => rfl
    | none => exact knowledge_entry_congr same address
  obtain ⟨_, logs, transfers, inherited⟩ := Knowledge.mk.inj same
  exact Knowledge.ext accounts (congrArg (· ++ _) logs) (congrArg (· ++ _) transfers) inherited

theorem entry_commit_of_extends (grown : parent.fork.Extends child) (address : Address) :
    (parent.commit child).entry address = child.entry address := by
  rw [entry_commit, entry]
  cases found : child.account? address with
  | some account => rfl
  | none =>
    have missing : address ∉ child.accounts := InsertionMap.get?_eq_none_iff.mp found
    have absent : parent.account? address = none :=
      InsertionMap.get?_eq_none_iff.mpr fun member => missing (grown.accounts.subset member)
    rw [absent]
    rfl

theorem knowledge_commit (same : parent.knowledge = parent'.knowledge)
    (same' : child.knowledge = child'.knowledge) (grown : parent.fork.Extends child)
    (grown' : parent'.fork.Extends child') :
    (parent.commit child).knowledge = (parent'.commit child').knowledge := by
  have accounts : (parent.commit child).knowledge.account =
      (parent'.commit child').knowledge.account := by
    funext address
    show ((parent.commit child).entry address).knowledge =
      ((parent'.commit child').entry address).knowledge
    rw [entry_commit_of_extends grown, entry_commit_of_extends grown']
    exact knowledge_entry_congr same' address
  obtain ⟨_, logs, transfers, inherited⟩ := Knowledge.mk.inj same
  obtain ⟨_, logs', transfers', inherited'⟩ := Knowledge.mk.inj same'
  refine Knowledge.ext accounts ?_ ?_ inherited
  · show parent.logs ++ child.logs.drop _ = parent'.logs ++ child'.logs.drop _
    rw [logs, logs', inherited']
  · show parent.transfers ++ child.transfers.drop _ = parent'.transfers ++ child'.transfers.drop _
    rw [transfers, transfers', inherited']

theorem knowledge_fork (same : parent.knowledge = parent'.knowledge) :
    parent.fork.knowledge = parent'.fork.knowledge := by
  obtain ⟨accounts, logs, transfers, _⟩ := Knowledge.mk.inj same
  refine Knowledge.ext accounts logs transfers ?_
  show parent.extent = parent'.extent
  rw [extent, extent, logs, transfers]

end Cache

namespace Program

/-- The second program is the first with further operations put in, anywhere, that only warm. -/
inductive Warmed : Program → Program → Prop where
  | done : Warmed done done
  | perform (operation : Operation) {rest rest' : Program} (after : Warmed rest rest') :
      Warmed (perform operation rest) (perform operation rest')
  | frame {body body' : Program} (inside : Warmed body body') (fate : Fate) {rest rest' : Program}
      (after : Warmed rest rest') : Warmed (frame body fate rest) (frame body' fate rest')
  | insert (operation : Operation) (warms : operation.onlyWarms = true) {program program' : Program}
      (after : Warmed program program') : Warmed program (perform operation program')

end Program

/-- What a cache goes through: programs, children from elsewhere that it takes over, and the end of
a transaction. -/
inductive Stage where
  | program (program : Program)
  | commit (child : Cache)
  | takeOutput
  deriving DecidableEq

inductive Stage.Warmed : Stage → Stage → Prop where
  | program {first second : Program} (warmed : first.Warmed second) :
      Warmed (.program first) (.program second)
  | commit (child : Cache) : Warmed (.commit child) (.commit child)
  | takeOutput : Warmed .takeOutput .takeOutput

/-- What is seen of a cache on its way, whatever is warm. -/
inductive Sight (ε : Type) where
  /-- An operation that does more than to warm, with its answer and what is recorded after it. -/
  | step (operation : Operation) (answer : Answer ε Reply) (logs : List Log)
    (transfers : List Transfer)
  /-- What is recorded at the end of a stage. -/
  | records (logs : List Log) (transfers : List Transfer)
  /-- The addresses and infos that are handed over. -/
  | output (info : Address → Option Info) (logs : List Log) (transfers : List Transfer)

def Performed.sight (performed : Performed ε) : Sight ε :=
  .step performed.operation
    ⟨performed.step.result.map Reply.data, performed.step.queries⟩
    performed.step.cache.logs performed.step.cache.transfers

/-- What is seen of a program, in reverted frames as well. -/
def Run.sights (run : Run ε) : List (Sight ε) :=
  (run.performed.filter (!·.operation.onlyWarms)).map Performed.sight

def Output.sight (output : Output) : Sight ε :=
  .output (fun address => (output.accounts.get? address).map (·.info)) output.logs output.transfers

namespace Stage

def sights (context : Context ε) : List Stage → Cache → List (Sight ε)
  | [], _ => []
  | .program body :: rest, cache =>
    let run := body.run context cache
    run.sights ++ .records run.cache.logs run.cache.transfers :: sights context rest run.cache
  | .commit child :: rest, cache =>
    let merged := cache.commit child
    .records merged.logs merged.transfers :: sights context rest merged
  | .takeOutput :: rest, cache =>
    let (output, after) := cache.takeOutput
    output.sight :: sights context rest after

end Stage

namespace Program

variable (context : Context ε) {program program' : Program} {cache cache' : Cache}

theorem extends_run (program : Program) (cache : Cache) :
    cache.Extends (program.run context cache).cache := by
  rw [cache_run]
  exact extends_run_ofList context program.inForce cache

theorem sights_perform (operation : Operation) (rest : Program) (cache : Cache) :
    ((perform operation rest).run context cache).sights =
      (if operation.onlyWarms then []
        else [Performed.sight ⟨operation, operation.perform context cache, true⟩]) ++
        (rest.run context (operation.perform context cache).cache).sights := by
  simp only [Run.sights, run, List.filter_cons]
  cases operation.onlyWarms <;> rfl

theorem sights_frame (body : Program) (fate : Fate) (rest : Program) (cache : Cache) :
    ((frame body fate rest).run context cache).sights =
      (body.run context cache.fork).sights ++
        (rest.run context (fate.close cache (body.run context cache.fork).cache)).sights := by
  have inside : ∀ performed : List (Performed ε),
      ((performed.map fate.apply).filter (!·.operation.onlyWarms)).map Performed.sight =
        (performed.filter (!·.operation.onlyWarms)).map Performed.sight := by
    intro performed
    rw [List.filter_map, List.map_map]
    cases fate <;> rfl
  simp only [Run.sights, run, List.filter_append, List.map_append, inside]

theorem run_warmed (warmed : program.Warmed program') (same : cache.knowledge = cache'.knowledge) :
    (program.run context cache).sights = (program'.run context cache').sights ∧
      (program.run context cache).cache.knowledge =
        (program'.run context cache').cache.knowledge := by
  induction warmed generalizing cache cache' with
  | done => exact ⟨rfl, same⟩
  | perform operation after ih =>
    have agrees := operation.agrees_perform context same
    obtain ⟨later, known⟩ := ih agrees.knowledge
    refine ⟨?_, known⟩
    rw [sights_perform, sights_perform, later]
    have logs : (operation.perform context cache).cache.logs =
        (operation.perform context cache').cache.logs :=
      congrArg Cache.Knowledge.logs agrees.knowledge
    have transfers : (operation.perform context cache).cache.transfers =
        (operation.perform context cache').cache.transfers :=
      congrArg Cache.Knowledge.transfers agrees.knowledge
    simp only [Performed.sight, agrees.result, agrees.queries, logs, transfers]
  | @frame body body' inside fate rest rest' after ihBody ihRest =>
    obtain ⟨seen, known⟩ := ihBody (Cache.knowledge_fork same)
    -- A fork goes on where its parent stopped, so a commit makes known what the fork knows.
    have closed : (fate.close cache (body.run context cache.fork).cache).knowledge =
        (fate.close cache' (body'.run context cache'.fork).cache).knowledge := by
      cases fate with
      | revert => exact same
      | commit =>
        exact Cache.knowledge_commit same known (extends_run context body cache.fork)
          (extends_run context body' cache'.fork)
    obtain ⟨later, known'⟩ := ihRest closed
    refine ⟨?_, known'⟩
    rw [sights_frame, sights_frame, seen, later]
  | insert operation warms after ih =>
    have kept := operation.knowledge_perform_of_onlyWarms context cache' warms
    obtain ⟨later, known⟩ := ih (same.trans kept.symm)
    refine ⟨?_, known⟩
    rw [sights_perform, if_pos warms, List.nil_append, later]

end Program

theorem Cache.info_output (cache : Cache) (address : Address) :
    (cache.output.accounts.get? address).map (·.info) =
      if (cache.knowledge.account address).status.cached then
        some (cache.knowledge.account address).info
      else none := by
  show _ = if (cache.entry address).status.cached then some (cache.entry address).info else none
  rcases cache.listed_or_plain address with ⟨listed, cached⟩ | ⟨missing, plain⟩
  · rw [listed, if_pos cached]
    rfl
  · rw [missing, if_neg (by simp [plain])]
    rfl

theorem Output.sight_congr {cache cache' : Cache} (same : cache.knowledge = cache'.knowledge) :
    (cache.takeOutput.1.sight : Sight ε) = cache'.takeOutput.1.sight := by
  have infos : (fun address => (cache.output.accounts.get? address).map (·.info)) =
      fun address => (cache'.output.accounts.get? address).map (·.info) := by
    funext address
    rw [cache.info_output, cache'.info_output, same]
  have logs : cache.logs = cache'.logs := congrArg Cache.Knowledge.logs same
  have transfers : cache.transfers = cache'.transfers := congrArg Cache.Knowledge.transfers same
  show Sight.output _ cache.logs cache.transfers = .output _ cache'.logs cache'.transfers
  rw [logs, transfers]
  exact congrArg (Sight.output · _ _) infos

namespace Stage

theorem sights_congr (context : Context ε) {stages stages' : List Stage}
    (warmed : List.Forall₂ Warmed stages stages') {cache cache' : Cache}
    (same : cache.knowledge = cache'.knowledge) :
    sights context stages cache = sights context stages' cache' := by
  induction warmed generalizing cache cache' with
  | nil => rfl
  | cons first _ ih =>
    cases first with
    | program warmed =>
      obtain ⟨seen, known⟩ := Program.run_warmed context warmed same
      have logs := congrArg Cache.Knowledge.logs known
      have transfers := congrArg Cache.Knowledge.transfers known
      simp only [Cache.knowledge] at logs transfers
      simp only [sights, seen, logs, transfers, ih known]
    | commit child =>
      have known := Cache.knowledge_commit_left same child
      have logs := congrArg Cache.Knowledge.logs known
      have transfers := congrArg Cache.Knowledge.transfers known
      simp only [Cache.knowledge] at logs transfers
      simp only [sights, logs, transfers, ih known]
    | takeOutput =>
      show cache.takeOutput.1.sight :: _ = cache'.takeOutput.1.sight :: _
      rw [Output.sight_congr same]
      exact congrArg _ (ih rfl)

/-- Warming is transparent to values: from any cache, over any ledger, further operations that only
warm leave every answer, all records and every output as they were. -/
theorem sights_warmed (context : Context ε) {stages stages' : List Stage}
    (warmed : List.Forall₂ Warmed stages stages') (cache : Cache) :
    sights context stages cache = sights context stages' cache :=
  sights_congr context warmed rfl

/-- A slot that is warmed in a nested call, and its account after it, are still read from the
ledger. -/
theorem sights_warmed_in_frame :
    let ledger : Ledger Unit := .ofElementary
      { nonce := fun _ => .known 0
        codeHash := fun _ => .known emptyCodeHash
        balance := fun _ => .known 0
        code := fun _ => .known []
        storage := fun _ _ => .known (some 42) }
    let address := FixedBytes.ofNat 20 1
    let plain : Program :=
      .frame (.perform (.writeSlot address 2 7) .done) .commit
        (.perform (.readSlot address 1) .done)
    let warmed : Program :=
      .frame (.perform (.warmSlot address 1) (.perform (.writeSlot address 2 7) .done)) .commit
        (.perform (.accountCost address) (.perform (.readSlot address 1) .done))
    plain.Warmed warmed ∧
      sights ⟨ledger, {}⟩ [.program plain, .takeOutput] {} =
        sights ⟨ledger, {}⟩ [.program warmed, .takeOutput] {} := by
  intro ledger address plain warmed
  have inserted : plain.Warmed warmed :=
    .frame (.insert _ rfl (.perform _ .done)) .commit (.insert _ rfl (.perform _ .done))
  exact ⟨inserted,
    sights_warmed ⟨ledger, {}⟩ (.cons (.program inserted) (.cons .takeOutput .nil)) {}⟩

end Stage

end Overlay
