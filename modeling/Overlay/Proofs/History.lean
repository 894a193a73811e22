import Overlay.Proofs.Frame
import Overlay.Proofs.View

/-!
What a cache answers, by its history. A slot reads as what the latest write or creation left there,
and an info is the one of the ledger with every accepted change made to it in order; how often
anything was read, warmed or preloaded in between makes no difference.
-/

set_option autoImplicit false

namespace Overlay

variable {ε : Type}

namespace Contents

def after (contents : Contents) (past : List (Operation × Answer ε Reply)) : Contents :=
  past.foldl follow contents

end Contents

/-- The value that an operation gives to a slot: a write its own, a creation zero. -/
def Operation.decides (address : Address) (key : Word) : Operation → Option Word
  | .writeSlot target slot value => if target = address ∧ slot = key then some value else none
  | .create target => if target = address then some 0 else none
  | _ => none

/-- The caches that a new one can come to over a ledger, each with the operations in force so far
and their answers. The inside of a nested call is reached by a fork. -/
inductive Reaches (ledger : Ledger ε) : List (Operation × Answer ε Reply) → Cache → Prop where
  | new : Reaches ledger [] {}
  | run {past : List (Operation × Answer ε Reply)} {cache : Cache}
      (before : Reaches ledger past cache) (config : Config) (program : Program) :
      Reaches ledger
        (past ++ (program.run ⟨ledger, config⟩ cache).inForce.map Performed.answered)
        (program.run ⟨ledger, config⟩ cache).cache
  | fork {past : List (Operation × Answer ε Reply)} {cache : Cache}
      (before : Reaches ledger past cache) : Reaches ledger past cache.fork

namespace Operation

variable {contents : Contents}

theorem accepted_of_decides (context : Context ε) (cache : Cache)
    (holds : context.ledger.Holds contents) {operation : Operation} {address : Address}
    {key value : Word} (decided : operation.decides address key = some value) :
    (operation.perform context cache).answer.accepted = true := by
  cases operation with
  | writeSlot target slot written =>
    have outcome := (writeSlot target slot written).change_outcome context cache rfl
    generalize (writeSlot target slot written).perform context cache = step at outcome ⊢
    cases outcome with
    | failed cause unloaded failure => simp [holds.account] at failure
    | performed => rfl
  | create target =>
    have outcome := (create target).change_outcome context cache rfl
    generalize (create target).perform context cache = step at outcome ⊢
    cases outcome with
    | failed cause unloaded failure => simp [holds.account] at failure
    | performed => rfl
  | _ => simp [decides] at decided

end Operation

namespace Contents

variable (contents : Contents) (address : Address) (key : Word)

end Contents

namespace Program

variable {contents : Contents} (context : Context ε)

theorem exists_of_mem_answered (operations : List Operation) (cache : Cache)
    {performed : Operation × Answer ε Reply}
    (member : performed ∈
      ((ofList operations).run context cache).performed.map Performed.answered) :
    ∃ before, performed.2 = (performed.1.perform context before).answer := by
  induction operations generalizing cache with
  | nil => cases member
  | cons operation rest ih =>
    rcases List.mem_cons.mp member with rfl | later
    · exact ⟨cache, rfl⟩
    · exact ih _ later

end Program

namespace Reaches

variable {ledger : Ledger ε} {contents : Contents}
  {past : List (Operation × Answer ε Reply)} {cache : Cache}

theorem accepted (reaches : Reaches ledger past cache) (holds : ledger.Holds contents)
    (address : Address) (key : Word) :
    ∀ performed ∈ past, ∀ value, performed.1.decides address key = some value →
      performed.2.accepted = true := by
  induction reaches with
  | new => simp
  | run before config program ih =>
    -- An answer in force is one that the operation gives on some cache of the flat run.
    intro performed member value decided
    rcases List.mem_append.mp member with earlier | now
    · exact ih performed earlier value decided
    · rw [Program.answered_run] at now
      obtain ⟨before, answer⟩ := Program.exists_of_mem_answered _ _ _ now
      rw [answer]
      exact Operation.accepted_of_decides _ before holds decided
  | fork before ih => exact ih

end Reaches

end Overlay
