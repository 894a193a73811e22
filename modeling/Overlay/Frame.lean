import Overlay.Operation

/-!
Programs with nested frames. A frame runs its body on a fork of the cache; the cache waits, and then
takes the fork over or drops it. A step is in force if it lies in no reverted frame.
-/

set_option autoImplicit false

namespace Overlay

inductive Fate where
  | commit
  | revert
  deriving DecidableEq

inductive Program where
  | done
  | perform (operation : Operation) (rest : Program)
  | frame (body : Program) (fate : Fate) (rest : Program)
  deriving DecidableEq

/-- One operation of a run, with the step that it took. -/
structure Performed (ε : Type) where
  operation : Operation
  step : Step ε Reply
  inForce : Bool := true

structure Run (ε : Type) where
  cache : Cache
  performed : List (Performed ε)

namespace Fate

variable {ε : Type}

def close (fate : Fate) (parent child : Cache) : Cache :=
  match fate with
  | commit => parent.commit child
  | revert => parent

def apply (fate : Fate) (performed : Performed ε) : Performed ε :=
  match fate with
  | commit => performed
  | revert => { performed with inForce := false }

end Fate

namespace Program

variable {ε : Type}

/-- Runs a program; a fault ends its own operation only. -/
def run (context : Context ε) : Program → Cache → Run ε
  | done, cache => ⟨cache, []⟩
  | perform operation rest, cache =>
    let step := operation.perform context cache
    let after := rest.run context step.cache
    ⟨after.cache, { operation, step } :: after.performed⟩
  | frame body fate rest, cache =>
    let child := body.run context cache.fork
    let after := rest.run context (fate.close cache child.cache)
    ⟨after.cache, child.performed.map fate.apply ++ after.performed⟩

def ofList : List Operation → Program
  | [] => done
  | operation :: rest => perform operation (ofList rest)

/-- The operations in no reverted frame, in order and without their frames. -/
def inForce : Program → List Operation
  | done => []
  | perform operation rest => operation :: rest.inForce
  | frame body .commit rest => body.inForce ++ rest.inForce
  | frame _ .revert rest => rest.inForce

end Program

end Overlay
