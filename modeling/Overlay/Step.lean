import Overlay.Address.Checksum
import Overlay.Cache
import Overlay.Ledger

/-!
One step of a cache over its ledger: an answer or a fault, the cache that is left, which a fault
does not undo, and the queries that were sent.
-/

set_option autoImplicit false

namespace Overlay

inductive Fault (ε : Type) where
  /-- The ledger failed to answer a question about the address. -/
  | unanswered (address : Address) (cause : ε)
  | nonceOverflow (address : Address)
  | nonceDecreased
  deriving DecidableEq

def Fault.message {ε : Type} : Fault ε → String
  | .unanswered address _ => "account source query for " ++ address.checksumText ++ " failed"
  | .nonceOverflow address => "nonce of " ++ address.checksumText ++ " overflows"
  | .nonceDecreased => "nonce decreased"

structure Step (ε α : Type) where
  result : Except (Fault ε) α
  cache : Cache
  queries : List Query

structure Answer (ε α : Type) where
  result : Except (Fault ε) α
  queries : List Query

namespace Step

variable {ε α β : Type}

def answer (step : Step ε α) : Answer ε α := ⟨step.result, step.queries⟩

def done (value : α) (cache : Cache) : Step ε α := ⟨.ok value, cache, []⟩

def fault (fault : Fault ε) (cache : Cache) : Step ε α := ⟨.error fault, cache, []⟩

def ask (address : Address) (fetch : Fetch ε α) (cache : Cache) : Step ε α where
  result := fetch.result.mapError (Fault.unanswered address)
  cache := cache
  queries := fetch.queries

def andThen (first : Step ε α) (next : α → Cache → Step ε β) : Step ε β :=
  match first.result with
  | .error fault => ⟨.error fault, first.cache, first.queries⟩
  | .ok value =>
    let second := next value first.cache
    { second with queries := first.queries ++ second.queries }

def map (f : α → β) (step : Step ε α) : Step ε β :=
  { step with result := step.result.map f }

end Step

end Overlay
