import Overlay.FixedBytes

/-! The precompiled contracts of each hardfork: the addresses from one up to a count. -/

set_option autoImplicit false

namespace Overlay

/-- Hardforks, oldest first. -/
inductive Hardfork where
  | homestead
  | byzantium
  | istanbul
  | berlin
  | cancun
  | prague
  | latest
  deriving DecidableEq, Ord

/-- The last two bytes as a number, if all other bytes are zero. -/
def Address.short? (address : Address) : Option Nat :=
  if (address.bytes.take 18).all fun byte => byte = 0 then
    some (Bytes.toNat (address.bytes.drop 18))
  else none

namespace Hardfork

def all : List Hardfork :=
  [.homestead, .byzantium, .istanbul, .berlin, .cancun, .prague, .latest]

def name : Hardfork → String
  | homestead => "HOMESTEAD"
  | byzantium => "BYZANTIUM"
  | istanbul => "ISTANBUL"
  | berlin => "BERLIN"
  | cancun => "CANCUN"
  | prague => "PRAGUE"
  | latest => "LATEST"

def ofName? (name : String) : Option Hardfork :=
  all.find? fun fork => fork.name = name

def precompileCount : Hardfork → Nat
  | homestead => 4
  | byzantium => 8
  | istanbul | berlin => 9
  | cancun => 10
  | prague | latest => 17

def knownPrecompiles : List Address :=
  (List.range 17).map fun index => Address.ofUInt64 (UInt64.ofNat index + 1)

def precompiles (fork : Hardfork) : List Address :=
  knownPrecompiles.take fork.precompileCount

/-- Whether the address is a precompile, read off its bytes. -/
def isPrecompile (fork : Hardfork) (address : Address) : Bool :=
  address.short?.any fun number => decide (1 ≤ number ∧ number ≤ fork.precompileCount)

theorem ofName?_name (fork : Hardfork) : ofName? fork.name = some fork := by
  cases fork <;> decide

end Hardfork

def Address.isPrecompile (address : Address) : Bool :=
  Hardfork.latest.isPrecompile address

end Overlay
