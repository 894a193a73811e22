import Overlay.Gas
import Overlay.Precompile

/-! The configuration of a cache: prices and the precompiles that are warm from the start. -/

set_option autoImplicit false

namespace Overlay

structure Config where
  gas : Gas.Schedule := {}
  hardfork : Hardfork := .latest
  /-- Precompiles of the chain beside those of the hardfork. -/
  extraPrecompiles : List Address := []
  deriving DecidableEq

namespace Config

def withGas (config : Config) (gas : Gas.Schedule) : Config := { config with gas }

def withHardfork (config : Config) (hardfork : Hardfork) : Config := { config with hardfork }

def withExtraPrecompile (config : Config) (address : Address) : Config :=
  if address ∈ config.extraPrecompiles then config
  else { config with extraPrecompiles := config.extraPrecompiles ++ [address] }

def precompiles (config : Config) : List Address :=
  config.hardfork.precompiles ++
    config.extraPrecompiles.filter fun address => address ∉ config.hardfork.precompiles

end Config

end Overlay
