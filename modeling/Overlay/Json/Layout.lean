import Overlay.Json.Record

/-! How the values of a type are laid out in JSON texts: what is wanted of a text, and how values
are written and read. -/

set_option autoImplicit false

namespace Overlay.Json

structure Layout (α : Type) where
  schema : Schema
  write : α → Json
  read? : Json → Option α

namespace Layout

variable {α : Type}

def text (layout : Layout α) (value : α) : String := (layout.write value).print

def parse? (layout : Layout α) (text : String) : Option α :=
  (Json.parse? layout.schema text).bind layout.read?

def uint64 : Layout UInt64 := ⟨.any, .ofUInt64, uint64?⟩

end Layout

end Overlay.Json
