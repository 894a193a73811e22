import Overlay.Json.Parser

/-!
How values of the library are laid out in JSON. A record is an object: its fields may come in any
order, unknown ones are passed over, and a known one must not come twice. It may also be an array of
exactly its fields in their order.
-/

set_option autoImplicit false

namespace Overlay.Json

def lookup? (members : List (String × Json)) (name : String) : Option Json :=
  (members.find? fun member => member.1 = name).map Prod.snd

def isRepeated (members : List (String × Json)) (name : String) : Bool :=
  decide (1 < (members.filter fun member => member.1 = name).length)

/-- The fields of an object in the order of the names; an absent one is none. -/
def named? (names : List String) : Json → Option (List (Option Json))
  | object members =>
    if names.any (isRepeated members) then none else some (names.map (lookup? members))
  | _ => none

def fields? (names : List String) : Json → Option (List (Option Json))
  | array items => if items.length = names.length then some (items.map some) else none
  | json => json.named? names

/-- The name of a case without content, alone or as the key of a null. -/
def case? : Json → Option String
  | string name => some name
  | object [(name, null)] => some name
  | _ => none

def nat? : Json → Option Nat
  | nat value => if value < 2 ^ 64 then some value else none
  | _ => none

def uint64? (json : Json) : Option UInt64 := json.nat?.map UInt64.ofNat

def byte? (json : Json) : Option UInt8 :=
  json.nat?.bind fun value => if value < 256 then some (UInt8.ofNat value) else none

def bool? : Json → Option Bool
  | bool value => some value
  | _ => none

def text? : Json → Option String
  | string text => some text
  | _ => none

def optional? {α : Type} (read : Json → Option α) : Json → Option (Option α)
  | null => some none
  | json => (read json).map some

def list? {α : Type} (read : Json → Option α) : Json → Option (List α)
  | array items => items.mapM read
  | _ => none

def entries? {κ α : Type} (key : String → Option κ) (value : Json → Option α) :
    Json → Option (List (κ × α))
  | object members => members.mapM fun member => return (← key member.1, ← value member.2)
  | _ => none

def ofUInt64 (value : UInt64) : Json := nat value.toNat

def ofOption {α : Type} (write : α → Json) (value : Option α) : Json := value.elim null write

def ofList {α : Type} (write : α → Json) (values : List α) : Json := array (values.map write)

/-- An object that is a map, its members in the order of their keys as texts. -/
def ofSorted (members : List (String × Json)) : Json :=
  object (members.mergeSort fun first second => decide (first.1 ≤ second.1))

end Overlay.Json
