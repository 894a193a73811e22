import Overlay.Json

/-! What a reader wants of a value: which parts are kept, which are passed over and where an array
is one of bytes. -/

set_option autoImplicit false

namespace Overlay.Json

inductive Schema where
  /-- A value that is kept as it is. -/
  | any
  /-- A value that is passed over. -/
  | ignored
  /-- Bytes of which the number is known. -/
  | bytes (size : Nat)
  | list (item : Schema)
  /-- An object of any keys. -/
  | map (value : Schema)
  /-- An object of certain keys and others. -/
  | record (fields : List (String × Schema)) (others : Schema)

namespace Schema

/-- What is wanted of an item of an array. A record may be given as the array of its fields. -/
def item : Schema → (index : Nat) → Schema
  | list item, _ => item
  | record fields _, index => (fields[index]?.map Prod.snd).getD any
  | _, _ => any

def member : Schema → (key : String) → Schema
  | map value, _ => value
  | record fields others, key => (fields.lookup key).getD others
  | _, _ => any

end Schema

end Overlay.Json
