import Overlay.Json.Octets
import Overlay.Json.Schema
import Overlay.Json.Skip

/-!
Reading JSON from characters for a schema. A value that is passed over becomes a null. Arrays and
objects nest at most 127 deep, those that are passed over set aside.
-/

set_option autoImplicit false

namespace Overlay.Json

mutual

/-- Reads a value with `room` for that many brackets inside one another. Twice the length of the
input is fuel enough. -/
def value? : (fuel room : Nat) → Schema → List Char → Option (Json × List Char)
  | 0, _, _, _ => none
  | fuel + 1, _, .ignored, input => (skip? fuel [] input).map fun rest => (.null, rest)
  | fuel + 1, room, schema, input =>
    match skipBlanks input with
    | 'n' :: 'u' :: 'l' :: 'l' :: rest => some (.null, rest)
    | 't' :: 'r' :: 'u' :: 'e' :: rest => some (.bool true, rest)
    | 'f' :: 'a' :: 'l' :: 's' :: 'e' :: rest => some (.bool false, rest)
    | '"' :: rest => (string? rest).map fun (text, rest) => (.string text, rest)
    | '[' :: rest =>
      match room, schema, skipBlanks rest with
      | 0, _, _ => none
      | _, .bytes size, rest =>
        (Octets.read? size [] rest).map fun (bytes, rest) =>
          (.array (bytes.map fun byte => .nat byte.toNat), rest)
      | _, _, ']' :: rest => some (.array [], rest)
      | room + 1, schema, rest =>
        (items? fuel room schema [] 0 rest).map fun (items, rest) => (.array items, rest)
    | '\x7b' :: rest =>
      match room, skipBlanks rest with
      | 0, _ => none
      | _, '\x7d' :: rest => some (.object [], rest)
      | room + 1, rest =>
        (members? fuel room schema [] rest).map fun (members, rest) => (.object members, rest)
    | rest =>
      match Number.read? rest with
      | none => none
      | some (number, rest) => if number.isFinite then some (number.toJson, rest) else none

/-- The items of an array up to its end, of which there is one at least; `seen` holds those read,
last first, and `index` is their number. -/
def items? : (fuel room : Nat) → Schema → (seen : List Json) → (index : Nat) → List Char →
    Option (List Json × List Char)
  | 0, _, _, _, _, _ => none
  | fuel + 1, room, schema, seen, index, input =>
    match value? fuel room (schema.item index) input with
    | none => none
    | some (item, rest) =>
      match skipBlanks rest with
      | ',' :: rest => items? fuel room schema (item :: seen) (index + 1) rest
      | ']' :: rest => some ((item :: seen).reverse, rest)
      | _ => none

def members? : (fuel room : Nat) → Schema → (seen : List (String × Json)) → List Char →
    Option (List (String × Json) × List Char)
  | 0, _, _, _, _ => none
  | fuel + 1, room, schema, seen, input =>
    match skipBlanks input with
    | '"' :: rest =>
      match string? rest with
      | none => none
      | some (key, rest) =>
        match skipBlanks rest with
        | ':' :: rest =>
          match value? fuel room (schema.member key) rest with
          | none => none
          | some (value, rest) =>
            match skipBlanks rest with
            | ',' :: rest => members? fuel room schema ((key, value) :: seen) rest
            | '\x7d' :: rest => some (((key, value) :: seen).reverse, rest)
            | _ => none
        | _ => none
    | _ => none

end

def ofChars? (schema : Schema) (input : List Char) : Option Json :=
  match value? (2 * input.length + 2) 127 schema input with
  | some (value, rest) => if (skipBlanks rest).isEmpty then some value else none
  | none => none

def parse? (schema : Schema) (text : String) : Option Json := ofChars? schema text.toList

end Overlay.Json
