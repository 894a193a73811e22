import Overlay.Json.Number

/-! Passing over a value that nobody wants. It may nest to any depth, and its strings and numbers
need only have their form. -/

set_option autoImplicit false

namespace Overlay.Json

inductive Bracket where
  | array
  | object

def skipKey? (input : List Char) : Option (List Char) :=
  match skipBlanks input with
  | '"' :: rest =>
    match skipString? rest with
    | none => none
    | some rest =>
      match skipBlanks rest with
      | ':' :: rest => some rest
      | _ => none
  | _ => none

/-- Goes on after a value, up to the start of the next one. All values are passed when nothing
encloses the place any more. -/
def resume? : (enclosing : List Bracket) → List Char → Option (List Bracket × List Char)
  | [], rest => some ([], rest)
  | .array :: outer, input =>
    match skipBlanks input with
    | ',' :: rest => some (.array :: outer, rest)
    | ']' :: rest => resume? outer rest
    | _ => none
  | .object :: outer, input =>
    match skipBlanks input with
    | ',' :: rest => (skipKey? rest).map fun rest => (.object :: outer, rest)
    | '\x7d' :: rest => resume? outer rest
    | _ => none

/-- The start of a value: the bracket that it opens, if it is not empty, and what follows. -/
def start? (input : List Char) : Option (Option Bracket × List Char) :=
  match skipBlanks input with
  | 'n' :: 'u' :: 'l' :: 'l' :: rest => some (none, rest)
  | 't' :: 'r' :: 'u' :: 'e' :: rest => some (none, rest)
  | 'f' :: 'a' :: 'l' :: 's' :: 'e' :: rest => some (none, rest)
  | '"' :: rest => (skipString? rest).map fun rest => (none, rest)
  | '[' :: rest =>
    match skipBlanks rest with
    | ']' :: rest => some (none, rest)
    | rest => some (some .array, rest)
  | '\x7b' :: rest =>
    match skipBlanks rest with
    | '\x7d' :: rest => some (none, rest)
    | rest => (skipKey? rest).map fun rest => (some .object, rest)
  | rest => (Number.read? rest).map fun (_, rest) => (none, rest)

def skip? : (fuel : Nat) → (enclosing : List Bracket) → List Char → Option (List Char)
  | 0, _, _ => none
  | fuel + 1, enclosing, input =>
    match start? input with
    | none => none
    | some (some bracket, rest) => skip? fuel (bracket :: enclosing) rest
    | some (none, rest) =>
      match resume? enclosing rest with
      | none => none
      | some ([], rest) => some rest
      | some (enclosing, rest) => skip? fuel enclosing rest

end Overlay.Json
