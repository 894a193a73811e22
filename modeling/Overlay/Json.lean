/-! JSON values and their compact text. -/

set_option autoImplicit false

namespace Overlay

inductive Json where
  | null
  | bool (value : Bool)
  | nat (value : Nat)
  /-- A number that is not written as digits alone. -/
  | decimal (lexeme : String)
  | string (text : String)
  | array (items : List Json)
  | object (members : List (String × Json))

namespace Json

/-- A character inside quotes. Quotes, backslashes and control characters are escaped. -/
def escapeChar (c : Char) : String :=
  match c with
  | '"' => "\\\""
  | '\\' => "\\\\"
  | '\n' => "\\n"
  | '\r' => "\\r"
  | '\t' => "\\t"
  | '\x08' => "\\b"
  | '\x0c' => "\\f"
  | _ =>
    if c.toNat < 32 then
      "\\u00" ++ String.ofList [Nat.digitChar (c.toNat / 16), Nat.digitChar (c.toNat % 16)]
    else c.toString

def quote (text : String) : String :=
  text.toList.foldl (fun quoted c => quoted ++ escapeChar c) "\"" ++ "\""

mutual

def print : Json → String
  | null => "null"
  | bool true => "true"
  | bool false => "false"
  | nat value => value.repr
  | decimal lexeme => lexeme
  | string text => quote text
  | array items => "[" ++ printItems items ++ "]"
  | object members => "\x7b" ++ printMembers members ++ "\x7d"

def printItems : List Json → String
  | [] => ""
  | [item] => print item
  | item :: rest => print item ++ "," ++ printItems rest

def printMembers : List (String × Json) → String
  | [] => ""
  | [(key, value)] => quote key ++ ":" ++ print value
  | (key, value) :: rest => quote key ++ ":" ++ print value ++ "," ++ printMembers rest

end

end Json

end Overlay
