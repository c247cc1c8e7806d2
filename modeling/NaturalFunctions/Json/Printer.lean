import NaturalFunctions.Json.Basic
import NaturalFunctions.Json.Digits

namespace NaturalFunctions

def Number.chars : Number → List Char
  | .int value => (if value < 0 then ['-'] else []) ++ Nat.toDigits 10 value.natAbs
  | .float value => value.chars

namespace Json

def escape (c : Char) : List Char :=
  match c with
  | '"' => ['\\', '"']
  | '\\' => ['\\', '\\']
  | '\x08' => ['\\', 'b']
  | '\x0c' => ['\\', 'f']
  | '\n' => ['\\', 'n']
  | '\r' => ['\\', 'r']
  | '\t' => ['\\', 't']
  | c =>
    if c.toNat < 0x20 then
      ['\\', 'u', '0', '0', (c.toNat / 16).digitChar, (c.toNat % 16).digitChar]
    else [c]

def quote (text : List Char) : List Char :=
  '"' :: text.flatMap escape ++ ['"']

mutual

def chars : Json → List Char
  | .null => ['n', 'u', 'l', 'l']
  | .bool true => ['t', 'r', 'u', 'e']
  | .bool false => ['f', 'a', 'l', 's', 'e']
  | .num value => value.chars
  | .str text => quote text.toList
  | .arr items => '[' :: itemsChars items ++ [']']
  | .obj members => '{' :: membersChars members ++ ['}']

def itemsChars : List Json → List Char
  | [] => []
  | [item] => chars item
  | item :: rest => chars item ++ ',' :: itemsChars rest

def membersChars : List (String × Json) → List Char
  | [] => []
  | [(key, value)] => quote key.toList ++ ':' :: chars value
  | (key, value) :: rest => quote key.toList ++ ':' :: chars value ++ ',' :: membersChars rest

end

def text (tree : Json) : String := String.ofList tree.chars

def plain : Json → String
  | .str text => text
  | tree => tree.text

end Json

end NaturalFunctions
