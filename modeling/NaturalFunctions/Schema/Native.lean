import NaturalFunctions.Schema.Normal

namespace NaturalFunctions

inductive Native where
  | integer (format : String) (low high : Int)
  | double
  | bool
  | text
  | unit
  | option (item : Native)
  | list (item : Native)
  | tuple (items : List Native)
  | record (fields : List (String × Native))
deriving Repr

namespace Native

def int32 : Native := .integer "int32" (-2147483648) 2147483647

def int64 : Native := .integer "int64" (-9223372036854775808) 9223372036854775807

def uint8 : Native := .integer "uint8" 0 255

def isOption : Native → Bool
  | .option _ => true
  | _ => false

def nullable (schema : Schema) : Schema :=
  match schema with
  | .obj members => .obj (members.map fun
      | ("type", .str kind) => ("type", Json.ofStrings [kind, "null"])
      | ("type", .arr kinds) => ("type", .arr (kinds ++ [.str "null"]))
      | member => member)
  | tree => tree

mutual

def rawSchema : Native → Schema
  | .integer format low _ =>
    if low = 0 then
      .obj [("format", .str format), ("minimum", .num (.float (Double.ofInt 0))),
        ("type", .str "integer")]
    else .obj [("format", .str format), ("type", .str "integer")]
  | .double => .obj [("format", .str "double"), ("type", .str "number")]
  | .bool => .obj [("type", .str "boolean")]
  | .text => .obj [("type", .str "string")]
  | .unit => .obj [("type", .str "null")]
  | .option item => nullable (rawSchema item)
  | .list item => .obj [("items", rawSchema item), ("type", .str "array")]
  | .tuple items =>
    .obj [("items", .arr (itemSchemas items)), ("maxItems", Json.ofNat items.length),
      ("minItems", Json.ofNat items.length), ("type", .str "array")]
  | .record fields =>
    let required := (fields.filter fun field => !field.2.isOption).map fun field => (field.1, ())
    .obj [("properties", Json.object (fieldSchemas fields)),
      ("required", Json.ofStrings ((Table.ofList required).map Prod.fst)), ("type", .str "object")]

def itemSchemas : List Native → List Schema
  | [] => []
  | item :: rest => rawSchema item :: itemSchemas rest

def fieldSchemas : List (String × Native) → List (String × Schema)
  | [] => []
  | (name, type) :: rest => (name, rawSchema type) :: fieldSchemas rest

end

def responseSchema (type : Native) : Schema := Schema.normalize type.rawSchema

mutual

def decode? : Native → Json → Option Json
  | .integer _ low high, .num (.int value) =>
    if low ≤ value ∧ value ≤ high then some (.num (.int value)) else none
  | .double, .num (.int value) => some (.num (.float (Double.ofInt value)))
  | .double, .num (.float value) => some (.num (.float value))
  | .bool, .bool value => some (.bool value)
  | .text, .str value => some (.str value)
  | .unit, .null => some .null
  | .option _, .null => some .null
  | .option item, value => decode? item value
  | .list item, .arr values => (values.mapM (decode? item)).map .arr
  | .tuple items, .arr values => (decodeItems? items values).map .arr
  | .record fields, .obj members => (decodeMembers? fields members).map .obj
  | .record fields, .arr values => (decodeFields? fields values).map .obj
  | _, _ => none

def decodeItems? : List Native → List Json → Option (List Json)
  | [], [] => some []
  | item :: items, value :: values => do
    let value ← decode? item value
    let values ← decodeItems? items values
    return value :: values
  | _, _ => none

def decodeMembers? : List (String × Native) → List (String × Json) → Option (List (String × Json))
  | [], _ => some []
  | (name, type) :: fields, members => do
    let value ← match members.lookup name with
      | some value => decode? type value
      | none => if type.isOption then some .null else none
    let rest ← decodeMembers? fields members
    return (name, value) :: rest

def decodeFields? : List (String × Native) → List Json → Option (List (String × Json))
  | [], [] => some []
  | (name, type) :: fields, value :: values => do
    let value ← decode? type value
    let rest ← decodeFields? fields values
    return (name, value) :: rest
  | _, _ => none

end

end Native

end NaturalFunctions
