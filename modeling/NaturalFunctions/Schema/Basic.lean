import NaturalFunctions.Json.Basic

namespace NaturalFunctions

inductive PrimitiveKind where
  | boolean
  | int
  | byte
  | float
  | decimal
  | string
  | nil
deriving DecidableEq, Repr

def PrimitiveKind.jsonType : PrimitiveKind → String
  | .boolean => "boolean"
  | .int => "integer"
  | .byte => "number"
  | .float => "number"
  | .decimal => "number"
  | .string => "string"
  | .nil => "null"

abbrev Schema := Json

namespace Schema

def primitive (kind : PrimitiveKind) : Schema := .obj [("type", .str kind.jsonType)]

def anyJson : Schema :=
  .obj [("type", Json.ofStrings ["object", "array", "string", "number", "boolean", "null"])]

def arrayOf (items : Schema) : Schema := .obj [("items", items), ("type", .str "array")]

def tupleOf (items : List Schema) : Schema := .obj [("items", .arr items), ("type", .str "array")]

def anyOf (members : List Schema) : Schema :=
  .obj [("anyOf", .arr members), ("type", .str "object")]

def rootType? (schema : Schema) : Option String := (schema.get? "type").bind Json.text?

end Schema

end NaturalFunctions
