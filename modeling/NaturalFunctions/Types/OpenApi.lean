import NaturalFunctions.Types.Arena
import NaturalFunctions.Schema.Structural

namespace NaturalFunctions.TypeArena

def primitiveComponent : PrimitiveKind → Schema
  | .boolean => .obj [("type", .str "boolean")]
  | .int => .obj [("format", .str "int64"), ("type", .str "integer")]
  | .byte => .obj [("format", .str "byte"), ("type", .str "string")]
  | .float => .obj [("format", .str "float"), ("type", .str "number")]
  | .decimal => .obj [("format", .str "double"), ("type", .str "number")]
  | .string => .obj [("type", .str "string")]
  | .nil => .obj [("type", .str "null")]

def recordComponent (fields : List (RecordField Schema)) : Schema :=
  let properties := fields.map fun field => (field.name, field.type)
  let required := (fields.filter fun field => !field.optional).map RecordField.name
  .obj ([("additionalProperties", .bool false), ("properties", Json.object properties)] ++
    (if required.isEmpty then [] else [("required", Json.ofStrings required)]) ++
    [("type", .str "object")])

def component (arena : TypeArena) (ty : TypeId) : Schema :=
  match _h : arena.node ty with
  | .primitive kind => primitiveComponent kind
  | .record fields =>
    recordComponent (fields.attach.map fun ⟨field, _⟩ =>
      { name := field.name, type := arena.component field.type, optional := field.optional })
  | .array element => .obj [("items", arena.component element), ("type", .str "array")]
  | .tuple members =>
    .obj [("items", .arr (members.attach.map fun ⟨member, _⟩ => arena.component member)),
      ("maxItems", Json.ofNat members.length), ("minItems", Json.ofNat members.length),
      ("type", .str "array")]
  | .union members => .obj [("oneOf", .arr (members.attach.map fun ⟨member, _⟩ => arena.component member))]
  | .named name _ => .obj [("$ref", .str ("#/components/schemas/" ++ name))]
  | .json => .obj []
  | .error => .obj []
  | .nominal _ _ => .obj []
termination_by ty
decreasing_by
  · apply arena.node_part_lt
    rw [_h]
    exact List.mem_map_of_mem (by assumption)
  · apply arena.node_part_lt
    rw [_h]
    simp [TypeNode.parts]
  · apply arena.node_part_lt
    rw [_h]
    simpa [TypeNode.parts]
  · apply arena.node_part_lt
    rw [_h]
    simpa [TypeNode.parts]

def openApiMapper (arena : TypeArena) : StructuralMapper := fun ty =>
  match arena.node ty with
  | .record _ => Schema.readBack (arena.component ty)
  | _ => none

end NaturalFunctions.TypeArena
