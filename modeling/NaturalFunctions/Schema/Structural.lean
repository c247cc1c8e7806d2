import NaturalFunctions.Schema.Basic

/-!
Structural schemas: trees whose keywords have values of the right form. Reading one gives its
written form back, in which members without effect are left out and required names are a sorted set.
-/

namespace NaturalFunctions.Schema

inductive Facet where
  | kinds
  | text
  | flag
  | mark
  | values
  | samples
  | bound
  | count
  | names
  | schema
  | schemas
  | positions
  | named
  | free
deriving DecidableEq, Repr

def facets : List (String × Facet) :=
  [("type", .kinds), ("format", .text), ("$ref", .text), ("$id", .text), ("title", .text),
    ("description", .text), ("pattern", .text), ("enum", .values), ("examples", .samples),
    ("deprecated", .mark), ("readOnly", .mark), ("writeOnly", .mark), ("uniqueItems", .flag),
    ("allOf", .schemas), ("anyOf", .schemas), ("oneOf", .schemas), ("not", .schema),
    ("if", .schema), ("then", .schema), ("else", .schema), ("additionalItems", .schema),
    ("contains", .schema), ("additionalProperties", .schema), ("propertyNames", .schema),
    ("items", .positions), ("minimum", .bound), ("maximum", .bound), ("exclusiveMinimum", .bound),
    ("exclusiveMaximum", .bound), ("multipleOf", .bound), ("minLength", .count),
    ("maxLength", .count), ("minItems", .count), ("maxItems", .count), ("minProperties", .count),
    ("maxProperties", .count), ("properties", .named), ("patternProperties", .named),
    ("required", .names)]

def facetOf (key : String) : Facet := (facets.lookup key).getD .free

def isKind (name : String) : Bool :=
  ["null", "boolean", "object", "array", "number", "string", "integer"].contains name

def kind? (tree : Json) : Option Json :=
  tree.caseName?.bind fun name => if isKind name then some (.str name) else none

/-- The written form of a value that holds no schema; the inner `none` leaves the member out. -/
def Facet.read : Facet → Json → Option (Option Json)
  | .mark, .bool b => some (if b then some (.bool b) else none)
  | .mark, _ => none
  | .samples, .arr items => some (if items.isEmpty then none else some (.arr items))
  | .samples, _ => none
  | .names, .arr items => do
    let found ← items.mapM Json.text?
    let table := Table.ofList (found.map fun name => (name, ()))
    return if found.isEmpty then none else some (Json.ofStrings (table.map Prod.fst))
  | .names, _ => none
  | .free, tree => some (some tree)
  | _, .null => some none
  | .kinds, .arr items => (items.mapM kind?).map fun kinds => some (.arr kinds)
  | .kinds, tree => (kind? tree).map some
  | .text, .str t => some (some (.str t))
  | .flag, .bool b => some (some (.bool b))
  | .values, .arr items => some (some (.arr items))
  | .bound, .num (.int value) => some (some (.num (.float (Double.ofInt value))))
  | .bound, .num (.float value) => some (some (.num (.float value)))
  | .count, .num (.int value) =>
    if 0 ≤ value ∧ value < 4294967296 then some (some (.num (.int value))) else none
  | _, _ => none

mutual

def readBack : Json → Option Json
  | .bool b => some (.bool b)
  | .obj members => (readMembers members).map .obj
  | _ => none

def readMembers : List (String × Json) → Option (List (String × Json))
  | [] => some []
  | (key, value) :: rest => do
    let written ← match facetOf key, value with
      | .schema, .null => some none
      | .schema, tree => (readBack tree).map some
      | .schemas, .null => some none
      | .schemas, .arr items => (readItems items).map fun items => some (.arr items)
      | .schemas, _ => none
      | .positions, .null => some none
      | .positions, .arr items => (readItems items).map fun items => some (.arr items)
      | .positions, tree => (readBack tree).map some
      | .named, .obj properties => (readNamed properties).map fun properties =>
          if properties.isEmpty then none else some (.obj properties)
      | .named, _ => none
      | facet, tree => facet.read tree
    let others ← readMembers rest
    return match written with
      | none => others
      | some value => (key, value) :: others

def readItems : List Json → Option (List Json)
  | [] => some []
  | item :: rest => do
    let item ← readBack item
    let rest ← readItems rest
    return item :: rest

def readNamed : List (String × Json) → Option (List (String × Json))
  | [] => some []
  | (name, value) :: rest => do
    let value ← readBack value
    let rest ← readNamed rest
    return (name, value) :: rest

end

end NaturalFunctions.Schema
