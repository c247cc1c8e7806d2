import NaturalFunctions.Schema.Basic

namespace NaturalFunctions

abbrev TypeId := Nat

structure RecordField (τ : Type) where
  name : String
  type : τ
  optional : Bool
deriving DecidableEq, Repr

inductive TypeShape where
  | primitive (kind : PrimitiveKind)
  | record (fields : List (RecordField TypeId))
  | array (element : TypeId)
  | tuple (members : List TypeId)
  | union (members : List TypeId)
  | reference (name : String) (target : TypeId)
  | json
  | error
  | other (name : String)
deriving DecidableEq, Repr

namespace TypeShape

def parts : TypeShape → List TypeId
  | .record fields => fields.map RecordField.type
  | .array element => [element]
  | .tuple members => members
  | .union members => members
  | _ => []

def target? : TypeShape → Option TypeId
  | .reference _ target => some target
  | _ => none

def next (shape : TypeShape) : List TypeId := shape.parts ++ shape.target?.toList

end TypeShape

/-- Finitely many types lead to another one, and types are cyclic only through references: the rank
falls from a type to its parts. -/
structure SemanticModel where
  shape : TypeId → TypeShape
  isSubtype : TypeId → TypeId → Bool
  errorType : TypeId
  jsonType : TypeId
  moduleType : String → String → String → Option TypeId
  inner : List TypeId
  rank : TypeId → Nat
  mem_inner : ∀ ty, (shape ty).next ≠ [] → ty ∈ inner
  rank_part : ∀ ty, ∀ part ∈ (shape ty).parts, rank part < rank ty

abbrev StructuralMapper := TypeId → Option Schema

end NaturalFunctions
