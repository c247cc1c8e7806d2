import NaturalFunctions.Failure
import NaturalFunctions.Types.Shape
import NaturalFunctions.Unseen

namespace NaturalFunctions

inductive Descriptor where
  | primitive (kind : PrimitiveKind)
  | record (fields : List (RecordField Descriptor))
  | array (element : Descriptor)
  | tuple (members : List Descriptor)
  | union (members : List Descriptor)
  | reference (definition : Nat)
  | json
  | error
  | other (name : String)
deriving Repr

instance : Inhabited Descriptor := ⟨.error⟩

def Descriptor.nil : Descriptor := .primitive .nil

def Descriptor.optional (type : Descriptor) : Descriptor := .union [type, .nil]

structure Definition where
  name : String
  body : Option Descriptor
  schema : Option Schema
deriving Repr

abbrev Definitions := List Definition

namespace Definitions

def name (defs : Definitions) (i : Nat) : String := (defs[i]?.map Definition.name).getD ""

def body? (defs : Definitions) (i : Nat) : Option Descriptor := defs[i]?.bind Definition.body

def schema? (defs : Definitions) (i : Nat) : Option Schema := defs[i]?.bind Definition.schema

def define (defs : Definitions) (i : Nat) (body : Descriptor) : Except Failure Definitions :=
  match defs.body? i with
  | some _ => .error (.invalid ("type `" ++ defs.name i ++ "` is already defined"))
  | none => .ok (defs.modify i fun definition => { definition with body := some body })

def indices (defs : Definitions) : List Nat := List.range defs.length

theorem mem_indices_of_body {defs : Definitions} {i : Nat} {body : Descriptor}
    (h : defs.body? i = some body) : i ∈ defs.indices := by
  unfold body? at h
  cases hd : defs[i]? with
  | none => simp [hd] at h
  | some definition =>
    obtain ⟨hi, _⟩ := List.getElem?_eq_some_iff.mp hd
    simpa [indices] using hi

end Definitions

end NaturalFunctions
