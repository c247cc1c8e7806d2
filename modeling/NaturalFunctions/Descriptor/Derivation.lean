import NaturalFunctions.Descriptor.Basic

namespace NaturalFunctions.Definitions

def deriveFrom (defs : Definitions) (path : List Nat) (type : Descriptor) : Option Schema :=
  match type with
  | .primitive kind => some (Schema.primitive kind)
  | .json => some Schema.anyJson
  | .array element => (defs.deriveFrom path element).map Schema.arrayOf
  | .tuple members =>
    (members.mapM fun member => defs.deriveFrom path member).map Schema.tupleOf
  | .union members =>
    (members.mapM fun member => defs.deriveFrom path member).map Schema.anyOf
  | .reference i =>
    match defs.schema? i with
    | some schema => some schema
    | none =>
      if _hp : i ∈ path then none
      else
        match _h : defs.body? i with
        | some body => defs.deriveFrom (i :: path) body
        | none => none
  | .record _ => none
  | .error => none
  | .other _ => none
termination_by (unseen defs.indices path, sizeOf type)
decreasing_by
  · exact Prod.Lex.right _ (by simp)
  · exact Prod.Lex.right _ (by
      have := List.sizeOf_lt_of_mem ‹member ∈ members›
      simp only [Descriptor.tuple.sizeOf_spec]
      omega)
  · exact Prod.Lex.right _ (by
      have := List.sizeOf_lt_of_mem ‹member ∈ members›
      simp only [Descriptor.union.sizeOf_spec]
      omega)
  · exact Prod.Lex.left _ _ (unseen_cons_lt (mem_indices_of_body _h) _hp)

def derive (defs : Definitions) (type : Descriptor) : Option Schema := defs.deriveFrom [] type

def attachedSchema? (defs : Definitions) : Descriptor → Option Schema
  | .reference i => defs.schema? i
  | _ => none

def resolveSchema (defs : Definitions) (type : Descriptor) : Option Schema :=
  match defs.attachedSchema? type with
  | some schema => some schema
  | none => defs.derive type

end NaturalFunctions.Definitions
