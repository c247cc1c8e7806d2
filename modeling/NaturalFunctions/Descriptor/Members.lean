import NaturalFunctions.Descriptor.Basic

namespace NaturalFunctions.Definitions

def resolveFrom (defs : Definitions) (seen : List Nat) (type : Descriptor) : Descriptor :=
  match type with
  | .reference i =>
    match h : defs.body? i with
    | none => .reference i
    | some body =>
      if hs : i ∈ seen then .reference i
      else
        have := unseen_cons_lt (mem_indices_of_body h) hs
        defs.resolveFrom (i :: seen) body
  | other => other
termination_by unseen defs.indices seen

def resolve (defs : Definitions) (type : Descriptor) : Descriptor := defs.resolveFrom [] type

theorem sizeOf_append (xs ys : List Descriptor) : sizeOf (xs ++ ys) + 1 = sizeOf xs + sizeOf ys := by
  induction xs with
  | nil => simp only [List.nil_append, List.nil.sizeOf_spec]; omega
  | cons x xs ih => simp only [List.cons_append, List.cons.sizeOf_spec]; omega

def expands : Descriptor → Bool
  | .union _ => true
  | .reference _ => true
  | _ => false

def membersFrom (defs : Definitions) (seen : List Nat) : List Descriptor → List Descriptor
  | [] => []
  | .union members :: rest => defs.membersFrom seen (members ++ rest)
  | .reference i :: rest =>
    match _h : defs.body? i with
    | none => .reference i :: defs.membersFrom seen rest
    | some body =>
      if expands body then
        if _hs : i ∈ seen then defs.membersFrom seen rest
        else defs.membersFrom (i :: seen) (body :: rest)
      else .reference i :: defs.membersFrom seen rest
  | type :: rest => type :: defs.membersFrom seen rest
termination_by pending => (unseen defs.indices seen, sizeOf pending)
decreasing_by
  · have := sizeOf_append members rest
    exact Prod.Lex.right _ (by simp only [List.cons.sizeOf_spec, Descriptor.union.sizeOf_spec]; omega)
  · exact Prod.Lex.right _ (by simp only [List.cons.sizeOf_spec]; omega)
  · exact Prod.Lex.right _ (by simp only [List.cons.sizeOf_spec]; omega)
  · exact Prod.Lex.left _ _ (unseen_cons_lt (mem_indices_of_body _h) _hs)
  · exact Prod.Lex.right _ (by simp only [List.cons.sizeOf_spec]; omega)
  · exact Prod.Lex.right _ (by simp only [List.cons.sizeOf_spec]; omega)

def unionMembers (defs : Definitions) (type : Descriptor) : List Descriptor :=
  defs.membersFrom [] [type]

def nilFrom (defs : Definitions) (seen : List Nat) : List Descriptor → Bool
  | [] => false
  | .primitive .nil :: _ => true
  | .json :: _ => true
  | .union members :: rest => defs.nilFrom seen (members ++ rest)
  | .reference i :: rest =>
    match _h : defs.body? i with
    | none => defs.nilFrom seen rest
    | some body =>
      if _hs : i ∈ seen then defs.nilFrom seen rest
      else defs.nilFrom (i :: seen) (body :: rest)
  | _ :: rest => defs.nilFrom seen rest
termination_by pending => (unseen defs.indices seen, sizeOf pending)
decreasing_by
  · have := sizeOf_append members rest
    exact Prod.Lex.right _ (by simp only [List.cons.sizeOf_spec, Descriptor.union.sizeOf_spec]; omega)
  · exact Prod.Lex.right _ (by simp only [List.cons.sizeOf_spec]; omega)
  · exact Prod.Lex.right _ (by simp only [List.cons.sizeOf_spec]; omega)
  · exact Prod.Lex.left _ _ (unseen_cons_lt (mem_indices_of_body _h) _hs)
  · exact Prod.Lex.right _ (by simp only [List.cons.sizeOf_spec]; omega)

def containsNil (defs : Definitions) (type : Descriptor) : Bool := defs.nilFrom [] [type]

def isError (defs : Definitions) (type : Descriptor) : Bool :=
  match defs.resolve type with
  | .error => true
  | _ => false

def isNil (defs : Definitions) (type : Descriptor) : Bool :=
  match defs.resolve type with
  | .primitive .nil => true
  | _ => false

def withoutError? (defs : Definitions) (type : Descriptor) : Option Descriptor :=
  let members := defs.unionMembers type
  let data := members.filter fun member => !defs.isError member
  if members.any defs.isError then
    match data with
    | [] => none
    | [single] => some single
    | data => some (.union data)
  else none

def withoutError (defs : Definitions) (type : Descriptor) : Descriptor :=
  (defs.withoutError? type).getD type

def nonNilMember (defs : Definitions) (type : Descriptor) : Descriptor :=
  match defs.resolve type with
  | .union members => (members.find? fun member => !defs.isNil member).getD type
  | _ => type

def elementType? (defs : Definitions) (type : Descriptor) : Option Descriptor :=
  match defs.resolve type with
  | .array element => some element
  | _ => none

end NaturalFunctions.Definitions
