import NaturalFunctions.Types.Shape
import NaturalFunctions.Unseen

namespace NaturalFunctions.SemanticModel

theorem mem_inner_of_target (model : SemanticModel) {ty target : TypeId}
    (h : (model.shape ty).target? = some target) : ty ∈ model.inner :=
  model.mem_inner ty (by simp [TypeShape.next, h])

def resolveFrom (model : SemanticModel) (seen : List TypeId) (ty : TypeId) : TypeId :=
  match h : (model.shape ty).target? with
  | none => ty
  | some target =>
    if hs : ty ∈ seen then ty
    else
      have := unseen_cons_lt (model.mem_inner_of_target h) hs
      model.resolveFrom (ty :: seen) target
termination_by unseen model.inner seen

def resolve (model : SemanticModel) (ty : TypeId) : TypeId := model.resolveFrom [] ty

def membersFrom (model : SemanticModel) (entered : List TypeId) : List TypeId → List TypeId
  | [] => []
  | ty :: rest =>
    match _h : model.shape (model.resolve ty) with
    | .union members =>
      if _he : model.resolve ty ∈ entered then model.membersFrom entered rest
      else model.membersFrom (model.resolve ty :: entered) (members ++ rest)
    | _ => ty :: model.membersFrom entered rest
termination_by pending => (unseen model.inner entered, pending.length)
decreasing_by
  · exact Prod.Lex.right _ (by simp)
  · by_cases hm : members = []
    · rcases Nat.lt_or_eq_of_le (unseen_cons_le model.inner entered (model.resolve ty)) with hl | hl
      · exact Prod.Lex.left _ _ hl
      · rw [hl]
        exact Prod.Lex.right _ (by simp [hm])
    · exact Prod.Lex.left _ _ (unseen_cons_lt
        (model.mem_inner _ (by simp [TypeShape.next, TypeShape.parts, _h, hm])) _he)
  · exact Prod.Lex.right _ (by simp)

def unionMembers (model : SemanticModel) (ty : TypeId) : List TypeId := model.membersFrom [] [ty]

end NaturalFunctions.SemanticModel
