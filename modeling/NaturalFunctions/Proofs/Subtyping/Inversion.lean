import NaturalFunctions.Proofs.Subtyping.Rules

namespace NaturalFunctions.TypeArena

variable {arena : TypeArena} {R : TypeId → TypeId → Prop} {sub sup target element : TypeId}
  {name : String} {members supertypes : List TypeId} {kind : PrimitiveKind}
  {fields : List (RecordField TypeId)}

variable (arena) in
def Concrete (ty : TypeId) : Prop :=
  (∀ name target, arena.node ty ≠ .named name target) ∧ ∀ members, arena.node ty ≠ .union members

theorem concrete_or (ty : TypeId) :
    arena.Concrete ty ∨ (∃ members, arena.node ty = .union members) ∨
      ∃ name target, arena.node ty = .named name target := by
  unfold Concrete
  rcases arena.node ty with _ | _ | _ | _ | _ | ⟨name, target⟩ | _ | _ | _ <;> simp

theorem obeys_of_reference (h : arena.node sub = .named name (some target)) :
    arena.Obeys R sub sup ↔ R target sup := by
  rw [Obeys, h]

theorem obeys_reference (hsub : ∀ name target, arena.node sub ≠ .named name target)
    (h : arena.node sup = .named name (some target)) : arena.Obeys R sub sup ↔ R sub target := by
  unfold Obeys
  rw [h]
  rcases hs : arena.node sub with _ | _ | _ | _ | _ | ⟨name, _ | target⟩ | _ | _ | _
  case named.none | named.some => exact absurd hs (hsub _ _)
  all_goals rfl

theorem not_obeys_undefined (hsub : ∀ name target, arena.node sub ≠ .named name target)
    (h : arena.node sup = .named name none) : ¬ arena.Obeys R sub sup := by
  unfold Obeys
  rw [h]
  rcases hs : arena.node sub with _ | _ | _ | _ | _ | ⟨name, _ | target⟩ | _ | _ | _
  case named.none | named.some => exact absurd hs (hsub _ _)
  all_goals exact id

theorem obeys_union (hsub : arena.Concrete sub) (h : arena.node sup = .union members) :
    arena.Obeys R sub sup ↔ ∃ member ∈ members, R sub member := by
  unfold Obeys
  rw [h]
  rcases hs : arena.node sub with _ | _ | _ | _ | _ | ⟨name, _ | target⟩ | _ | _ | _
  case named.none | named.some => exact absurd hs (hsub.1 _ _)
  case union => exact absurd hs (hsub.2 _)
  all_goals rfl

variable (arena R sup) in
def LeftRule : TypeNode → Prop
  | .primitive kind => arena.node sup = .json ∨
      ∃ wanted, arena.node sup = .primitive wanted ∧
        (kind = wanted ∨ (kind = .byte ∧ wanted = .int))
  | .record fields => arena.node sup = .json ∧ (∀ field ∈ fields, R field.type jsonId) ∨
      ∃ wanted, arena.node sup = .record wanted ∧ ∀ wants ∈ wanted, ∃ has ∈ fields,
        has.name = wants.name ∧ (wants.optional = true ∨ has.optional = false) ∧
          R has.type wants.type
  | .array element => arena.node sup = .json ∧ R element jsonId ∨
      ∃ wanted, arena.node sup = .array wanted ∧ R element wanted
  | .tuple members => arena.node sup = .json ∧ (∀ member ∈ members, R member jsonId) ∨
      (∃ wanted, arena.node sup = .array wanted ∧ ∀ member ∈ members, R member wanted) ∨
        ∃ wanted, arena.node sup = .tuple wanted ∧ List.Forall₂ R members wanted
  | .union members => ∀ member ∈ members, R member sup
  | .named _ (some target) => R target sup
  | .named _ none => False
  | .json => arena.node sup = .json
  | .error => False
  | .nominal _ supertypes => arena.node sup ≠ .json ∧ ∃ parent ∈ supertypes, R parent sup

theorem obeys_iff_leftRule (hsup : arena.Concrete sup) :
    arena.Obeys R sub sup ↔ arena.LeftRule R sup (arena.node sub) := by
  obtain ⟨hname, hunion⟩ := hsup
  rw [Obeys, JsonObeys]
  rcases arena.node sub with _ | _ | _ | _ | _ | ⟨_, _ | _⟩ | _ | _ | _ <;>
    rcases hs : arena.node sup with _ | _ | _ | _ | _ | ⟨_, _ | _⟩ | _ | _ | _
  all_goals simp_all [LeftRule]

end NaturalFunctions.TypeArena
