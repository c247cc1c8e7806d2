import NaturalFunctions.Types.Shape
import NaturalFunctions.Types.Walk
import NaturalFunctions.Schema.Normal

/-!
The schema of a type at compile time. A name with an attached schema is described by it verbatim,
and a reference met again on the way down from itself is left to the run time. A reference is in
progress only while its target is being described, so no derivation leaves anything behind for the
next.
-/

namespace NaturalFunctions

/-- The answer of a derivation, and the references in progress after it: those in progress before
it, the latest first. -/
structure Derived (α : Type) (path : List TypeId) where
  answer : Option α
  after : List TypeId
  after_eq : after = path

namespace Derived

variable {α β ν : Type} {path : List TypeId}

def known (answer : Option α) (path : List TypeId) : Derived α path := ⟨answer, path, rfl⟩

def map (f : α → β) (derived : Derived α path) : Derived β path :=
  ⟨derived.answer.map f, derived.after, derived.after_eq⟩

def leave {ty : TypeId} (derived : Derived α (ty :: path)) : Derived α path :=
  ⟨derived.answer, derived.after.tail, by rw [derived.after_eq]; rfl⟩

def each (step : (current : List TypeId) → current = path → ν → Derived α current)
    (current : List TypeId) (h : current = path) : List ν → Derived (List α) current
  | [] => known (some []) current
  | node :: rest =>
    let first := step current h node
    match first.answer with
    | none => ⟨none, first.after, first.after_eq⟩
    | some item =>
      let others := each step first.after (first.after_eq.trans h) rest
      ⟨others.answer.map (item :: ·), others.after, others.after_eq.trans first.after_eq⟩

@[simp] theorem answer_known (answer : Option α) : (known answer path).answer = answer := rfl

@[simp] theorem answer_map (f : α → β) (derived : Derived α path) :
    (derived.map f).answer = derived.answer.map f := rfl

@[simp] theorem answer_leave {ty : TypeId} (derived : Derived α (ty :: path)) :
    derived.leave.answer = derived.answer := rfl

end Derived

namespace SemanticModel

def describe (model : SemanticModel) (mapper : StructuralMapper)
    (attached : List (String × Schema)) (path : List TypeId) (ty : TypeId) : Derived Schema path :=
  match _h : model.shape ty with
  | .primitive kind => .known (some (Schema.primitive kind)) path
  | .json => .known (some Schema.anyJson) path
  | .array element => (model.describe mapper attached path element).map Schema.arrayOf
  | .tuple members =>
    (Derived.each (fun current _hc (member : { member // member ∈ members }) =>
      model.describe mapper attached current member) path rfl members.attach).map Schema.tupleOf
  | .union members =>
    (Derived.each (fun current _hc (member : { member // member ∈ members }) =>
      model.describe mapper attached current member) path rfl members.attach).map Schema.anyOf
  | .record _ => .known ((mapper ty).map Schema.normalize) path
  | .reference name target =>
    match attached.lookup name with
    | some schema => .known (some schema) path
    | none =>
      if _hp : ty ∈ path then .known none path
      else (model.describe mapper attached (ty :: path) target).leave
  | .error => .known none path
  | .other _ => .known none path
termination_by (unseen model.inner path, model.rank ty)
decreasing_by
  · exact Prod.Lex.right _ (model.rank_part ty element (by simp [TypeShape.parts, _h]))
  · subst _hc
    exact Prod.Lex.right _ (model.rank_part ty member (by simp [TypeShape.parts, _h, member.2]))
  · subst _hc
    exact Prod.Lex.right _ (model.rank_part ty member (by simp [TypeShape.parts, _h, member.2]))
  · exact Prod.Lex.left _ _ (unseen_cons_lt
      (model.mem_inner_of_target (show (model.shape ty).target? = some target by
        rw [_h]; rfl)) _hp)

def derive (model : SemanticModel) (mapper : StructuralMapper)
    (attached : List (String × Schema)) (ty : TypeId) : Option Schema :=
  (model.describe mapper attached [] ty).answer

end SemanticModel

end NaturalFunctions
