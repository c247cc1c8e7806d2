import NaturalFunctions.Proofs.Derivation.Outline
import NaturalFunctions.Proofs.Subtyping.Inversion
import NaturalFunctions.Proofs.Subtyping.JsonType
import NaturalFunctions.Proofs.Subtyping.Nesting

/-!
Subtypes of subtypes. The rules of two pairs that share a type compose, but for two things: a type
in the middle that leads back to itself through names and unions is above and below everything, and
what fits into `json` is decided without regard to what the type is a subtype of.
-/

namespace NaturalFunctions.TypeArena

open Relation

variable {arena : TypeArena} {x y z : TypeId} {part : TypeId × TypeId}

variable (arena) in
def Confirms (pair part : TypeId × TypeId) : Prop :=
  arena.Asks pair part ∧ arena.Subtype part.1 part.2

variable (arena) in
/-- Nothing that confirms the pair compares a type other than a name with one that leads into a loop
of references and unions. -/
def Guarded (sub sup : TypeId) : Prop :=
  ∀ part, ReflTransGen arena.Confirms (sub, sup) part →
    (∀ name target, arena.node part.1 ≠ .named name target) → ¬ arena.model.Loops part.2

variable (arena) in
/-- The type is not nominal, and the fields of a record that match no field of the other record fit
into `json`. -/
def Plain (sub mid : TypeId) : Prop :=
  (∀ name supertypes, arena.node sub ≠ .nominal name supertypes) ∧
    ∀ held wanted, arena.node sub = .record held → arena.node mid = .record wanted →
      ∀ has ∈ held, (∃ wants ∈ wanted, suits has wants = true ∧ arena.Subtype has.type wants.type) ∨
        arena.Subtype has.type jsonId

end NaturalFunctions.TypeArena
