import Mathlib.Data.List.Forall2
import NaturalFunctions.Types.Subtyping

/-!
Subtyping without a search. The rules relate a pair of types to pairs of their parts; a relation is
consistent when each of its pairs is justified by others of its pairs, and `Subtype` is the largest
consistent relation. A rule asks for one pair of each of its clauses.
-/

namespace NaturalFunctions.TypeArena

variable (arena : TypeArena) (R S : TypeId → TypeId → Prop)

def JsonObeys (ty : TypeId) : Prop :=
  match arena.node ty with
  | .primitive _ => True
  | .json => True
  | .array element => R element jsonId
  | .tuple members => ∀ member ∈ members, R member jsonId
  | .union members => ∀ member ∈ members, R member jsonId
  | .record fields => ∀ field ∈ fields, R field.type jsonId
  | .named _ (some target) => R target jsonId
  | .named _ none => False
  | .error => False
  | .nominal _ _ => False

/-- The rule for a pair of types, where `R` answers for their parts. -/
def Obeys (sub sup : TypeId) : Prop :=
  match arena.node sub, arena.node sup with
  | .named _ (some target), _ => R target sup
  | .named _ none, _ => False
  | _, .named _ (some target) => R sub target
  | _, .named _ none => False
  | .union members, _ => ∀ member ∈ members, R member sup
  | _, .union members => ∃ member ∈ members, R sub member
  | _, .json => arena.JsonObeys R sub
  | .primitive a, .primitive b => a = b ∨ (a = .byte ∧ b = .int)
  | .array a, .array b => R a b
  | .tuple members, .array element => ∀ member ∈ members, R member element
  | .tuple a, .tuple b => List.Forall₂ R a b
  | .record held, .record wanted => ∀ wants ∈ wanted, ∃ has ∈ held,
      has.name = wants.name ∧ (wants.optional = true ∨ has.optional = false) ∧
        R has.type wants.type
  | .nominal _ supertypes, _ => ∃ parent ∈ supertypes, R parent sup
  | _, _ => False

/-- Every pair is reflexive or obeys its rule by other pairs of the relation. -/
def Consistent : Prop := ∀ sub sup, R sub sup → sub = sup ∨ arena.Obeys R sub sup

def Subtype (sub sup : TypeId) : Prop := ∃ R, arena.Consistent R ∧ R sub sup

def jsonClauses (ty : TypeId) : List (List (TypeId × TypeId)) :=
  match arena.node ty with
  | .primitive _ => []
  | .json => []
  | .array element => [[(element, jsonId)]]
  | .tuple members => members.map fun member => [(member, jsonId)]
  | .union members => members.map fun member => [(member, jsonId)]
  | .record fields => fields.map fun field => [(field.type, jsonId)]
  | .named _ (some target) => [[(target, jsonId)]]
  | .named _ none => [[]]
  | .error => [[]]
  | .nominal _ _ => [[]]

def clauses (sub sup : TypeId) : List (List (TypeId × TypeId)) :=
  match arena.node sub, arena.node sup with
  | .named _ (some target), _ => [[(target, sup)]]
  | .named _ none, _ => [[]]
  | _, .named _ (some target) => [[(sub, target)]]
  | _, .named _ none => [[]]
  | .union members, _ => members.map fun member => [(member, sup)]
  | _, .union members => [members.map fun member => (sub, member)]
  | _, .json => arena.jsonClauses sub
  | .primitive a, .primitive b => if a = b || (a = .byte && b = .int) then [] else [[]]
  | .array a, .array b => [[(a, b)]]
  | .tuple members, .array element => members.map fun member => [(member, element)]
  | .tuple a, .tuple b =>
    if a.length = b.length then (a.zip b).map fun pair => [pair] else [[]]
  | .record held, .record wanted => wanted.map fun wants =>
      (held.filter fun has => suits has wants).map fun has => (has.type, wants.type)
  | .nominal _ supertypes, _ => [supertypes.map fun parent => (parent, sup)]
  | _, _ => [[]]

def Satisfied (clauses : List (List (TypeId × TypeId))) : Prop :=
  ∀ clause ∈ clauses, ∃ pair ∈ clause, R pair.1 pair.2

theorem jsonObeys_iff (ty : TypeId) :
    arena.JsonObeys R ty ↔ Satisfied R (arena.jsonClauses ty) := by
  unfold JsonObeys jsonClauses Satisfied
  split <;> simp

theorem obeys_iff (sub sup : TypeId) :
    arena.Obeys R sub sup ↔ Satisfied R (arena.clauses sub sup) := by
  unfold Obeys clauses
  split
  case h_7 => exact arena.jsonObeys_iff R sub
  case h_8 a b _ _ =>
    by_cases h : a = b ∨ (a = .byte ∧ b = .int) <;> simp [Satisfied, h]
  case h_11 a b _ _ =>
    rw [List.forall₂_iff_zip]
    by_cases h : a.length = b.length
    · simp only [h, ↓reduceIte, Satisfied, List.forall_mem_map, List.mem_singleton, exists_eq_left,
        true_and, Prod.forall]
    · simp [Satisfied, h]
  case h_12 => simp [Satisfied, suits, and_assoc]
  all_goals simp [Satisfied]

variable {R S} {sub sup : TypeId}

theorem Satisfied.mono {clauses : List (List (TypeId × TypeId))} (h : Satisfied R clauses)
    (hRS : ∀ a b, R a b → S a b) : Satisfied S clauses := by
  intro clause hc
  obtain ⟨pair, hp, hr⟩ := h clause hc
  exact ⟨pair, hp, hRS _ _ hr⟩

theorem Obeys.mono (hRS : ∀ a b, R a b → S a b) (h : arena.Obeys R sub sup) :
    arena.Obeys S sub sup := by
  rw [obeys_iff] at h ⊢
  exact h.mono hRS

variable {arena}

theorem Subtype.refl (ty : TypeId) : arena.Subtype ty ty :=
  ⟨Eq, fun _ _ h => Or.inl h, rfl⟩

theorem Subtype.eq_or_obeys (h : arena.Subtype sub sup) :
    sub = sup ∨ arena.Obeys arena.Subtype sub sup := by
  obtain ⟨R, hR, hr⟩ := h
  exact (hR sub sup hr).imp_right (Obeys.mono arena fun a b hab => ⟨R, hR, hab⟩)

theorem Subtype.of_obeys (h : arena.Obeys arena.Subtype sub sup) : arena.Subtype sub sup := by
  refine ⟨fun a b => arena.Subtype a b ∨ a = sub ∧ b = sup, ?_, Or.inr ⟨rfl, rfl⟩⟩
  rintro a b (hab | ⟨rfl, rfl⟩)
  · exact hab.eq_or_obeys.imp_right (Obeys.mono arena fun _ _ => Or.inl)
  · exact Or.inr (Obeys.mono arena (fun _ _ => Or.inl) h)

end NaturalFunctions.TypeArena
