import NaturalFunctions.Proofs.Subtyping.ErrorType

namespace NaturalFunctions.TypeArena

open Relation

variable {arena : TypeArena} {R : TypeId → TypeId → Prop} {ty next : TypeId}

variable (arena) in
def Foreign (ty : TypeId) : Prop :=
  arena.node ty = .error ∨ (∃ name supertypes, arena.node ty = .nominal name supertypes) ∨
    ∃ name, arena.node ty = .named name none

variable (arena) in
theorem node_jsonId : arena.node jsonId = .json := by
  simp [node, jsonId, arena.json_node]

theorem foreign_iff_shape :
    arena.Foreign ty ↔
      arena.model.shape ty = .error ∨ ∃ name, arena.model.shape ty = .other name := by
  rw [Foreign, model_shape]
  rcases arena.node ty with _ | _ | _ | _ | _ | ⟨name, _ | target⟩ | _ | _ | _ <;>
    simp [TypeNode.shape]

theorem obeys_jsonId_iff :
    arena.Obeys R ty jsonId ↔
      ¬ arena.Foreign ty ∧ ∀ next, arena.model.LeadsTo ty next → R next jsonId := by
  simp only [Obeys, JsonObeys, Foreign, SemanticModel.LeadsTo, model_shape, node_jsonId]
  rcases arena.node ty with _ | _ | _ | _ | _ | ⟨name, _ | target⟩ | _ | _ | _ <;>
    simp [TypeNode.shape, TypeShape.next, TypeShape.parts, TypeShape.target?]

theorem obeys_of_subtype_jsonId (h : arena.Subtype ty jsonId) :
    arena.Obeys arena.Subtype ty jsonId := by
  rcases h.eq_or_obeys with rfl | ho
  · simp [Obeys, JsonObeys, node_jsonId]
  · exact ho

theorem subtype_jsonId_iff :
    arena.Subtype ty jsonId ↔
      ∀ part, ReflTransGen arena.model.LeadsTo ty part → ¬ arena.Foreign part := by
  constructor
  · intro h part hr
    have hpart : arena.Subtype part jsonId := by
      induction hr with
      | refl => exact h
      | tail _ hstep ih => exact (obeys_jsonId_iff.mp (obeys_of_subtype_jsonId ih)).2 _ hstep
    exact (obeys_jsonId_iff.mp (obeys_of_subtype_jsonId hpart)).1
  · intro h
    refine ⟨fun a b => b = jsonId ∧ ∀ part, ReflTransGen arena.model.LeadsTo a part →
      ¬ arena.Foreign part, ?_, rfl, h⟩
    rintro a _ ⟨rfl, ha⟩
    refine Or.inr (obeys_jsonId_iff.mpr ⟨ha a .refl, fun next hn => ⟨rfl, fun part hp => ?_⟩⟩)
    exact ha part (hp.head hn)

variable (arena) in
theorem clauses_jsonId (ty : TypeId) : arena.clauses ty jsonId = arena.jsonClauses ty := by
  unfold clauses jsonClauses
  rw [node_jsonId]
  rcases arena.node ty with _ | _ | _ | _ | _ | ⟨name, _ | target⟩ | _ | _ | _ <;> rfl

theorem clause_jsonId {clause : List (TypeId × TypeId)} (h : clause ∈ arena.clauses ty jsonId) :
    clause = [] ∨ ∃ next, clause = [(next, jsonId)] := by
  rw [clauses_jsonId, jsonClauses] at h
  split at h
  case h_1 | h_2 => cases h
  case h_3 | h_7 => exact Or.inr ⟨_, List.mem_singleton.mp h⟩
  case h_4 | h_5 | h_6 =>
    obtain ⟨part, -, rfl⟩ := List.mem_map.mp h
    exact Or.inr ⟨_, rfl⟩
  case h_8 | h_9 | h_10 => exact Or.inl (List.mem_singleton.mp h)

theorem safelyChosen_jsonId (ty : TypeId) : arena.SafelyChosen (ty, jsonId) := by
  have hsup : ∀ part, ReflTransGen arena.Asks (ty, jsonId) part → part.2 = jsonId := by
    intro part hr
    induction hr with
    | refl => rfl
    | @tail middle last _ hask ih =>
      obtain ⟨mid, sup⟩ := middle
      obtain rfl : sup = jsonId := ih
      obtain ⟨clause, hc, hp⟩ := hask
      rcases clause_jsonId hc with rfl | ⟨next, rfl⟩
      · cases hp
      · rw [List.mem_singleton.mp hp]
  rintro ⟨sub, sup⟩ hr clause hc choice hchoice
  obtain rfl : sup = jsonId := hsup _ hr
  rcases clause_jsonId hc with rfl | ⟨next, rfl⟩ <;> cases hchoice

theorem subtype_jsonId_of_isSubtype (h : arena.isSubtype ty jsonId = true) :
    arena.Subtype ty jsonId :=
  subtype_of_isSubtype (safelyChosen_jsonId ty) h

theorem isSubtype_jsonId_iff (arena : TypeArena) (ty : TypeId) :
    arena.isSubtype ty jsonId = true ↔
      ¬ ∃ part, ReflTransGen arena.model.LeadsTo ty part ∧ arena.Foreign part := by
  push Not
  rw [← subtype_jsonId_iff]
  exact ⟨subtype_jsonId_of_isSubtype, isSubtype_of_subtype⟩

end NaturalFunctions.TypeArena
