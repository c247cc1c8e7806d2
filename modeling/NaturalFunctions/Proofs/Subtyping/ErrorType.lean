import NaturalFunctions.Proofs.Subtyping.Soundness
import NaturalFunctions.Proofs.Types.Members
import NaturalFunctions.Types.ArenaModel

namespace NaturalFunctions.TypeArena

open Relation

variable {arena : TypeArena} {R : TypeId → TypeId → Prop} {ty sup next : TypeId}

variable (arena) in
theorem node_errorId : arena.node errorId = .error := by
  simp [node, errorId, arena.error_node]

variable (arena) in
theorem model_shape (ty : TypeId) : arena.model.shape ty = (arena.node ty).shape := rfl

theorem refers_iff :
    arena.model.Refers ty next ↔ ∃ name, arena.node ty = .named name (some next) := by
  rw [SemanticModel.Refers, model_shape]
  rcases arena.node ty with _ | _ | _ | _ | _ | ⟨name, _ | target⟩ | _ | _ | _ <;>
    simp [TypeNode.shape, TypeShape.target?]

theorem shape_eq_union_iff {members : List TypeId} :
    arena.model.shape ty = .union members ↔ arena.node ty = .union members := by
  rw [model_shape]
  rcases arena.node ty with _ | _ | _ | _ | _ | ⟨name, _ | target⟩ | _ | _ | _ <;>
    simp [TypeNode.shape]

theorem opens_iff : arena.model.Opens ty next ↔
    (∃ name, arena.node ty = .named name (some next)) ∨
      ∃ members, arena.node ty = .union members ∧ next ∈ members := by
  simp only [SemanticModel.Opens, refers_iff, shape_eq_union_iff]

theorem obeys_errorId_iff :
    arena.Obeys R errorId sup ↔ ∃ next, arena.model.Opens sup next ∧ R errorId next := by
  simp only [opens_iff, Obeys, JsonObeys, node_errorId]
  rcases arena.node sup with _ | _ | _ | _ | members | ⟨name, _ | target⟩ | _ | _ | _ <;> simp

theorem subtype_errorId_iff :
    arena.Subtype errorId ty ↔
      ReflTransGen arena.model.Opens ty errorId ∨ arena.model.Loops ty := by
  constructor
  · intro h
    by_cases hl : arena.model.Loops ty
    · exact Or.inr hl
    · left
      have hacc := SemanticModel.acc_of_not_loops hl
      clear hl
      induction hacc with
      | intro ty _ ih =>
        rcases h.eq_or_obeys with rfl | ho
        · exact .refl
        · obtain ⟨next, hn, hs⟩ := obeys_errorId_iff.mp ho
          exact (ih next hn hs).head hn
  · intro h
    refine ⟨fun sub sup => sub = errorId ∧
      (ReflTransGen arena.model.Opens sup errorId ∨ arena.model.Loops sup), ?_, rfl, h⟩
    rintro _ sup ⟨rfl, hend | hloop⟩
    · rcases ReflTransGen.cases_head hend with rfl | ⟨next, hn, hrest⟩
      · exact Or.inl rfl
      · exact Or.inr (obeys_errorId_iff.mpr ⟨next, hn, rfl, Or.inl hrest⟩)
    · obtain ⟨next, hn, hrest⟩ := hloop.opens
      exact Or.inr (obeys_errorId_iff.mpr ⟨next, hn, rfl, Or.inr hrest⟩)

theorem asks_errorId {part : TypeId × TypeId} (h : arena.Asks (errorId, sup) part) :
    part.1 = errorId ∧ arena.model.Opens sup part.2 := by
  obtain ⟨clause, hc, hp⟩ := h
  rw [opens_iff]
  simp only [clauses, jsonClauses, node_errorId] at hc
  generalize arena.node sup = node at hc ⊢
  rcases node with _ | _ | _ | _ | members | ⟨name, _ | target⟩ | _ | _ | _
  case union =>
    obtain rfl := List.mem_singleton.mp hc
    obtain ⟨member, hm, rfl⟩ := List.mem_map.mp hp
    exact ⟨rfl, Or.inr ⟨members, rfl, hm⟩⟩
  case named.some =>
    obtain rfl := List.mem_singleton.mp hc
    obtain rfl := List.mem_singleton.mp hp
    exact ⟨rfl, Or.inl ⟨name, rfl⟩⟩
  all_goals
    obtain rfl := List.mem_singleton.mp hc
    cases hp

theorem reflTransGen_asks_errorId {part : TypeId × TypeId}
    (h : ReflTransGen arena.Asks (errorId, sup) part) :
    part.1 = errorId ∧ ReflTransGen arena.model.Opens sup part.2 := by
  induction h with
  | refl => exact ⟨rfl, .refl⟩
  | @tail middle last _ hask ih =>
    obtain ⟨heq, hr⟩ := ih
    obtain ⟨mid, other⟩ := middle
    obtain rfl : mid = errorId := heq
    obtain ⟨hlast, ho⟩ := asks_errorId hask
    exact ⟨hlast, hr.tail ho⟩

theorem loops_of_transGen_asks_errorId (h : TransGen arena.Asks (errorId, sup) (errorId, sup)) :
    arena.model.Loops sup := by
  obtain ⟨⟨sub, next⟩, hask, hrest⟩ := TransGen.head'_iff.mp h
  obtain ⟨heq, ho⟩ := asks_errorId hask
  obtain rfl : sub = errorId := heq
  exact ⟨sup, .refl, TransGen.head' ho (reflTransGen_asks_errorId hrest).2⟩

theorem safelyChosen_errorId (ty : TypeId) : arena.SafelyChosen (errorId, ty) := by
  intro part hr clause hc choice hch
  obtain ⟨sub, sup⟩ := part
  obtain rfl : sub = errorId := (reflTransGen_asks_errorId hr).1
  have hask : arena.Asks (errorId, sup) choice := ⟨clause, hc, List.dropLast_subset clause hch⟩
  obtain ⟨sub, next⟩ := choice
  obtain rfl : sub = errorId := (asks_errorId hask).1
  by_cases hl : arena.model.Loops next
  · exact Or.inl (subtype_errorId_iff.mpr (Or.inr hl))
  · right
    rintro ⟨sub, last⟩ hreach hcycle
    obtain ⟨heq, ho⟩ := reflTransGen_asks_errorId hreach
    obtain rfl : sub = errorId := heq
    obtain ⟨back, hb, hc⟩ := loops_of_transGen_asks_errorId hcycle
    exact hl ⟨back, ho.trans hb, hc⟩

theorem isSubtype_errorId_iff :
    arena.isSubtype errorId ty = true ↔
      (∃ member ∈ arena.model.unionMembers ty, arena.model.resolve member = errorId) ∨
        arena.model.Loops ty := by
  have hshape : arena.model.shape errorId = .error := by
    rw [model_shape, node_errorId, TypeNode.shape]
  have hend : (∃ member ∈ arena.model.unionMembers ty, arena.model.resolve member = errorId) ↔
      ReflTransGen arena.model.Opens ty errorId :=
    SemanticModel.exists_member_resolve_iff (by rw [hshape]; rfl) (by simp [hshape])
  rw [hend, ← subtype_errorId_iff]
  exact ⟨subtype_of_isSubtype (safelyChosen_errorId ty), isSubtype_of_subtype⟩

theorem subtype_of_refers (hsup : ∀ name target, arena.node sup ≠ .named name target)
    (h : arena.Subtype ty sup) (hr : ReflTransGen arena.model.Refers ty next) :
    arena.Subtype next sup := by
  induction hr with
  | refl => exact h
  | @tail middle last _ hstep ih =>
    obtain ⟨name, hn⟩ := refers_iff.mp hstep
    rcases ih.eq_or_obeys with rfl | ho
    · exact absurd hn (hsup name _)
    · simpa only [Obeys, hn] using ho

theorem subtype_of_members (hsup : ∀ name target, arena.node sup ≠ .named name target)
    (h : ∀ member ∈ arena.model.unionMembers ty, arena.Subtype member sup) :
    arena.Subtype ty sup := by
  -- besides the known pairs, the relation has those of the types on the way to the members
  refine ⟨fun a b => arena.Subtype a b ∨ b = sup ∧ ReflTransGen arena.model.Opens ty a, ?_,
    Or.inr ⟨rfl, .refl⟩⟩
  rintro a b (hab | ⟨rfl, hr⟩)
  · exact hab.eq_or_obeys.imp_right (Obeys.mono arena fun _ _ => Or.inl)
  · by_cases hopen : (∃ next, arena.model.Refers a next) ∨
      ∃ members, arena.model.shape a = .union members
    · right
      rcases hopen with ⟨next, hn⟩ | ⟨members, hm⟩
      · obtain ⟨name, hname⟩ := refers_iff.mp hn
        unfold Obeys
        rw [hname]
        exact Or.inr ⟨rfl, hr.tail hn.opens⟩
      · have hunion := shape_eq_union_iff.mp hm
        have hall : ∀ member ∈ members, arena.Subtype member b ∨
            b = b ∧ ReflTransGen arena.model.Opens ty member :=
          fun member hi => Or.inr ⟨rfl, hr.tail (Or.inr ⟨members, hm, hi⟩)⟩
        unfold Obeys
        rw [hunion]
        rcases hs : arena.node b with _ | _ | _ | _ | _ | ⟨name, _ | target⟩ | _ | _ | _
        case named.none => exact absurd hs (hsup _ _)
        case named.some => exact absurd hs (hsup _ _)
        all_goals exact hall
    · obtain ⟨hrefers, hunion⟩ := not_or.mp hopen
      have htarget : (arena.model.shape a).target? = none := by
        rw [Option.eq_none_iff_forall_ne_some]
        exact fun next hn => hrefers ⟨next, hn⟩
      obtain ⟨member, hm, rfl⟩ := (SemanticModel.exists_member_resolve_iff htarget
        fun members hm => hunion ⟨members, hm⟩).mpr hr
      have hsub := subtype_of_refers hsup (h member hm)
        (SemanticModel.reflTransGen_refers_resolve member)
      exact hsub.eq_or_obeys.imp_right (Obeys.mono arena fun _ _ => Or.inl)

theorem exists_member_not_subtype (hsup : ∀ name target, arena.node sup ≠ .named name target)
    (h : arena.isSubtype ty sup = false) :
    ∃ member ∈ arena.model.unionMembers ty, ¬ arena.Subtype member sup := by
  apply Classical.byContradiction
  intro hn
  push Not at hn
  exact Bool.false_ne_true (h.symm.trans (isSubtype_of_subtype (subtype_of_members hsup hn)))

end NaturalFunctions.TypeArena
