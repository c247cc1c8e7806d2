import NaturalFunctions.Proofs.Subtyping.ErrorType
import NaturalFunctions.Proofs.Subtyping.Inversion

namespace NaturalFunctions

open Relation

namespace SemanticModel

variable {model : SemanticModel} {ty next : TypeId}

theorem loops_of_refers_resolve (h : model.Refers (model.resolve ty) next) : model.Loops ty := by
  have hreturns := model.resolve_returns ty
  have hinf : Unending model.Refers ty := by
    by_contra hends
    exact (hreturns.not_unending_iff refers_rightUnique).mp hends next h
  have hentry := (hreturns.entersAt_iff refers_rightUnique).mp hinf
  exact ⟨model.resolve ty, reflTransGen_opens_resolve ty,
    hentry.cycle.lift id fun _ _ => Refers.opens⟩

end SemanticModel

namespace TypeArena

variable {arena : TypeArena} {R : TypeId → TypeId → Prop} {ty sup parent next last : TypeId}
  {name : String} {supertypes : List TypeId}

theorem concrete_of_nominal (h : arena.node ty = .nominal name supertypes) : arena.Concrete ty := by
  simp [Concrete, h]

theorem obeys_of_opens (hty : arena.Concrete ty) (ho : arena.model.Opens sup next)
    (hr : R ty next) : arena.Obeys R ty sup := by
  rcases opens_iff.mp ho with ⟨name, hn⟩ | ⟨members, hm, hi⟩
  · exact (obeys_reference hty.1 hn).mpr hr
  · exact (obeys_union hty hm).mpr ⟨next, hi, hr⟩

variable (arena ty supertypes) in
def Admits (last : TypeId) : Prop :=
  last = ty ∨ arena.Concrete last ∧ arena.node last ≠ .json ∧
    ∃ parent ∈ supertypes, arena.Subtype parent last

theorem subtype_of_opens (hty : arena.Concrete ty) (hr : ReflTransGen arena.model.Opens sup last)
    (h : arena.Subtype ty last) : arena.Subtype ty sup := by
  induction hr using ReflTransGen.head_induction_on with
  | refl => exact h
  | head hstep _ ih => exact Subtype.of_obeys (obeys_of_opens hty hstep ih)

theorem subtype_of_loops (hty : arena.Concrete ty) (h : arena.model.Loops sup) :
    arena.Subtype ty sup := by
  refine ⟨fun a b => a = ty ∧ arena.model.Loops b, ?_, rfl, h⟩
  rintro a b ⟨rfl, hloop⟩
  obtain ⟨next, hn, hrest⟩ := hloop.opens
  exact Or.inr (obeys_of_opens hty hn ⟨rfl, hrest⟩)

theorem subtype_of_admits (h : arena.node ty = .nominal name supertypes)
    (ha : arena.Admits ty supertypes last) : arena.Subtype ty last := by
  rcases ha with rfl | ⟨hc, hrule⟩
  · exact Subtype.refl last
  · apply Subtype.of_obeys
    rw [obeys_iff_leftRule hc, h]
    exact hrule

theorem exists_admits_of_subtype (h : arena.node ty = .nominal name supertypes)
    (hs : arena.Subtype ty sup) (hl : ¬ arena.model.Loops sup) :
    ∃ last, ReflTransGen arena.model.Opens sup last ∧ arena.Admits ty supertypes last := by
  have hty : arena.Concrete ty := concrete_of_nominal h
  have hacc := SemanticModel.acc_of_not_loops hl
  clear hl
  induction hacc with
  | intro sup _ ih =>
    have hopen : ∀ next, arena.model.Opens sup next → arena.Subtype ty next →
        ∃ last, ReflTransGen arena.model.Opens sup last ∧ arena.Admits ty supertypes last := by
      intro next hn hs
      obtain ⟨last, hr, ha⟩ := ih next hn hs
      exact ⟨last, hr.head hn, ha⟩
    rcases hs.eq_or_obeys with rfl | ho
    · exact ⟨ty, .refl, Or.inl rfl⟩
    rcases concrete_or sup with hc | ⟨members, hm⟩ | ⟨name, _ | target, hn⟩
    · rw [obeys_iff_leftRule hc, h] at ho
      exact ⟨sup, .refl, Or.inr ⟨hc, ho⟩⟩
    · obtain ⟨member, hi, hs⟩ := (obeys_union hty hm).mp ho
      exact hopen member (opens_iff.mpr (Or.inr ⟨members, hm, hi⟩)) hs
    · exact absurd ho (not_obeys_undefined hty.1 hn)
    · exact hopen target (opens_iff.mpr (Or.inl ⟨name, hn⟩)) ((obeys_reference hty.1 hn).mp ho)

theorem subtype_nominal_iff (h : arena.node ty = .nominal name supertypes) :
    arena.Subtype ty sup ↔ arena.model.Loops sup ∨
      ∃ last, ReflTransGen arena.model.Opens sup last ∧ arena.Admits ty supertypes last := by
  constructor
  · intro hs
    by_cases hl : arena.model.Loops sup
    · exact Or.inl hl
    · exact Or.inr (exists_admits_of_subtype h hs hl)
  · rintro (hl | ⟨last, hr, ha⟩)
    · exact subtype_of_loops (concrete_of_nominal h) hl
    · exact subtype_of_opens (concrete_of_nominal h) hr (subtype_of_admits h ha)

theorem exists_admits_iff (h : arena.node ty = .nominal name supertypes) :
    (∃ last, ReflTransGen arena.model.Opens sup last ∧ arena.Admits ty supertypes last) ↔
      ∃ member ∈ arena.model.unionMembers sup,
        arena.Admits ty supertypes (arena.model.resolve member) := by
  have hend : ∀ last, arena.Admits ty supertypes last →
      (arena.model.shape last).target? = none ∧
        ∀ members, arena.model.shape last ≠ .union members := by
    intro last ha
    have hc : arena.Concrete last := ha.elim (fun heq => heq ▸ concrete_of_nominal h) And.left
    refine ⟨?_, fun members hm => hc.2 members (shape_eq_union_iff.mp hm)⟩
    rw [Option.eq_none_iff_forall_ne_some]
    intro next hn
    obtain ⟨name, hname⟩ := refers_iff.mp hn
    exact hc.1 name _ hname
  constructor
  · rintro ⟨last, hr, ha⟩
    obtain ⟨htarget, hunion⟩ := hend last ha
    obtain ⟨member, hm, rfl⟩ := (SemanticModel.exists_member_resolve_iff htarget hunion).mpr hr
    exact ⟨member, hm, ha⟩
  · rintro ⟨member, hm, ha⟩
    obtain ⟨htarget, hunion⟩ := hend _ ha
    exact ⟨_, (SemanticModel.exists_member_resolve_iff htarget hunion).mp ⟨member, hm, rfl⟩, ha⟩

theorem subtype_of_reflTransGen_refers (h : ReflTransGen arena.model.Refers ty last) :
    arena.Subtype ty last := by
  induction h using ReflTransGen.head_induction_on with
  | refl => exact Subtype.refl last
  | head hstep _ ih =>
    obtain ⟨name, hn⟩ := refers_iff.mp hstep
    exact Subtype.of_obeys ((obeys_of_reference hn).mpr ih)

theorem clauses_of_refers (h : arena.node ty = .nominal name supertypes)
    (hn : arena.model.Refers sup next) : arena.clauses ty sup = [[(ty, next)]] := by
  obtain ⟨other, hname⟩ := refers_iff.mp hn
  simp [clauses, h, hname]

variable (arena) in
def Refuses (last : TypeId) : Prop :=
  arena.node last = .json ∨ ∃ name, arena.node last = .named name none

theorem clauses_of_refuses (h : arena.node ty = .nominal name supertypes)
    (hlast : arena.Refuses last) : arena.clauses ty last = [[]] := by
  rcases hlast with hj | ⟨other, hu⟩
  · simp [clauses, jsonClauses, h, hj]
  · simp [clauses, h, hu]

theorem not_subtype_of_refuses (h : arena.node ty = .nominal name supertypes)
    (hlast : arena.Refuses last) (hr : ReflTransGen arena.model.Refers sup last) :
    ¬ arena.Subtype ty sup := by
  induction hr using ReflTransGen.head_induction_on with
  | refl =>
    intro hs
    rcases hs.eq_or_obeys with rfl | ho
    · rcases hlast with hj | ⟨other, hu⟩
      · exact TypeNode.noConfusion (h.symm.trans hj)
      · exact TypeNode.noConfusion (h.symm.trans hu)
    · rw [obeys_iff, clauses_of_refuses h hlast] at ho
      obtain ⟨part, hp, -⟩ := ho [] (List.mem_singleton_self [])
      cases hp
  | head hstep _ ih =>
    obtain ⟨other, hn⟩ := refers_iff.mp hstep
    intro hs
    rcases hs.eq_or_obeys with rfl | ho
    · exact TypeNode.noConfusion (h.symm.trans hn)
    · exact ih ((obeys_reference (concrete_of_nominal h).1 hn).mp ho)

theorem safelyChosen_of_refuses (h : arena.node ty = .nominal name supertypes)
    (hlast : arena.Refuses last) (hr : ReflTransGen arena.model.Refers sup last) :
    arena.SafelyChosen (ty, sup) := by
  -- the search follows the names one by one, so no clause offers a choice
  have hclauses : ∀ next, ReflTransGen arena.model.Refers next last →
      ∀ clause ∈ arena.clauses ty next, clause = [] ∨
        ∃ after, clause = [(ty, after)] ∧ ReflTransGen arena.model.Refers after last := by
    intro next hnext clause hc
    rcases ReflTransGen.cases_head hnext with rfl | ⟨after, hn, hrest⟩
    · rw [clauses_of_refuses h hlast] at hc
      exact Or.inl (List.mem_singleton.mp hc)
    · rw [clauses_of_refers h hn] at hc
      exact Or.inr ⟨after, List.mem_singleton.mp hc, hrest⟩
  have hasks : ∀ part, ReflTransGen arena.Asks (ty, sup) part →
      ∃ next, part = (ty, next) ∧ ReflTransGen arena.model.Refers next last := by
    intro part hp
    induction hp with
    | refl => exact ⟨sup, rfl, hr⟩
    | tail _ hask ih =>
      obtain ⟨next, rfl, hnext⟩ := ih
      obtain ⟨clause, hc, hm⟩ := hask
      rcases hclauses next hnext clause hc with rfl | ⟨after, rfl, hafter⟩
      · cases hm
      · exact ⟨after, List.mem_singleton.mp hm, hafter⟩
  intro part hp clause hc choice hch
  obtain ⟨next, rfl, hnext⟩ := hasks part hp
  rcases hclauses next hnext clause hc with rfl | ⟨after, rfl, -⟩ <;> cases hch

theorem isSubtype_single_iff (h : arena.node ty = .nominal name supertypes)
    (hp : parent ∈ supertypes) (hsingle : arena.model.Single parent) :
    arena.isSubtype ty parent = true ↔ ¬ arena.Refuses (arena.model.resolve parent) := by
  have hchain : ReflTransGen arena.model.Refers parent (arena.model.resolve parent) :=
    SemanticModel.reflTransGen_refers_resolve parent
  constructor
  · intro hs hrefuses
    have hsafe := safelyChosen_of_refuses h hrefuses hchain
    exact not_subtype_of_refuses h hrefuses hchain (subtype_of_isSubtype hsafe hs)
  · intro hrefuses
    apply isSubtype_of_subtype
    have hty : arena.Concrete ty := concrete_of_nominal h
    rcases concrete_or (arena.model.resolve parent) with
      hc | ⟨members, hm⟩ | ⟨other, _ | target, hn⟩
    · apply subtype_of_opens hty (SemanticModel.reflTransGen_opens_resolve parent)
      apply subtype_of_admits h
      refine Or.inr ⟨hc, fun hj => hrefuses (Or.inl hj), parent, hp, ?_⟩
      exact subtype_of_reflTransGen_refers hchain
    · exact absurd (shape_eq_union_iff.mpr hm) (hsingle members)
    · exact absurd (Or.inr ⟨other, hn⟩) hrefuses
    · apply subtype_of_loops hty
      apply SemanticModel.loops_of_refers_resolve
      exact refers_iff.mpr ⟨other, hn⟩

variable (arena ty supertypes) in
def Admitted (sup : TypeId) : Prop :=
  arena.model.Loops sup ∨
    ∃ member ∈ arena.model.unionMembers sup, arena.Admits ty supertypes (arena.model.resolve member)

theorem isSubtype_declared (h : arena.node ty = .nominal name supertypes)
    (hp : parent ∈ supertypes) :
    (arena.model.Single parent →
      (arena.isSubtype ty parent = true ↔ ¬ arena.Refuses (arena.model.resolve parent))) ∧
    (arena.Admitted ty supertypes parent → arena.isSubtype ty parent = true) ∧
    (arena.SafelyChosen (ty, parent) → arena.isSubtype ty parent = true →
      arena.Admitted ty supertypes parent) := by
  have hiff : arena.Subtype ty parent ↔ arena.Admitted ty supertypes parent := by
    rw [subtype_nominal_iff h, exists_admits_iff h, Admitted]
  refine ⟨isSubtype_single_iff h hp, fun ha => ?_, fun hc hs => ?_⟩
  · exact isSubtype_of_subtype (hiff.mpr ha)
  · exact hiff.mp (subtype_of_isSubtype hc hs)

def declaredArena : TypeArena :=
  ((((((((TypeArena.empty.add (.primitive .string) (by decide)).add
    (.primitive .int) (by decide)).add (.union [2, 3]) (by decide)).add
    (.nominal "Id" [4]) (by decide)).add (.nominal "Doc" [jsonId]) (by decide)).add
    (.record [⟨"id", 2, false⟩]) (by decide)).add (.named "Pet" (some 7)) (by decide)).add
    (.union [8, errorId]) (by decide)).add (.nominal "Cat" [8, 9]) (by decide)

theorem isSubtype_declared_cat :
    declaredArena.node 10 = .nominal "Cat" [8, 9] ∧ 8 ∈ [8, 9] ∧ 9 ∈ [8, 9] ∧
      declaredArena.model.Single 8 ∧ declaredArena.Admitted 10 [8, 9] 9 ∧
      declaredArena.isSubtype 10 8 = true ∧ declaredArena.isSubtype 10 9 = true := by
  have hcat : declaredArena.node 10 = .nominal "Cat" [8, 9] := by decide
  have hrecord : declaredArena.node 7 = .record [⟨"id", 2, false⟩] := by decide
  have hunion : declaredArena.model.resolve 9 = 9 :=
    SemanticModel.resolve_of_target_none (by decide)
  have hrefers : ReflTransGen declaredArena.model.Refers 8 7 :=
    .single (refers_iff.mpr ⟨"Pet", by decide⟩)
  have hpet : declaredArena.model.resolve 8 = 7 := SemanticModel.resolve_of_ends hrefers (by decide)
  have hsingle : declaredArena.model.Single 8 := by
    intro members
    rw [hpet, Ne, shape_eq_union_iff, hrecord]
    exact TypeNode.noConfusion
  have hadmitted : declaredArena.Admitted 10 [8, 9] 9 := by
    refine Or.inr ⟨8, ?_, ?_⟩
    · apply SemanticModel.mem_unionMembers_iff.mpr
      exact ⟨hsingle, .single ⟨[8, errorId], by rw [hunion]; decide, by decide⟩⟩
    · rw [hpet]
      right
      refine ⟨by simp [Concrete, hrecord], by simp [hrecord], 8, by decide, ?_⟩
      exact subtype_of_reflTransGen_refers hrefers
  have hrefuses : ¬ declaredArena.Refuses 7 := by simp [Refuses, hrecord]
  refine ⟨hcat, by decide, by decide, hsingle, hadmitted, ?_, ?_⟩
  · exact ((isSubtype_declared hcat (by decide)).1 hsingle).mpr (hpet ▸ hrefuses)
  · exact (isSubtype_declared hcat (by decide)).2.1 hadmitted

theorem not_isSubtype_declared :
    declaredArena.node 5 = .nominal "Id" [4] ∧ declaredArena.isSubtype 5 4 = false ∧
      declaredArena.node 6 = .nominal "Doc" [jsonId] ∧
      declaredArena.isSubtype 6 jsonId = false := by
  decide

end TypeArena

end NaturalFunctions
