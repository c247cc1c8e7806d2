import NaturalFunctions.Proofs.Subtyping.Search

namespace NaturalFunctions.TypeArena

variable (arena : TypeArena) {sub sup : TypeId}

variable {arena} in
theorem isSubtype_of_subtype (h : arena.Subtype sub sup) : arena.isSubtype sub sup = true := by
  obtain ⟨holds, left, he, ho⟩ := arena.check_depthBound sub sup
  simp [isSubtype, he, ho.confirmed h]

variable {arena} in
theorem subtype_of_isSubtype (hc : arena.SafelyChosen (sub, sup))
    (h : arena.isSubtype sub sup = true) : arena.Subtype sub sup := by
  obtain ⟨holds, left, he, ho⟩ := arena.check_depthBound sub sup
  obtain rfl : holds = true := by simpa [isSubtype, he] using h
  -- the assumptions left at the end are a consistent relation
  refine ⟨Assumes left, fun a b hab => hab.imp_right fun hm => ?_, ho.found rfl⟩
  have hleft := ho.supported (Or.inr ⟨hc, rfl⟩) (a, b) hm
  exact (arena.obeys_iff _ _ _).mpr (hleft.resolve_left List.not_mem_nil).2

/-- The answers of an arena are right exactly when they support each other. One answer is right
when each choice of its search that another one may follow is right or leads into no loop. -/
theorem isSubtype_sound_iff :
    ((∀ a b, arena.isSubtype a b = true → arena.Subtype a b) ↔
      arena.Consistent fun a b => arena.isSubtype a b = true) ∧
    ∀ a b, arena.SafelyChosen (a, b) →
      (arena.isSubtype a b = true ↔ arena.Subtype a b) := by
  refine ⟨⟨fun hsound a b hab => ?_, fun hc a b hab => ⟨_, hc, hab⟩⟩, fun a b hc => ?_⟩
  · refine (hsound a b hab).eq_or_obeys.imp_right ?_
    exact Obeys.mono arena fun _ _ => isSubtype_of_subtype
  · exact ⟨subtype_of_isSubtype hc, isSubtype_of_subtype⟩

def nestedListArena : TypeArena :=
  (((((((((((TypeArena.empty.add (.named "Ints" none) (by decide)).add (.array 2) (by decide)).add
    (.primitive .int) (by decide)).add (.tuple [3, 4]) (by decide)).add
    (.named "Texts" none) (by decide)).add (.array 6) (by decide)).add
    (.primitive .string) (by decide)).add (.tuple [7, 8]) (by decide)).add
    (.tuple [7, 4]) (by decide)).add (.union [6, 10]) (by decide)).add
    (.union [10, 6]) (by decide)).define 2 5 (by decide) |>.define 6 9 (by decide)

theorem isSubtype_sound_ints :
    nestedListArena.SafelyChosen (5, 2) ∧ nestedListArena.isSubtype 5 2 = true ∧
      nestedListArena.Subtype 5 2 := by
  have hclosed : ∀ pair ∈ [(5, 2), (5, 5), (3, 3), (2, 2), (4, 4)],
      ∀ clause ∈ nestedListArena.clauses pair.1 pair.2, clause.dropLast = [] ∧
        ∀ part ∈ clause, part ∈ [(5, 2), (5, 5), (3, 3), (2, 2), (4, 4)] := by decide
  have hreach : ∀ part, Relation.ReflTransGen nestedListArena.Asks (5, 2) part →
      part ∈ [(5, 2), (5, 5), (3, 3), (2, 2), (4, 4)] := by
    intro part hr
    induction hr with
    | refl => decide
    | tail _ hask ih =>
      obtain ⟨clause, hc, hp⟩ := hask
      exact (hclosed _ ih clause hc).2 _ hp
  have hsafe : nestedListArena.SafelyChosen (5, 2) := by
    intro part hr clause hc choice hchoice
    rw [(hclosed part (hreach part hr) clause hc).1] at hchoice
    cases hchoice
  have hanswer : nestedListArena.isSubtype 5 2 = true := by decide
  exact ⟨hsafe, hanswer, ((isSubtype_sound_iff nestedListArena).2 5 2 hsafe).mp hanswer⟩

theorem isSubtype_unsound :
    nestedListArena.isSubtype 2 11 = true ∧ nestedListArena.isSubtype 2 12 = false ∧
      ¬ nestedListArena.Subtype 2 11 := by
  refine ⟨by decide, by decide, fun h => ?_⟩
  have hint : nestedListArena.Subtype 5 11 := h.eq_or_obeys.resolve_left (by decide)
  have hunion : ∃ member ∈ [6, 10], nestedListArena.Subtype 5 member :=
    hint.eq_or_obeys.resolve_left (by decide)
  have hanswer : ∀ member ∈ [6, 10], nestedListArena.isSubtype 5 member = false := by decide
  obtain ⟨member, hm, hs⟩ := hunion
  exact Bool.false_ne_true ((hanswer member hm).symm.trans (isSubtype_of_subtype hs))

end NaturalFunctions.TypeArena
