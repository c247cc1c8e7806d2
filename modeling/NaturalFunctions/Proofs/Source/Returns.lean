import NaturalFunctions.Proofs.Source.Contract
import NaturalFunctions.Proofs.Subtyping.ErrorType

namespace NaturalFunctions

def Rule.concernsReturns : Rule → Bool
  | .returnsError => true
  | .returnsSuccessAndError => true
  | .successIsJson => true
  | _ => false

namespace Signature

variable {model : SemanticModel} {names : MarkerNames} {form : NaturalForm} {document : String}
  {function : FunctionDef} {diagnostic : Diagnostic}

theorem concernsReturns_of_mem_checkParams
    (h : diagnostic ∈ checkParams model names document function form) :
    diagnostic.rule.concernsReturns = false := by
  rcases List.mem_append.mp h with h | h
  · obtain ⟨param, -, h⟩ := List.mem_flatMap.mp h
    split at h
    · rename_i contract hc
      have hrules : contract.kindRule.concernsReturns = false ∧
          contract.typeRule.concernsReturns = false := by
        unfold Capabilities.contract? at hc
        grind [Rule.concernsReturns]
      unfold checkParam at h
      grind [Diagnostic.violation]
    · cases h
  · grind [Diagnostic.violation, Rule.concernsReturns]

theorem concernsReturns_of_mem_checkReturns
    (h : diagnostic ∈ checkReturns model document function form) :
    diagnostic.rule.concernsReturns = true := by
  unfold checkReturns checkMembers at h
  grind [Diagnostic.violation, Rule.concernsReturns]

theorem unreported_iff :
    (∀ diagnostic ∈ checkFunction model names document function form,
        diagnostic.rule.concernsReturns = false) ↔
      checkReturns model document function form = [] := by
  simp only [checkFunction, List.forall_mem_append]
  constructor
  · rintro ⟨-, h⟩
    rw [List.eq_nil_iff_forall_not_mem]
    intro diagnostic hd
    exact Bool.false_ne_true ((h diagnostic hd).symm.trans (concernsReturns_of_mem_checkReturns hd))
  · intro h
    refine ⟨fun diagnostic hd => concernsReturns_of_mem_checkParams hd, ?_⟩
    rw [h]
    simp

theorem checkMembers_eq_nil_iff (document : String) (span : Span) {type : TypeId} :
    checkMembers model document span type = [] ↔ ∀ member ∈ model.unionMembers type,
      model.isSubtype member model.errorType = true ∨
        model.isSubtype member model.jsonType = true := by
  rw [checkMembers, List.flatMap_eq_nil_iff]
  refine forall₂_congr fun member _ => ?_
  rw [← Bool.or_eq_true]
  split <;> simp_all

theorem checkReturns_eq_nil_iff {span : Span} {type : TypeId}
    (hr : function.returns = some ⟨some type, span⟩) :
    checkReturns model document function form = [] ↔
      model.isSubtype model.errorType type = true ∧
      (form = .broad → model.isSubtype type model.errorType = false) ∧
      ∀ member ∈ model.unionMembers type, model.isSubtype member model.errorType = true ∨
        model.isSubtype member model.jsonType = true := by
  rw [← checkMembers_eq_nil_iff document span]
  simp only [checkReturns, hr]
  by_cases he : model.isSubtype model.errorType type = true
  · by_cases hb : form = .broad ∧ model.isSubtype type model.errorType = true
    · simp [he, hb.1, hb.2]
    · have hbroad : form = .broad → model.isSubtype type model.errorType = false :=
        fun hf => Bool.eq_false_iff.mpr fun hs => hb ⟨hf, hs⟩
      have hcond : (decide (form = .broad) && model.isSubtype type model.errorType) = false := by
        rw [Bool.and_eq_false_iff, decide_eq_false_iff_not]
        by_cases hf : form = .broad
        · exact Or.inr (hbroad hf)
        · exact Or.inl hf
      simp only [he, hcond, Bool.not_true, Bool.false_eq_true, ↓reduceIte, true_and]
      exact (and_iff_right hbroad).symm
  · simp [he]

open TypeArena in
theorem unreported_returns (arena : TypeArena) (names : MarkerNames) (document : String)
    (function : FunctionDef) (form : NaturalForm) (type : TypeId) (span : Span)
    (hr : function.returns = some ⟨some type, span⟩) :
    let members := arena.model.unionMembers type
    ((∀ diagnostic ∈ checkFunction arena.model names document function form,
        diagnostic.rule.concernsReturns = false) ↔
      ((∃ member ∈ members, arena.model.resolve member = errorId) ∨ arena.model.Loops type) ∧
      (form = .broad → arena.isSubtype type errorId = false) ∧
      ∀ member ∈ members,
        arena.isSubtype member errorId = true ∨ arena.isSubtype member jsonId = true) ∧
    (arena.isSubtype type errorId = false → ∃ member ∈ members,
      ¬ arena.Subtype member errorId ∧
        (arena.SafelyChosen (member, errorId) → arena.isSubtype member errorId = false)) := by
  intro members
  constructor
  · rw [unreported_iff, checkReturns_eq_nil_iff hr]
    exact and_congr_left fun _ => isSubtype_errorId_iff
  · intro hb
    have herror : ∀ name target, arena.node errorId ≠ .named name target := by
      simp [arena.node_errorId]
    obtain ⟨member, hm, hn⟩ := exists_member_not_subtype herror hb
    refine ⟨member, hm, hn, fun hc => ?_⟩
    rw [Bool.eq_false_iff]
    exact fun hs => hn (subtype_of_isSubtype hc hs)

open TypeArena in
theorem unreported_returns_ask :
    askFunction.returns = some ⟨some 2, Span.none⟩ ∧
    (∀ diagnostic ∈ checkFunction askArena.model .standard "main" askFunction .broad,
      diagnostic.rule.concernsReturns = false) ∧
    ((∃ member ∈ askArena.model.unionMembers 2, askArena.model.resolve member = errorId) ∨
      askArena.model.Loops 2) ∧
    ∃ member ∈ askArena.model.unionMembers 2, askArena.isSubtype member errorId = false := by
  have hreturns : askFunction.returns = some ⟨some 2, Span.none⟩ := rfl
  have htagged : askDocument.TaggedAs .standard askFunction .broad :=
    ⟨List.mem_cons_self, "np", by decide, by decide⟩
  have hclean : ∀ diagnostic ∈ checkFunction askArena.model .standard "main" askFunction .broad,
      diagnostic.rule.concernsReturns = false := by
    intro diagnostic hd
    have hm : diagnostic ∈ checkModule askArena.model .standard askSource :=
      List.mem_flatMap.mpr ⟨askDocument, List.mem_cons_self,
        mem_checkDocument.mpr ⟨_, _, htagged, hd⟩⟩
    rw [checkModule_askSource] at hm
    cases hm
  obtain ⟨hreport, hsuccess⟩ := unreported_returns askArena .standard "main" askFunction .broad 2
    Span.none hreturns
  obtain ⟨herror, hbroad, -⟩ := hreport.mp hclean
  obtain ⟨member, hm, hn, hsafe⟩ := hsuccess (hbroad rfl)
  have hjson : askArena.SafelyChosen (jsonId, errorId) := by
    intro part hr clause hc choice hchoice
    have hnone : ∀ part, ¬ askArena.Asks (jsonId, errorId) part := by
      rintro part ⟨clause, hc, hp⟩
      obtain rfl : clause = [] := List.mem_singleton.mp hc
      cases hp
    rcases Relation.ReflTransGen.cases_head hr with rfl | ⟨part, hask, -⟩
    · obtain rfl : clause = [] := List.mem_singleton.mp hc
      cases hchoice
    · exact absurd hask (hnone part)
  have hmember : member = jsonId := by
    rw [unionMembers_askArena] at hm
    rcases List.mem_pair.mp hm with rfl | rfl
    · rfl
    · exact absurd (TypeArena.Subtype.refl errorId) hn
  exact ⟨hreturns, hclean, herror, member, hm, hsafe (hmember ▸ hjson)⟩

def circularArena : TypeArena :=
  (((TypeArena.empty.add (.named "Circle" none) (by decide)).add (.primitive .int) (by decide)).add
    (.union [2, 3]) (by decide)).define 2 4 (by decide)

/-- The members of the result type are two nominal types and `error`. The first nominal type, of
handle 8, leads through its supertype to the result type itself and to a name that only counts as
an `error` while its own definition is under examination. -/
def pretendingArena : TypeArena :=
  (((((((((TypeArena.empty.add (.named "Result" none) (by decide)).add
    (.named "Pretence" none) (by decide)).add (.primitive .int) (by decide)).add
    (.union [3, 4]) (by decide)).add (.nominal "Failure" [5, 0]) (by decide)).add
    (.union [2, 3]) (by decide)).add (.nominal "Guise" [7]) (by decide)).add
    (.union [8, 6, 0]) (by decide)).define 2 9 (by decide)).define 3 5 (by decide)

theorem unionMembers_circularArena : circularArena.model.unionMembers 2 = [3] := by
  have hname : circularArena.model.resolve 2 = 4 := SemanticModel.resolve_of_ends (.single rfl) rfl
  have hunion : circularArena.model.shape (circularArena.model.resolve 2) = .union [2, 3] := by
    rw [hname]
    decide
  have hint : circularArena.model.Single 3 := by
    have hself : circularArena.model.resolve 3 = 3 :=
      SemanticModel.resolve_of_target_none (by decide)
    have hshape : circularArena.model.shape 3 = .primitive .int := by decide
    simp [SemanticModel.Single, hself, hshape]
  rw [SemanticModel.unionMembers, SemanticModel.membersFrom_enter hunion List.not_mem_nil,
    List.cons_append, SemanticModel.membersFrom_again hunion List.mem_cons_self, List.cons_append,
    SemanticModel.membersFrom_single hint, List.append_nil, SemanticModel.membersFrom]

theorem unionMembers_pretendingArena : pretendingArena.model.unionMembers 2 = [8, 6, 0] := by
  have hname : pretendingArena.model.resolve 2 = 9 :=
    SemanticModel.resolve_of_ends (.single rfl) rfl
  have hunion : pretendingArena.model.shape (pretendingArena.model.resolve 2) =
      .union [8, 6, 0] := by
    rw [hname]
    decide
  have htarget : ∀ member ∈ [8, 6, 0], (pretendingArena.model.shape member).target? = none := by
    decide
  have hshape : ∀ member ∈ [8, 6, 0], pretendingArena.model.shape member = .error ∨
      pretendingArena.model.shape member = .other "Guise" ∨
        pretendingArena.model.shape member = .other "Failure" := by decide
  refine SemanticModel.unionMembers_of_singles hunion fun member hm => ?_
  rw [SemanticModel.Single, SemanticModel.resolve_of_target_none (htarget member hm)]
  rcases hshape member hm with h | h | h <;> simp [h]

open TypeArena in
theorem unreported_without_error :
    ((∀ diagnostic ∈ checkFunction circularArena.model .standard "main" (questionOn 2) .broad,
        diagnostic.rule.concernsReturns = false) ∧
      ∀ member ∈ circularArena.model.unionMembers 2,
        circularArena.model.resolve member ≠ errorId) ∧
    (∀ diagnostic ∈ checkFunction pretendingArena.model .standard "main" (questionOn 2) .broad,
        diagnostic.rule.concernsReturns = false) ∧
      ∀ member ∈ pretendingArena.model.unionMembers 2,
        pretendingArena.isSubtype member errorId = true := by
  have hreturns : (questionOn 2).returns = some ⟨some 2, Span.none⟩ := rfl
  rw [unreported_iff, unreported_iff, checkReturns_eq_nil_iff hreturns,
    checkReturns_eq_nil_iff hreturns, unionMembers_circularArena, unionMembers_pretendingArena]
  have hself : circularArena.model.resolve 3 = 3 :=
    SemanticModel.resolve_of_target_none (by decide)
  have hcircular : circularArena.isSubtype errorId 2 = true ∧
      circularArena.isSubtype 2 errorId = false ∧ circularArena.isSubtype 3 jsonId = true := by
    decide
  have hpretending : pretendingArena.isSubtype errorId 2 = true ∧
      pretendingArena.isSubtype 2 errorId = false ∧
      ∀ member ∈ [8, 6, 0], pretendingArena.isSubtype member errorId = true := by
    decide
  refine ⟨⟨⟨hcircular.1, fun _ => hcircular.2.1, ?_⟩, ?_⟩,
    ⟨hpretending.1, fun _ => hpretending.2.1, ?_⟩, hpretending.2.2⟩
  · intro member hm
    obtain rfl := List.mem_singleton.mp hm
    exact Or.inr hcircular.2.2
  · simp [hself, errorId]
  · exact fun member hm => Or.inl (hpretending.2.2 member hm)

end Signature

end NaturalFunctions
