import NaturalFunctions.Proofs.Source.Edits
import NaturalFunctions.Types.ArenaModel
import NaturalFunctions.Types.OpenApi

namespace NaturalFunctions

variable {names : MarkerNames} {marker : Option String} {written : String} {cache : SchemaCache}

theorem missingSchema?_eq_some_iff {definition : TypeDef} {schema : Schema} :
    definition.missingSchema? names marker cache = some schema ↔
      definition.Lacks names marker cache schema := by
  unfold TypeDef.missingSchema? TypeDef.Lacks
  by_cases h : definition.tags.any (Tag.isSchema names marker) = true
  · rw [if_pos h]
    obtain ⟨tag, ht, hs⟩ := List.any_eq_true.mp h
    constructor
    · intro hn
      cases hn
    · intro hl
      exact absurd (hl.2 tag ht) (by simp [hs])
  · rw [if_neg h]
    have hall : ∀ tag ∈ definition.tags, tag.isSchema names marker = false := by
      intro tag ht
      rw [Bool.eq_false_iff]
      exact fun hs => h (List.any_eq_true.mpr ⟨tag, ht, hs⟩)
    exact (and_iff_left hall).symm

variable (names) in
theorem FunctionDef.passesOn_entryCall (own : String) (form : NaturalForm)
    (function : FunctionDef) :
    function.PassesOn form.companion (function.entryCall names own form).args := by
  have hparam : (function.param? form.companion).isSome = true ↔
      ∃ param ∈ function.params, param.name = form.companion := by
    simp [param?]
  by_cases h : (function.param? form.companion).isSome = true
  · exact Or.inl ⟨by simp [entryCall, h], hparam.mp h⟩
  · refine Or.inr ⟨by simp [entryCall, h], fun param hp hn => h ?_⟩
    exact hparam.mpr ⟨param, hp, hn⟩

theorem FunctionDef.rewrite_edit {own : String} (function : FunctionDef) :
    FunctionEdit names (some own) function (function.rewrite names own) := by
  have hbody : ∀ form, function.naturalForm? names own = some form →
      (function.rewrite names own).body = .call (function.entryCall names own form) := by
    intro form hf
    rw [rewrite, hf]
  constructor
  case broad =>
    intro _ ho hf
    cases ho
    exact ⟨_, hbody .broad hf, function.passesOn_entryCall names own .broad⟩
  case direct =>
    intro _ ho hf
    cases ho
    exact ⟨_, hbody .direct hf, function.passesOn_entryCall names own .direct⟩
  case kept =>
    intro hn
    cases h : function.naturalForm? names own with
    | none => rw [rewrite, h]
    | some form => exact absurd ⟨own, rfl, by rw [h]; rfl⟩ hn
  all_goals
    unfold rewrite
    split <;> rfl

theorem TypeDef.attach_edit (definition : TypeDef) :
    TypeEdit names marker written cache definition
      (definition.attach names marker written cache) := by
  unfold TypeDef.attach
  cases h : definition.missingSchema? names marker cache with
  | none =>
    refine ⟨rfl, rfl, rfl, fun schema hl => ?_, fun _ => rfl⟩
    rw [missingSchema?_eq_some_iff.mpr hl] at h
    cases h
  | some schema =>
    have hl := missingSchema?_eq_some_iff.mp h
    refine ⟨rfl, rfl, rfl, fun other ho => ?_, fun hn => absurd hl (hn schema)⟩
    obtain rfl : schema = other := Option.some.inj (hl.1.symm.trans ho.1)
    rfl

theorem Member.rewrite_edit (member : Member) :
    MemberEdit names marker written cache member (member.rewrite names marker written cache) := by
  cases member with
  | type definition => exact .type definition.attach_edit
  | function function =>
    apply MemberEdit.function
    cases marker with
    | none =>
      constructor
      case broad | direct =>
        intro own ho
        cases ho
      case kept => exact fun _ => rfl
      all_goals rfl
    | some own => exact function.rewrite_edit

theorem markerImport_isMarker : (markerImport names written).isMarker names = true := by
  simp [markerImport, Import.isMarker]

theorem markerImport_alias : (markerImport names written).alias = written := by
  unfold Import.alias markerImport
  by_cases h : written = names.defaultAlias
  · simp [h, MarkerNames.defaultAlias]
  · simp [h]

theorem Document.receives_iff (document : Document) :
    (document.typeDefinitions.any fun definition =>
      (definition.missingSchema? names (document.markerAlias? names) cache).isSome) = true ↔
      document.Receives names cache := by
  simp only [List.any_eq_true, Option.isSome_iff_exists, missingSchema?_eq_some_iff,
    Document.Receives]

theorem Document.rewrite_edit (document : Document) :
    ∃ written, DocumentEdit names cache written document (document.rewrite names cache) := by
  refine ⟨(document.markerAlias? names).getD (document.freshAlias names), rfl, ?_, ?_, ?_, ?_⟩
  · apply List.forall₂_map_right_iff.mpr
    exact List.forall₂_same.mpr fun member _ => member.rewrite_edit
  · intro own ho
    rw [ho]
    rfl
  · intro hn hr
    refine ⟨markerImport names (document.freshAlias names), ?_, markerImport_isMarker, ?_⟩
    · have hany := document.receives_iff.mpr hr
      rw [hn] at hany
      simp only [Document.rewrite, hn, hany, Option.isNone_none, Bool.and_self, ↓reduceIte,
        Option.getD_none]
    · rw [markerImport_alias, hn]
      rfl
  · intro hk
    have hnone : ((document.markerAlias? names).isNone &&
        document.typeDefinitions.any fun definition =>
          (definition.missingSchema? names (document.markerAlias? names) cache).isSome) = false := by
      rw [Bool.and_eq_false_iff]
      rcases hk with hsome | hr
      · exact Or.inl (by simpa [Option.isSome_iff_ne_none] using hsome)
      · exact Or.inr (Bool.eq_false_iff.mpr fun hany => hr (document.receives_iff.mp hany))
    simp only [Document.rewrite, hnone, Bool.false_eq_true, ↓reduceIte, List.append_nil]

theorem SourceModule.rewrite_edit (source : SourceModule) :
    SourceEdit names cache source
      { source with
        documents := source.documents.map (Document.rewrite names cache)
        testDocuments := source.testDocuments.map (Document.rewrite names cache) } where
  name := rfl
  documents := by
    apply List.forall₂_map_right_iff.mpr
    exact List.forall₂_same.mpr fun document _ => document.rewrite_edit
  testDocuments := by
    apply List.forall₂_map_right_iff.mpr
    exact List.forall₂_same.mpr fun document _ => document.rewrite_edit

theorem SourceModule.taggedFunctions_eq_nil_iff (source : SourceModule) :
    source.taggedFunctions names = [] ↔
      ∀ document ∈ source.allDocuments, ∀ function, ¬ document.Tagged names function := by
  rw [SourceModule.taggedFunctions, List.flatMap_eq_nil_iff]
  refine forall₂_congr fun document _ => ?_
  rw [List.eq_nil_iff_forall_not_mem]
  exact forall_congr' fun _ => not_congr mem_taggedFunctions

theorem SourceModule.rewrite_of_stopped {model : SemanticModel} {mapper : StructuralMapper}
    {source : SourceModule} (h : hasError (Signature.checkModule model names source) = true ∨
      source.taggedFunctions names = []) :
    source.rewrite model mapper names =
      ⟨source, Signature.checkModule model names source, [], 0⟩ := by
  have hguard : (hasError (Signature.checkModule model names source) ||
      (source.taggedFunctions names).isEmpty) = true := by
    rw [Bool.or_eq_true, List.isEmpty_iff]
    exact h
  simp only [SourceModule.rewrite, hguard, ↓reduceIte]

theorem Document.rewrittenBodies_eq_length (document : Document) :
    document.rewrittenBodies names = (document.taggedFunctions names).length := by
  unfold rewrittenBodies taggedFunctions
  cases document.markerAlias? names with
  | none => rfl
  | some own => exact List.countP_eq_length_filter

theorem foldl_rewrittenBodies (documents : List Document) (before : Nat) :
    documents.foldl (fun rewritten document => rewritten + document.rewrittenBodies names) before =
      before + (documents.flatMap (Document.taggedFunctions names)).length := by
  induction documents generalizing before with
  | nil => rfl
  | cons document rest ih =>
    rw [List.foldl_cons, ih, List.flatMap_cons, List.length_append,
      document.rewrittenBodies_eq_length, Nat.add_assoc]

theorem SourceModule.rewrite_of_passed {model : SemanticModel} {mapper : StructuralMapper}
    {source : SourceModule} (h : hasError (Signature.checkModule model names source) = false)
    (ht : source.taggedFunctions names ≠ []) :
    let cache := source.extractSchemas model mapper names
    source.rewrite model mapper names =
      ⟨{ source with
          documents := source.documents.map (Document.rewrite names cache)
          testDocuments := source.testDocuments.map (Document.rewrite names cache) },
        Signature.checkModule model names source, cache,
        (source.taggedFunctions names).length⟩ := by
  have hempty : (source.taggedFunctions names).isEmpty = false := by
    rw [Bool.eq_false_iff, ne_eq, List.isEmpty_iff]
    exact ht
  simp only [SourceModule.rewrite, h, hempty, Bool.or_self, Bool.false_eq_true, ↓reduceIte,
    foldl_rewrittenBodies, Nat.zero_add]
  rfl

def askArena : TypeArena :=
  ((((((TypeArena.empty.add (.union [1, 0]) (by decide)).add
    (.primitive .string) (by decide)).add (.nominal "Prompt" [3]) (by decide)).add
    (.nominal "Question" [4]) (by decide)).add (.record [⟨"user", 3, false⟩]) (by decide)).add
    (.record [⟨"user", 3, false⟩, ⟨"language", 3, true⟩]) (by decide)).publish
    "natural" "np" "Prompt" 4 |>.publish "natural" "np" "Context" 6

def questionOn (type : TypeId) : FunctionDef where
  name := "ask"
  params := [⟨"prompt", .required, none, Span.none, Span.none⟩]
  returns := some ⟨some type, Span.none⟩
  body := .external [⟨⟨some "np", "NaturalFunction"⟩, none⟩]
  span := Span.none

def askFunction : FunctionDef :=
  { questionOn 2 with
    params := [⟨"prompt", .required, some 5, Span.none, Span.none⟩,
      ⟨"context", .defaultable, some 7, Span.none, Span.none⟩] }

def askDocument : Document where
  name := "main"
  imports := [⟨some "natural", ["np"], none, Span.none⟩]
  members := [.function askFunction]

def askSource : SourceModule := ⟨"questions", [askDocument], []⟩

theorem resolve_askArena (ty : TypeId) : askArena.model.resolve ty = ty := by
  have htarget : (askArena.model.shape ty).target? = none := by
    match ty with
    | 0 | 1 | 2 | 3 | 4 | 5 | 6 | 7 | _ + 8 => rfl
  rw [SemanticModel.resolve, SemanticModel.resolveFrom]
  split
  · rfl
  · rename_i h
    rw [htarget] at h
    cases h

theorem unionMembers_askArena : askArena.model.unionMembers 2 = [1, 0] := by
  have hunion : askArena.model.shape 2 = .union [1, 0] := by decide
  have hother (ty : TypeId) (rest : List TypeId) (h : ty = 1 ∨ ty = 0) :
      askArena.model.membersFrom [2] (ty :: rest) = ty :: askArena.model.membersFrom [2] rest := by
    rw [SemanticModel.membersFrom]
    split
    · rename_i hshape
      rw [resolve_askArena] at hshape
      rcases h with rfl | rfl <;> cases hshape
    · rfl
  rw [SemanticModel.unionMembers, SemanticModel.membersFrom]
  split
  · rename_i members hshape
    rw [resolve_askArena, hunion] at hshape
    cases hshape
    simp only [resolve_askArena, List.not_mem_nil, ↓reduceDIte, List.append_nil]
    rw [hother 1 [0] (by simp), hother 0 [] (by simp), SemanticModel.membersFrom]
  · rename_i hshape
    exact absurd (by rw [resolve_askArena, hunion]) (hshape [1, 0])

theorem checkModule_askSource :
    Signature.checkModule askArena.model .standard askSource = [] := by
  have hmarker : askDocument.markerAlias? .standard = some "np" := by decide
  have hform : askFunction.naturalForm? .standard "np" = some .broad := by decide
  have hparams : Signature.checkParams askArena.model .standard "main" askFunction .broad = [] := by
    decide
  have hreturns : Signature.checkReturns askArena.model "main" askFunction .broad = [] := by
    have herror : askArena.model.isSubtype askArena.model.errorType 2 = true := by decide
    have hbroad : askArena.model.isSubtype 2 askArena.model.errorType = false := by decide
    simp only [Signature.checkReturns, askFunction, questionOn, herror, hbroad,
      Signature.checkMembers, unionMembers_askArena]
    decide
  have hdocument : Signature.checkDocument askArena.model .standard askDocument = [] := by
    have hfunctions : askDocument.functions = [askFunction] := rfl
    simp only [Signature.checkDocument, hmarker, hfunctions, List.flatMap_cons, List.flatMap_nil,
      hform, Signature.checkFunction]
    exact congrArg₂ (fun params returns => (params ++ returns) ++ []) hparams hreturns
  have hall : askSource.allDocuments = [askDocument] := rfl
  rw [Signature.checkModule, hall, List.flatMap_cons, hdocument]
  rfl

end NaturalFunctions
