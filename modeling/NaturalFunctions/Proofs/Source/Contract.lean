import NaturalFunctions.Proofs.Source.Rewriting

namespace NaturalFunctions

def Capabilities.companion (known : Capabilities) : NaturalForm → Option TypeId
  | .broad => known.context
  | .direct => known.model

structure Param.Fits (model : SemanticModel) (capability : Option TypeId) (param : Param) :
    Prop where
  kind : param.kind = .required ∨ param.kind = .defaultable
  type : ∀ type wanted, param.type = some type → capability = some wanted →
    model.isSubtype type wanted = true

structure FunctionDef.ParamsFit (model : SemanticModel) (names : MarkerNames) (form : NaturalForm)
    (function : FunctionDef) : Prop where
  takes_prompt : ∃ param ∈ function.params, param.name = "prompt"
  prompt : ∀ param ∈ function.params, param.name = "prompt" →
    param.Fits model (Capabilities.of model names).prompt
  companion : ∀ param ∈ function.params, param.name = form.companion →
    param.Fits model ((Capabilities.of model names).companion form)

def Document.TaggedAs (names : MarkerNames) (document : Document) (function : FunctionDef)
    (form : NaturalForm) : Prop :=
  function ∈ document.functions ∧ ∃ own, document.markerAlias? names = some own ∧
    function.naturalForm? names own = some form

variable {model : SemanticModel} {names : MarkerNames} {form : NaturalForm}

theorem Document.tagged_iff {document : Document} {function : FunctionDef} :
    document.Tagged names function ↔ ∃ form, document.TaggedAs names function form := by
  simp only [Document.Tagged, FunctionDef.Tagged, Document.TaggedAs, Option.isSome_iff_exists]
  constructor
  · rintro ⟨hf, own, ho, form, hform⟩
    exact ⟨form, hf, own, ho, hform⟩
  · rintro ⟨form, hf, own, ho, hform⟩
    exact ⟨hf, own, ho, form, hform⟩

theorem Document.taggedAs_singleton {document : Document} {only function : FunctionDef}
    {own : String} {form form' : NaturalForm} (hf : document.functions = [only])
    (ho : document.markerAlias? names = some own)
    (hform : only.naturalForm? names own = some form) :
    document.TaggedAs names function form' ↔ function = only ∧ form' = form := by
  simp only [Document.TaggedAs, hf, ho, List.mem_singleton, Option.some.injEq, exists_eq_left']
  constructor
  · rintro ⟨rfl, hform'⟩
    exact ⟨rfl, Option.some.inj (hform'.symm.trans hform)⟩
  · rintro ⟨rfl, rfl⟩
    exact ⟨rfl, hform⟩

theorem Document.not_taggedAs_of_unmarked {document : Document} {function : FunctionDef}
    (h : document.markerAlias? names = none) : ¬ document.TaggedAs names function form := by
  rintro ⟨-, own, ho, -⟩
  rw [h] at ho
  cases ho

theorem isPositional_iff {kind : ParamKind} :
    kind.isPositional = true ↔ kind = .required ∨ kind = .defaultable := by
  cases kind <;> simp [ParamKind.isPositional]

theorem contract?_prompt (known : Capabilities) (form : NaturalForm) {name : String}
    (h : name = "prompt") :
    ∃ contract, known.contract? form name = some contract ∧
      contract.capability = known.prompt := by
  subst h
  exact ⟨_, rfl, rfl⟩

theorem contract?_companion (known : Capabilities) {name : String} (h : name = form.companion) :
    ∃ contract, known.contract? form name = some contract ∧
      contract.capability = known.companion form := by
  subst h
  cases form with
  | broad => exact ⟨_, rfl, rfl⟩
  | direct => exact ⟨_, rfl, rfl⟩

theorem contract?_eq_some {known : Capabilities} {name : String} {contract : ParamContract}
    (h : known.contract? form name = some contract) :
    name = "prompt" ∧ contract.capability = known.prompt ∨
      name = form.companion ∧ contract.capability = known.companion form := by
  by_cases hp : name = "prompt"
  · obtain ⟨own, ho, hc⟩ := contract?_prompt known form hp
    obtain rfl : contract = own := Option.some.inj (h.symm.trans ho)
    exact Or.inl ⟨hp, hc⟩
  · by_cases hn : name = form.companion
    · obtain ⟨own, ho, hc⟩ := contract?_companion known hn
      obtain rfl : contract = own := Option.some.inj (h.symm.trans ho)
      exact Or.inr ⟨hn, hc⟩
    · simp [Capabilities.contract?, hp, hn] at h

namespace Signature

theorem checkParam_eq_nil_iff {document : String} {contract : ParamContract} {param : Param} :
    checkParam model document contract param = [] ↔ param.Fits model contract.capability := by
  unfold checkParam
  rw [List.append_eq_nil_iff]
  have hkind : (if param.kind.isPositional then [] else
      [Diagnostic.violation contract.kindRule document param.span]) = [] ↔
      param.kind = .required ∨ param.kind = .defaultable := by
    rw [← isPositional_iff]
    by_cases hk : param.kind.isPositional = true <;> simp [hk]
  rw [hkind]
  constructor
  · rintro ⟨hk, ht⟩
    refine ⟨hk, fun type wanted hty hw => ?_⟩
    simpa [hty, hw] using ht
  · rintro ⟨hk, ht⟩
    refine ⟨hk, ?_⟩
    split
    · rename_i type wanted hty hw
      rw [if_pos (ht type wanted hty hw)]
    · rfl

theorem checkParams_eq_nil_iff {document : String} {function : FunctionDef} :
    checkParams model names document function form = [] ↔
      function.ParamsFit model names form := by
  unfold checkParams
  rw [List.append_eq_nil_iff, List.flatMap_eq_nil_iff]
  constructor
  · rintro ⟨heach, hany⟩
    have hfits : ∀ param ∈ function.params, ∀ contract,
        (Capabilities.of model names).contract? form param.name = some contract →
          param.Fits model contract.capability := by
      intro param hp contract hc
      have hnil := heach param hp
      rw [hc] at hnil
      exact checkParam_eq_nil_iff.mp hnil
    refine ⟨?_, fun param hp hn => ?_, fun param hp hn => ?_⟩
    · simpa using hany
    · obtain ⟨contract, hc, hcap⟩ := contract?_prompt _ _ hn
      exact hcap ▸ hfits param hp contract hc
    · obtain ⟨contract, hc, hcap⟩ := contract?_companion _ hn
      exact hcap ▸ hfits param hp contract hc
  · rintro ⟨htakes, hprompt, hcompanion⟩
    refine ⟨fun param hp => ?_, by simpa using htakes⟩
    cases hc : (Capabilities.of model names).contract? form param.name with
    | none => rfl
    | some contract =>
      apply checkParam_eq_nil_iff.mpr
      rcases contract?_eq_some hc with ⟨hn, hcap⟩ | ⟨hn, hcap⟩
      · exact hcap ▸ hprompt param hp hn
      · exact hcap ▸ hcompanion param hp hn

variable {document : String} {diagnostic : Diagnostic}

theorem isError_of_mem_checkParams {function : FunctionDef}
    (h : diagnostic ∈ checkParams model names document function form) :
    diagnostic.isError = true := by
  rcases List.mem_append.mp h with h | h
  · obtain ⟨param, -, h⟩ := List.mem_flatMap.mp h
    split at h
    · unfold checkParam at h
      grind [Diagnostic.violation, Diagnostic.isError]
    · cases h
  · grind [Diagnostic.violation, Diagnostic.isError]

theorem isError_of_mem_checkMembers {span : Span} {type : TypeId}
    (h : diagnostic ∈ checkMembers model document span type) : diagnostic.isError = true := by
  obtain ⟨member, -, h⟩ := List.mem_flatMap.mp h
  grind [Diagnostic.violation, Diagnostic.isError]

theorem isError_of_mem_checkReturns {function : FunctionDef}
    (h : diagnostic ∈ checkReturns model document function form) : diagnostic.isError = true := by
  have hmembers := @isError_of_mem_checkMembers model document diagnostic
  unfold checkReturns at h
  grind [Diagnostic.violation, Diagnostic.isError]

theorem mem_checkDocument {document : Document} :
    diagnostic ∈ checkDocument model names document ↔ ∃ function form,
      document.TaggedAs names function form ∧
        diagnostic ∈ checkFunction model names document.name function form := by
  unfold checkDocument Document.TaggedAs
  cases document.markerAlias? names with
  | none => simp
  | some own =>
    simp only [List.mem_flatMap, Option.some.injEq, exists_eq_left']
    constructor
    · rintro ⟨function, hf, hd⟩
      split at hd
      · rename_i form hform
        exact ⟨function, form, ⟨hf, hform⟩, hd⟩
      · cases hd
    · rintro ⟨function, form, ⟨hf, hform⟩, hd⟩
      refine ⟨function, hf, ?_⟩
      rw [hform]
      exact hd

theorem hasError_checkModule_iff {source : SourceModule} :
    SourceModule.hasError (checkModule model names source) = true ↔
      ∃ document ∈ source.allDocuments, ∃ function form, document.TaggedAs names function form ∧
        checkFunction model names document.name function form ≠ [] := by
  simp only [SourceModule.hasError, List.any_eq_true, checkModule, List.mem_flatMap,
    mem_checkDocument]
  constructor
  · rintro ⟨diagnostic, ⟨document, hd, function, form, ht, hm⟩, -⟩
    exact ⟨document, hd, function, form, ht, List.ne_nil_of_mem hm⟩
  · rintro ⟨document, hd, function, form, ht, hne⟩
    obtain ⟨diagnostic, hm⟩ := List.exists_mem_of_ne_nil _ hne
    refine ⟨diagnostic, ⟨document, hd, function, form, ht, hm⟩, ?_⟩
    rcases List.mem_append.mp hm with hm | hm
    · exact isError_of_mem_checkParams hm
    · exact isError_of_mem_checkReturns hm

end Signature

theorem filterMap_map_edit {α : Type} {pick : Member → Option α} {edit : Member → Member}
    {change : α → α} (h : ∀ member, pick (edit member) = (pick member).map change)
    (members : List Member) :
    (members.map edit).filterMap pick = (members.filterMap pick).map change := by
  rw [List.filterMap_map, List.map_filterMap]
  exact List.filterMap_congr fun member _ => h member

theorem Document.functions_rewrite (document : Document) (cache : SchemaCache) :
    (document.rewrite names cache).functions = document.functions.map fun function =>
      match document.markerAlias? names with
      | some own => function.rewrite names own
      | none => function := by
  refine filterMap_map_edit (fun member => ?_) document.members
  cases member with
  | function f => rfl
  | type d => rfl

theorem Document.functions_rewrite_of_marked {document : Document} {cache : SchemaCache}
    {own : String} (h : document.markerAlias? names = some own) :
    (document.rewrite names cache).functions =
      document.functions.map (FunctionDef.rewrite names own) := by
  rw [Document.functions_rewrite, h]

theorem Document.functions_rewrite_of_unmarked {document : Document} {cache : SchemaCache}
    (h : document.markerAlias? names = none) :
    (document.rewrite names cache).functions = document.functions := by
  rw [Document.functions_rewrite, h]
  exact List.map_id _

structure SourceModule.Passes (model : SemanticModel) (names : MarkerNames)
    (source : SourceModule) : Prop where
  tagged : ∃ document ∈ source.allDocuments, ∃ function form,
    document.TaggedAs names function form
  clean : ∀ document ∈ source.allDocuments, ∀ function form,
    document.TaggedAs names function form →
      Signature.checkFunction model names document.name function form = []

theorem SourceModule.passes_iff {source : SourceModule} :
    source.Passes model names ↔ source.taggedFunctions names ≠ [] ∧
      hasError (Signature.checkModule model names source) = false := by
  have htagged : source.taggedFunctions names ≠ [] ↔ ∃ document ∈ source.allDocuments,
      ∃ function form, document.TaggedAs names function form := by
    rw [ne_eq, SourceModule.taggedFunctions_eq_nil_iff]
    simp only [Document.tagged_iff, not_forall, not_not, exists_prop]
  have hclean : hasError (Signature.checkModule model names source) = false ↔
      ∀ document ∈ source.allDocuments, ∀ function form, document.TaggedAs names function form →
        Signature.checkFunction model names document.name function form = [] := by
    rw [← Bool.not_eq_true, Signature.hasError_checkModule_iff]
    simp only [not_exists, not_and, not_not]
  rw [htagged, hclean]
  exact ⟨fun h => ⟨h.tagged, h.clean⟩, fun h => ⟨h.1, h.2⟩⟩

theorem SourceModule.rewrite_of_not_passes {mapper : StructuralMapper} {source : SourceModule}
    (h : ¬ source.Passes model names) :
    source.rewrite model mapper names =
      ⟨source, Signature.checkModule model names source, [], 0⟩ := by
  apply SourceModule.rewrite_of_stopped
  by_cases he : hasError (Signature.checkModule model names source) = true
  · exact Or.inl he
  · right
    apply Classical.byContradiction
    exact fun ht => h (SourceModule.passes_iff.mpr ⟨ht, Bool.eq_false_iff.mpr he⟩)

theorem SourceModule.rewrite_of_passes (mapper : StructuralMapper) {source : SourceModule}
    (h : source.Passes model names) :
    let result := source.rewrite model mapper names
    result.source.allDocuments =
        source.allDocuments.map (Document.rewrite names result.schemas) ∧
      result.schemas = source.extractSchemas model mapper names ∧ 0 < result.rewritten := by
  obtain ⟨htagged, hclean⟩ := SourceModule.passes_iff.mp h
  rw [SourceModule.rewrite_of_passed hclean htagged]
  exact ⟨(List.map_append ..).symm, rfl, List.length_pos_of_ne_nil htagged⟩

def FunctionDef.Forwards (names : MarkerNames) (own : String) (form : NaturalForm)
    (before after : FunctionDef) : Prop :=
  ∃ args, after.body = .call ⟨⟨some own, names.entryPoint⟩, args⟩ ∧
    (args = ["prompt", form.companion] ∧ (∃ param ∈ before.params, param.name = form.companion) ∨
      args = ["prompt"] ∧ ∀ param ∈ before.params, param.name ≠ form.companion) ∧
    ∀ arg ∈ args, ∃ param ∈ before.params, param.name = arg ∧
      (param.kind = .required ∨ param.kind = .defaultable)

theorem FunctionDef.rewrite_forwards {own : String} {function : FunctionDef}
    (hform : function.naturalForm? names own = some form)
    (hfit : function.ParamsFit model names form) :
    FunctionDef.Forwards names own form function (function.rewrite names own) := by
  obtain ⟨args, hbody, hargs⟩ := function.rewrite_edit.called hform
  refine ⟨args, hbody, hargs, ?_⟩
  obtain ⟨prompt, hp, hpn⟩ := hfit.takes_prompt
  have hprompt : ∃ param ∈ function.params, param.name = "prompt" ∧
      (param.kind = .required ∨ param.kind = .defaultable) :=
    ⟨prompt, hp, hpn, (hfit.prompt prompt hp hpn).kind⟩
  rcases hargs with ⟨rfl, companion, hm, hn⟩ | ⟨rfl, -⟩
  · have hcompanion := (hfit.companion companion hm hn).kind
    rw [List.forall_mem_cons, List.forall_mem_singleton]
    exact ⟨hprompt, companion, hm, hn, hcompanion⟩
  · rwa [List.forall_mem_singleton]

theorem SourceModule.rewrites_fitting_params (model : SemanticModel) (mapper : StructuralMapper)
    (names : MarkerNames) (source : SourceModule) :
    let result := source.rewrite model mapper names
    List.Forall₂ (fun document document' => List.Forall₂ (fun before after =>
        before.body ≠ after.body → ∃ own form, document.markerAlias? names = some own ∧
          before.naturalForm? names own = some form ∧ before.ParamsFit model names form ∧
          FunctionDef.Forwards names own form before after)
        document.functions document'.functions)
      source.allDocuments result.source.allDocuments ∧
    ∀ document ∈ source.allDocuments, ∀ function form, document.TaggedAs names function form →
      ¬ function.ParamsFit model names form →
        result.source = source ∧ result.schemas = [] ∧ result.rewritten = 0 := by
  intro result
  by_cases hpass : source.Passes model names
  · have hfit : ∀ document ∈ source.allDocuments, ∀ function form,
        document.TaggedAs names function form → function.ParamsFit model names form := by
      intro document hd function form ht
      have hparams := (List.append_eq_nil_iff.mp (hpass.clean document hd function form ht)).1
      exact Signature.checkParams_eq_nil_iff.mp hparams
    refine ⟨?_, fun document hd function form ht hbad => ?_⟩
    · rw [(SourceModule.rewrite_of_passes mapper hpass).1]
      apply List.forall₂_map_right_iff.mpr
      refine List.forall₂_same.mpr fun document hd => ?_
      cases hm : document.markerAlias? names with
      | none =>
        rw [Document.functions_rewrite_of_unmarked hm]
        exact List.forall₂_same.mpr fun function _ hne => absurd rfl hne
      | some own =>
        rw [Document.functions_rewrite_of_marked hm]
        apply List.forall₂_map_right_iff.mpr
        refine List.forall₂_same.mpr fun function hf hne => ?_
        obtain ⟨_, ho, hform⟩ := (@FunctionDef.rewrite_edit names own function).body_ne_iff.mp hne
        obtain rfl := Option.some.inj ho
        obtain ⟨form, hform⟩ := Option.isSome_iff_exists.mp hform
        have hparams := hfit document hd function form ⟨hf, own, hm, hform⟩
        exact ⟨own, form, rfl, hform, hparams, FunctionDef.rewrite_forwards hform hparams⟩
    · exact absurd (hfit document hd function form ht) hbad
  · have hresult : result = ⟨source, _, [], 0⟩ := SourceModule.rewrite_of_not_passes hpass
    rw [hresult]
    refine ⟨List.forall₂_same.mpr fun document _ => ?_, fun _ _ _ _ _ _ => ⟨rfl, rfl, rfl⟩⟩
    exact List.forall₂_same.mpr fun function _ hne => absurd rfl hne

def hastyFunction : FunctionDef :=
  { askFunction with params := [⟨"prompt", .required, some 3, Span.none, Span.none⟩] }

def hastyDocument : Document := { askDocument with members := [.function hastyFunction] }

def hastySource : SourceModule := ⟨"questions", [], [hastyDocument]⟩

theorem SourceModule.rewrites_fitting_params_ask :
    let known := Capabilities.of askArena.model .standard
    let result := askSource.rewrite askArena.model askArena.openApiMapper .standard
    (known.prompt = some 4 ∧ known.context = some 6) ∧
    (∃ document after, result.source.allDocuments = [document] ∧ document.functions = [after] ∧
      askFunction.body ≠ after.body ∧ askFunction.ParamsFit askArena.model .standard .broad ∧
      after.body = .call ⟨⟨some "np", "callLlm"⟩, ["prompt", "context"]⟩) ∧
    (hastyDocument.TaggedAs .standard hastyFunction .broad ∧
      ¬ hastyFunction.ParamsFit askArena.model .standard .broad ∧
      (hastySource.rewrite askArena.model askArena.openApiMapper .standard).source =
        hastySource) := by
  intro known result
  have hknown : known.prompt = some 4 ∧ known.context = some 6 := by decide
  refine ⟨hknown, ?_, ?_⟩
  · have hmarker : askDocument.markerAlias? .standard = some "np" := by decide
    have hform : askFunction.naturalForm? .standard "np" = some .broad := by decide
    have hpass : askSource.Passes askArena.model .standard := by
      apply passes_iff.mpr
      rw [checkModule_askSource]
      exact ⟨by decide, rfl⟩
    obtain ⟨hall, -, -⟩ := rewrite_of_passes askArena.openApiMapper hpass
    have hedits := (rewrites_fitting_params askArena.model askArena.openApiMapper .standard
      askSource).1
    rw [hall] at hedits
    have hdocument := (List.forall₂_cons.mp hedits).1
    have hfunctions : (askDocument.rewrite .standard result.schemas).functions =
        [askFunction.rewrite .standard "np"] := Document.functions_rewrite_of_marked hmarker
    change List.Forall₂ _ [askFunction] _ at hdocument
    rw [hfunctions] at hdocument
    have hbody : askFunction.body ≠ (askFunction.rewrite .standard "np").body := by decide
    obtain ⟨own, form, ho, hf, hfit, args, hcall, hargs, -⟩ :=
      (List.forall₂_cons.mp hdocument).1 hbody
    obtain rfl : "np" = own := Option.some.inj (hmarker.symm.trans ho)
    obtain rfl : .broad = form := Option.some.inj (hform.symm.trans hf)
    refine ⟨_, _, hall, hfunctions, hbody, hfit, ?_⟩
    rcases hargs with ⟨rfl, -⟩ | ⟨-, hnone⟩
    · exact hcall
    · exact absurd rfl (hnone ⟨"context", .defaultable, some 7, Span.none, Span.none⟩ (by decide))
  · have htagged : hastyDocument.TaggedAs .standard hastyFunction .broad :=
      ⟨List.mem_cons_self, "np", by decide, by decide⟩
    have hbad : ¬ hastyFunction.ParamsFit askArena.model .standard .broad := by
      intro hfit
      have hfits := hfit.prompt _ List.mem_cons_self rfl
      exact absurd (hfits.type 3 4 rfl hknown.1) (by decide)
    have hgate := (rewrites_fitting_params askArena.model askArena.openApiMapper .standard
      hastySource).2
    exact ⟨htagged, hbad, (hgate hastyDocument List.mem_cons_self _ _ htagged hbad).1⟩

end NaturalFunctions
