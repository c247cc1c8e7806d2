import NaturalFunctions.Proofs.Derivation.Hoisting
import NaturalFunctions.Proofs.Source.Collection
import NaturalFunctions.Proofs.Source.ReadingBack

namespace NaturalFunctions

variable {model : SemanticModel} {mapper : StructuralMapper} {names : MarkerNames}
  {source : SourceModule} {attached attached' : List (String × Schema)}

namespace Extraction

theorem collected_congr
    (h : ∀ ty, model.derive mapper attached' ty = model.derive mapper attached ty)
    (functions : List FunctionDef) :
    collected model mapper attached' functions = collected model mapper attached functions := by
  have hvisit : ∀ state ty,
      visit model mapper attached' state ty = visit model mapper attached state ty := by
    intro state ty
    simp only [visit, h]
  have hwalk : ∀ state pending,
      walk model mapper attached' state pending = walk model mapper attached state pending := by
    intro state pending
    fun_induction walk model mapper attached state pending with
    | case1 state => rw [walk]
    | case2 state ty rest hv ih => rw [walk, dif_pos hv, ih]
    | case3 state ty rest hv ih => rw [walk, dif_neg hv, hvisit, ih]
  have hextract : extract model mapper attached' = extract model mapper attached := by
    funext state function
    simp only [extract, hwalk]
  rw [collected, hextract, collected]

end Extraction

namespace SourceModule

theorem hoisted_rewrite (hmapper : ∀ ty raw, mapper ty = some raw → raw.Proper)
    (hkeeps : ∀ document ∈ source.allDocuments,
      document.KeepsTags names (source.rewrite model mapper names).schemas)
    (hsole : ∀ name ty schema, source.Offers model mapper names name ty schema →
      model.SoleBearer ty)
    (hfree : ∀ entry ∈ (source.rewrite model mapper names).schemas, entry.2.FloatFree) :
    model.Hoisted mapper (source.attachedSchemas names)
      ((source.rewrite model mapper names).source.attachedSchemas names) := by
  intro name
  by_cases hpass : source.Passes model names
  · obtain ⟨hall, hschemas, -⟩ := rewrite_of_passes mapper hpass
    rcases lookup_attached_or_rereads hall hkeeps name with
      hsame | ⟨tree, ⟨schema, hcache, hread⟩, hl⟩
    · exact Or.inl hsame
    · rw [hschemas] at hcache hfree
      have hproper := proper_of_extracted hmapper hcache
      have hentry := hfree _ (Extraction.sorted_collected.mem_iff_lookup.mpr hcache)
      obtain rfl := Json.eq_of_ofText_text hproper hentry hread
      obtain ⟨ty, hlast⟩ := visitedLast_of_lookup hcache
      obtain ⟨-, hnamed, hderive⟩ := hlast.offers
      exact Or.inr ⟨ty, tree, hnamed, hsole name ty tree hlast.offers, hderive, hl⟩
  · rw [rewrite_of_not_passes hpass]
    exact Or.inl rfl

end SourceModule

/-- Attaching the schemas derived for types whose names nothing else bears changes no derivation,
and none that fails. So once a run has attached its schemas, every type is derived as before and the
same schemas are collected: unless an import that it adds makes a schema of an older tag, or a
schema has a double, which text does not always give back. -/
theorem SemanticModel.derive_hoist (model : SemanticModel) (mapper : StructuralMapper) :
    (∀ attached types, (∀ ty ∈ types, model.SoleBearer ty) → ∀ ty,
      model.derive mapper (model.hoist mapper attached types) ty =
        model.derive mapper attached ty) ∧
    ∀ names (source : SourceModule), (∀ ty raw, mapper ty = some raw → raw.Proper) →
      let result := source.rewrite model mapper names
      (∀ name ty schema, source.Offers model mapper names name ty schema → model.SoleBearer ty) →
      (∀ document ∈ source.allDocuments, document.KeepsTags names result.schemas) →
      (∀ entry ∈ result.schemas, entry.2.FloatFree) →
      (∀ ty, model.derive mapper (result.source.attachedSchemas names) ty =
        model.derive mapper (source.attachedSchemas names) ty) ∧
      ∀ functions,
        Extraction.collected model mapper (result.source.attachedSchemas names) functions =
          Extraction.collected model mapper (source.attachedSchemas names) functions := by
  refine ⟨fun attached types h => derive_of_hoisted (hoisted_hoist h), ?_⟩
  intro names source hmapper result hsole hkeeps hfree
  have hderive := derive_of_hoisted (source.hoisted_rewrite hmapper hkeeps hsole hfree)
  exact ⟨hderive, Extraction.collected_congr hderive⟩

theorem soleBearer_catArena (ty : TypeId) : catArena.model.SoleBearer ty := by
  rintro name ⟨target, hs⟩ other ⟨target', hs'⟩
  rw [eq_cat_of_shape hs, eq_cat_of_shape hs']

theorem SemanticModel.derive_hoist_nest_cat :
    let result := catSource.rewrite catArena.model catArena.openApiMapper .standard
    let attached' := result.source.attachedSchemas .standard
    (∀ ty ∈ [2, 4], nestArena.model.SoleBearer ty) ∧
    nestArena.model.hoist nestArena.openApiMapper [] [2, 4] = [("Leaf", Schema.anyJson)] ∧
    nestArena.model.derive nestArena.openApiMapper [("Leaf", Schema.anyJson)] 4 =
      some Schema.anyJson ∧
    nestArena.model.derive nestArena.openApiMapper [("Leaf", Schema.anyJson)] 2 = none ∧
    (∀ ty raw, catArena.openApiMapper ty = some raw → raw.Proper) ∧
    (∀ ty, catArena.model.SoleBearer ty) ∧
    (∀ document ∈ catSource.allDocuments, document.KeepsTags .standard result.schemas) ∧
    (∀ entry ∈ result.schemas, entry.2.FloatFree) ∧
    catSource.attachedSchemas .standard = [] ∧ attached'.lookup "Cat" = some Schema.anyJson ∧
    catArena.model.derive catArena.openApiMapper attached' 2 = some Schema.anyJson := by
  intro result attached'
  have hsole : ∀ ty, nestArena.model.SoleBearer ty :=
    fun _ _ hb _ ho => eq_of_bears_nestArena ho hb
  have hhoist : nestArena.model.hoist nestArena.openApiMapper [] [2, 4] =
      [("Leaf", Schema.anyJson)] := by
    simp [hoist, attachDerived, shape_nestArena, derive_nestArena, Table.put]
  have hnest := (derive_hoist nestArena.model nestArena.openApiMapper).1 [] [2, 4]
    fun ty _ => hsole ty
  rw [hhoist] at hnest
  have hmapper : ∀ ty raw, catArena.openApiMapper ty = some raw → raw.Proper :=
    fun _ _ => proper_of_catArena
  have hschemas : result.schemas = [("Cat", Schema.anyJson)] :=
    (SourceModule.rewrite_of_passes _ passes_catSource).2.1.trans extractSchemas_catSource
  have hkeeps : ∀ document ∈ catSource.allDocuments,
      document.KeepsTags .standard result.schemas := by
    intro document hd definition hdefinition tag ht
    rcases List.mem_pair.mp hd with rfl | rfl
    · cases hdefinition
    · obtain rfl := List.mem_singleton.mp hdefinition
      cases ht
  have hfree : ∀ entry ∈ result.schemas, entry.2.FloatFree := by
    rw [hschemas, List.forall_mem_singleton]
    exact Schema.floatFree_anyJson
  have hattached : catSource.attachedSchemas .standard = [] := by decide
  have hlacks : catDefinition.Lacks .standard none result.schemas Schema.anyJson := by
    rw [hschemas]
    exact ⟨rfl, by simp [catDefinition]⟩
  have hcat : attached'.lookup "Cat" = some Schema.anyJson :=
    SourceModule.lookup_attached_of_lacks hmapper passes_catSource hkeeps (.tail _ (.head _))
      (.head _) hlacks Schema.floatFree_anyJson (by decide)
  have hderive := ((derive_hoist catArena.model catArena.openApiMapper).2 .standard catSource
    hmapper (fun _ ty _ _ => soleBearer_catArena ty) hkeeps hfree).1 2
  rw [hattached, derive_catArena] at hderive
  exact ⟨fun ty _ => hsole ty, hhoist, (hnest 4).trans derive_nestArena.2,
    (hnest 2).trans derive_nestArena.1, hmapper, soleBearer_catArena, hkeeps, hfree, hattached,
    hcat, hderive⟩

def capturedDocument : Document :=
  guestDocument [schemaTag .standard "np1" (Schema.primitive .string)]

def capturedSource : SourceModule := ⟨"pets", [mainDocument, capturedDocument], []⟩

theorem reopens_capturedSource :
    capturedSource.Reopens catArena.model .standard [("Cat", Schema.anyJson)] where
  captured := by
    refine ⟨capturedDocument, .tail _ (.head _), guestFunction, .broad, rfl, ?_, .head _, by decide⟩
    refine ⟨_, .head _, Schema.anyJson, rfl, fun tag ht => ?_⟩
    obtain rfl := List.mem_singleton.mp ht
    decide
  clean := by
    intro document hd function form hc
    rcases List.mem_pair.mp hd with rfl | rfl
    · exact absurd hc.unmarked (by decide)
    · obtain rfl := List.mem_singleton.mp hc.member
      have hbroad : guestFunction.naturalForm? .standard
        (capturedDocument.freshAlias .standard) = some .broad := by decide
      obtain rfl := Option.some.inj (hbroad.symm.trans hc.form)
      exact checkFunction_catArena "pets"

theorem attachedSchemas_rewrite_captured :
    (capturedDocument.rewrite .standard [("Cat", Schema.anyJson)]).attachedSchemas .standard =
      [("Cat", Schema.primitive .string)] := by
  let cat : TypeDef := { catDefinition with
    tags := [schemaTag .standard "np1" (Schema.primitive .string),
      schemaTag .standard "np1" Schema.anyJson] }
  have hcat : (capturedDocument.rewrite .standard [("Cat", Schema.anyJson)]).typeDefinitions =
    [cat] := by decide
  have hmarker : (capturedDocument.rewrite .standard [("Cat", Schema.anyJson)]).markerAlias?
    .standard = some "np1" := by decide
  have hfirst : cat.attachedSchema? .standard (some "np1") = some (Schema.primitive .string) :=
    TypeDef.attachedSchema?_of_first rfl (by decide) rfl ofText_string
  rw [Document.attachedSchemas, hcat, hmarker, List.filterMap_cons, hfirst]
  rfl

theorem SemanticModel.derive_takes_captured_tag :
    let first := capturedSource.rewrite catArena.model catArena.openApiMapper .standard
    let again := first.source.rewrite catArena.model catArena.openApiMapper .standard
    let derive := catArena.model.derive catArena.openApiMapper
    (∀ ty, catArena.model.SoleBearer ty) ∧ (∀ entry ∈ first.schemas, entry.2.FloatFree) ∧
    derive (capturedSource.attachedSchemas .standard) 2 = some Schema.anyJson ∧
    derive (first.source.attachedSchemas .standard) 2 = some (Schema.primitive .string) ∧
    first.schemas = [("Cat", Schema.anyJson)] ∧
    again.schemas = [("Cat", Schema.primitive .string)] ∧
    Schema.anyJson ≠ Schema.primitive .string := by
  intro first again derive
  have hpass : capturedSource.Passes catArena.model .standard := passes_guestSource _
  obtain ⟨hall, hschemas, -⟩ := SourceModule.rewrite_of_passes catArena.openApiMapper hpass
  have hattached : capturedSource.attachedSchemas .standard = [] := by decide
  rw [extractSchemas_of_unattached (by decide) hattached] at hschemas
  rw [hschemas] at hall
  have hattached' : first.source.attachedSchemas .standard =
      [("Cat", Schema.primitive .string)] := by
    have hmain : (mainDocument.rewrite .standard [("Cat", Schema.anyJson)]).attachedSchemas
      .standard = [] := rfl
    have hdocuments : capturedSource.allDocuments = [mainDocument, capturedDocument] := rfl
    simp only [SourceModule.attachedSchemas, first, hall, hdocuments, List.map_cons, List.map_nil,
      List.flatMap_cons, List.flatMap_nil, hmain, attachedSchemas_rewrite_captured]
    rfl
  have hderive : derive (first.source.attachedSchemas .standard) 2 =
      some (Schema.primitive .string) := by
    rw [hattached', SemanticModel.derive_eq_some_iff]
    exact .known rfl
  have htagged : first.source.taggedFunctions .standard = [guestFunction] := by
    rw [SourceModule.taggedFunctions, hall]
    decide
  have hagain : first.source.Passes catArena.model .standard :=
    SourceModule.passes_rewrite_iff.mpr (hschemas.symm ▸ reopens_capturedSource)
  refine ⟨soleBearer_catArena, ?_, hattached ▸ derive_catArena, hderive, hschemas,
    (SourceModule.rewrite_of_passes _ hagain).2.1.trans
      (extractSchemas_catArena _ htagged rfl hderive), by decide⟩
  rw [hschemas, List.forall_mem_singleton]
  exact Schema.floatFree_anyJson

end NaturalFunctions
