import NaturalFunctions.Proofs.Source.ReadingBack

namespace NaturalFunctions

/-- An import claims the qualifier of the schema tag, and no import of the marker module does. -/
def Tag.isForeign (names : MarkerNames) (imports : List Import) (tag : Tag) : Bool :=
  tag.reference.name = names.schemaTag &&
    tag.reference.qualifier.any fun qualifier =>
      let claims := imports.filter fun i => i.alias = qualifier
      !claims.isEmpty && claims.all fun i => !i.isMarker names

def TypeDef.Apart (names : MarkerNames) (imports : List Import) (definition : TypeDef) : Prop :=
  ∀ tag ∈ definition.tags, tag.isForeign names imports = true →
    tag.reference.qualifier ≠ some names.defaultAlias

def TypeDef.withoutForeign (names : MarkerNames) (imports : List Import) (definition : TypeDef) :
    TypeDef :=
  { definition with tags := definition.tags.filter fun tag => !tag.isForeign names imports }

def Member.withoutForeign (names : MarkerNames) (imports : List Import) : Member → Member
  | .function f => .function f
  | .type d => .type (d.withoutForeign names imports)

def Document.withoutForeign (names : MarkerNames) (document : Document) : Document :=
  { document with members := document.members.map (Member.withoutForeign names document.imports) }

def SourceModule.withoutForeign (names : MarkerNames) (source : SourceModule) : SourceModule :=
  { source with
    documents := source.documents.map (Document.withoutForeign names)
    testDocuments := source.testDocuments.map (Document.withoutForeign names) }

variable {names : MarkerNames} {cache : SchemaCache} {source : SourceModule} {document : Document}
  {definition : TypeDef} {schema : Schema} {tag : Tag}

theorem Tag.isForeign_iff {imports : List Import} :
    tag.isForeign names imports = true ↔ tag.reference.name = names.schemaTag ∧
      ∃ qualifier, tag.reference.qualifier = some qualifier ∧ (∃ i ∈ imports, i.alias = qualifier) ∧
        ∀ i ∈ imports, i.alias = qualifier → i.isMarker names = false := by
  simp [isForeign, Option.any_eq_true, imp_iff_not_or]

theorem Tag.isSchema_iff_of_isForeign (h : tag.isForeign names document.imports = true) :
    tag.isSchema names (document.markerAlias? names) = true ↔
      tag.reference.qualifier = some names.defaultAlias := by
  obtain ⟨hname, qualifier, hq, -, hmarker⟩ := isForeign_iff.mp h
  have hown : some qualifier ≠ document.markerAlias? names := by
    intro heq
    obtain ⟨own, hfind, halias⟩ := Option.map_eq_some_iff.mp heq.symm
    have hfalse := hmarker own (List.mem_of_find?_eq_some hfind) halias
    have htrue : own.isMarker names = true := List.find?_some hfind
    rw [hfalse] at htrue
    cases htrue
  simp [isSchema, hname, hq, hown]

namespace TypeDef

theorem Apart.isSchema_eq_false (h : definition.Apart names document.imports)
    (ht : tag ∈ definition.tags) (hf : tag.isForeign names document.imports = true) :
    tag.isSchema names (document.markerAlias? names) = false := by
  rw [Bool.eq_false_iff]
  exact fun hs => h tag ht hf ((Tag.isSchema_iff_of_isForeign hf).mp hs)

theorem Apart.attachedSchema?_withoutForeign (h : definition.Apart names document.imports) :
    (definition.withoutForeign names document.imports).attachedSchema? names
        (document.markerAlias? names) =
      definition.attachedSchema? names (document.markerAlias? names) := by
  have hfilter : (definition.withoutForeign names document.imports).tags.filter
        (Tag.isSchema names (document.markerAlias? names)) =
      definition.tags.filter (Tag.isSchema names (document.markerAlias? names)) := by
    rw [withoutForeign, List.filter_filter]
    refine List.filter_congr fun tag ht => ?_
    cases hf : tag.isForeign names document.imports with
    | false => simp
    | true => simp [h.isSchema_eq_false ht hf]
  rw [attachedSchema?, hfilter, attachedSchema?]

theorem lacks_iff_apart (hcache : cache.lookup definition.name = some schema)
    (hforeign : ∀ tag ∈ definition.tags, tag.isSchema names (document.markerAlias? names) = true →
      tag.isForeign names document.imports = true) :
    definition.Lacks names (document.markerAlias? names) cache schema ↔
      definition.Apart names document.imports := by
  constructor
  · intro hl tag ht hf hq
    have htrue := (Tag.isSchema_iff_of_isForeign hf).mpr hq
    rw [hl.2 tag ht] at htrue
    cases htrue
  · intro ha
    refine ⟨hcache, fun tag ht => ?_⟩
    cases hs : tag.isSchema names (document.markerAlias? names) with
    | false => rfl
    | true => exact hs.symm.trans (ha.isSchema_eq_false ht (hforeign tag ht hs))

end TypeDef

namespace Document

theorem typeDefinitions_withoutForeign : (document.withoutForeign names).typeDefinitions =
    document.typeDefinitions.map (TypeDef.withoutForeign names document.imports) := by
  refine filterMap_map_edit (fun member => ?_) document.members
  cases member with
  | function f => rfl
  | type d => rfl

theorem attachedSchemas_withoutForeign
    (h : ∀ definition ∈ document.typeDefinitions, definition.Apart names document.imports) :
    (document.withoutForeign names).attachedSchemas names = document.attachedSchemas names := by
  rw [attachedSchemas, typeDefinitions_withoutForeign, List.filterMap_map, attachedSchemas]
  refine List.filterMap_congr fun definition hd => ?_
  rw [Function.comp_apply]
  exact congrArg (Option.map _) (h definition hd).attachedSchema?_withoutForeign

theorem tags_attach_iff_lacks (hd : definition ∈ document.typeDefinitions)
    (hcache : cache.lookup definition.name = some schema) :
    (∃ own, (document.rewrite names cache).markerAlias? names = some own ∧
        (definition.attach names (document.markerAlias? names)
            ((document.markerAlias? names).getD (document.freshAlias names)) cache).tags =
          definition.tags ++ [schemaTag names own schema]) ↔
      definition.Lacks names (document.markerAlias? names) cache schema := by
  constructor
  · rintro ⟨own, -, htags⟩
    cases hmissing : definition.missingSchema? names (document.markerAlias? names) cache with
    | none => simp [TypeDef.attach, hmissing] at htags
    | some given =>
      have hl := missingSchema?_eq_some_iff.mp hmissing
      exact ⟨hcache, hl.2⟩
  · intro hl
    refine ⟨_, markerAlias?_rewrite_of_lacks hd hl, ?_⟩
    rw [TypeDef.attach, missingSchema?_eq_some_iff.mpr hl]

end Document

namespace SourceModule

theorem allDocuments_withoutForeign : (source.withoutForeign names).allDocuments =
    source.allDocuments.map (Document.withoutForeign names) :=
  List.map_append.symm

theorem attachedSchemas_withoutForeign (h : ∀ document ∈ source.allDocuments,
      ∀ definition ∈ document.typeDefinitions, definition.Apart names document.imports) :
    (source.withoutForeign names).attachedSchemas names = source.attachedSchemas names := by
  rw [attachedSchemas, allDocuments_withoutForeign, List.flatMap_map, attachedSchemas]
  apply congrArg Table.ofList
  exact List.flatMap_congr fun document hd => Document.attachedSchemas_withoutForeign (h document hd)

theorem foreign_tags_ignored (model : SemanticModel) (mapper : StructuralMapper)
    (names : MarkerNames) (source : SourceModule) :
    let result := source.rewrite model mapper names
    (∀ document ∈ source.allDocuments, ∀ tag : Tag, tag.isForeign names document.imports = true →
      (tag.isSchema names (document.markerAlias? names) = true ↔
        tag.reference.qualifier = some names.defaultAlias)) ∧
    ((∀ document ∈ source.allDocuments, ∀ definition ∈ document.typeDefinitions,
        definition.Apart names document.imports) →
      (source.withoutForeign names).attachedSchemas names = source.attachedSchemas names) ∧
    List.Forall₂ (fun document document' => List.Forall₂ (fun before after => ∀ schema,
        result.schemas.lookup before.name = some schema →
        (∀ tag ∈ before.tags, tag.isSchema names (document.markerAlias? names) = true →
          tag.isForeign names document.imports = true) →
        ((∃ own, document'.markerAlias? names = some own ∧
            after.tags = before.tags ++ [schemaTag names own schema]) ↔
          before.Apart names document.imports))
        document.typeDefinitions document'.typeDefinitions)
      source.allDocuments result.source.allDocuments := by
  intro result
  refine ⟨fun document _ tag => Tag.isSchema_iff_of_isForeign, attachedSchemas_withoutForeign, ?_⟩
  by_cases hpass : source.Passes model names
  · rw [(rewrite_of_passes mapper hpass).1]
    apply List.forall₂_map_right_iff.mpr
    refine List.forall₂_same.mpr fun document _ => ?_
    rw [Document.typeDefinitions_rewrite]
    apply List.forall₂_map_right_iff.mpr
    refine List.forall₂_same.mpr fun definition hd schema hcache hforeign => ?_
    rw [Document.tags_attach_iff_lacks hd hcache]
    exact TypeDef.lacks_iff_apart hcache hforeign
  · have hresult : result = ⟨source, _, [], 0⟩ := rewrite_of_not_passes hpass
    rw [hresult]
    refine List.forall₂_same.mpr fun _ _ => List.forall₂_same.mpr fun _ _ schema hcache => ?_
    cases hcache

end SourceModule

def foreignDefinition (segment : String) : TypeDef :=
  { catDefinition with tags := [schemaTag .standard segment (Schema.primitive .string)] }

def foreignDocument (segment : String) : Document :=
  ⟨"pets", [⟨some "acme", [segment], none, Span.none⟩], [.type (foreignDefinition segment)]⟩

def foreignSource (segment : String) : SourceModule :=
  ⟨"pets", [mainDocument, foreignDocument segment], []⟩

theorem passes_foreignSource (segment : String) :
    (foreignSource segment).Passes catArena.model .standard where
  tagged := ⟨mainDocument, List.mem_cons_self, questionOn 3, .broad,
    List.mem_cons_self, "np", by decide, by decide⟩
  clean := by
    intro document hd function form ht
    rcases List.mem_pair.mp hd with rfl | rfl
    · obtain ⟨rfl, rfl⟩ := (Document.taggedAs_singleton rfl rfl rfl).mp ht
      exact checkFunction_catArena "main"
    · cases ht.1

theorem extractSchemas_foreignSource_pets :
    (foreignSource "pets").extractSchemas catArena.model catArena.openApiMapper .standard =
      [("Cat", Schema.anyJson)] :=
  extractSchemas_of_unattached (by decide) (by decide)

theorem SourceModule.foreign_tags_ignored_pets :
    let source := foreignSource "pets"
    let document := foreignDocument "pets"
    let definition := foreignDefinition "pets"
    let result := source.rewrite catArena.model catArena.openApiMapper .standard
    (∀ tag ∈ definition.tags, tag.isForeign .standard document.imports = true ∧
      tag.isSchema .standard (document.markerAlias? .standard) = false) ∧
    (∀ document ∈ source.allDocuments, ∀ definition ∈ document.typeDefinitions,
      definition.Apart .standard document.imports) ∧
    (source.withoutForeign .standard).attachedSchemas .standard =
      source.attachedSchemas .standard ∧
    result.schemas.lookup "Cat" = some Schema.anyJson ∧
    ∃ own, (document.rewrite .standard result.schemas).markerAlias? .standard = some own ∧
      (definition.attach .standard none "np" result.schemas).tags =
        definition.tags ++ [schemaTag .standard own Schema.anyJson] := by
  intro source document definition result
  have hd : document ∈ source.allDocuments := by decide
  have hforeign : ∀ tag ∈ definition.tags, tag.isForeign .standard document.imports = true := by
    decide
  have hother : ∀ tag ∈ definition.tags,
      tag.reference.qualifier ≠ some MarkerNames.standard.defaultAlias := by decide
  have hapart : ∀ document ∈ source.allDocuments, ∀ definition ∈ document.typeDefinitions,
      definition.Apart .standard document.imports := by
    intro document hd definition hdefinition tag ht _
    rcases List.mem_pair.mp hd with rfl | rfl
    · cases hdefinition
    · obtain rfl := List.mem_singleton.mp hdefinition
      exact hother tag ht
  obtain ⟨hall, hschemas, -⟩ :=
    rewrite_of_passes catArena.openApiMapper (passes_foreignSource "pets")
  have hlookup : result.schemas.lookup "Cat" = some Schema.anyJson := by
    rw [hschemas, extractSchemas_foreignSource_pets]
    rfl
  obtain ⟨hrecognized, hattached, hforall⟩ := foreign_tags_ignored catArena.model
    catArena.openApiMapper .standard source
  refine ⟨fun tag ht => ⟨hforeign tag ht, ?_⟩, hapart, hattached hapart, hlookup, ?_⟩
  · rw [Bool.eq_false_iff]
    exact fun hs => hother tag ht ((hrecognized document hd tag (hforeign tag ht)).mp hs)
  · rw [hall] at hforall
    have hdocument := (List.forall₂_cons.mp (List.forall₂_cons.mp hforall).2).1
    rw [Document.typeDefinitions_rewrite] at hdocument
    have hattach := (List.forall₂_cons.mp hdocument).1 _ hlookup fun tag ht _ => hforeign tag ht
    exact hattach.mpr (hapart document hd definition List.mem_cons_self)

theorem attachedSchemas_foreignSource_np :
    (foreignSource "np").attachedSchemas .standard = [("Cat", Schema.primitive .string)] := by
  have hmain : mainDocument.attachedSchemas .standard = [] := rfl
  have hpets : (foreignDocument "np").attachedSchemas .standard =
      [("Cat", Schema.primitive .string)] := attachedSchemas_of_pet rfl
  have hall : (foreignSource "np").allDocuments = [mainDocument, foreignDocument "np"] := rfl
  simp only [SourceModule.attachedSchemas, hall, List.flatMap_cons, List.flatMap_nil, hmain, hpets]
  rfl

theorem SourceModule.takes_foreign_tag :
    let source := foreignSource "np"
    let document := foreignDocument "np"
    let result := source.rewrite catArena.model catArena.openApiMapper .standard
    (∀ tag ∈ (foreignDefinition "np").tags, tag.isForeign .standard document.imports = true) ∧
    source.attachedSchemas .standard = [("Cat", Schema.primitive .string)] ∧
    (source.withoutForeign .standard).attachedSchemas .standard = [] ∧
    result.schemas.lookup "Cat" = some (Schema.primitive .string) ∧
    document ∈ result.source.allDocuments := by
  intro source document result
  obtain ⟨hall, hschemas, -⟩ :=
    rewrite_of_passes catArena.openApiMapper (passes_foreignSource "np")
  have hcache : result.schemas = [("Cat", Schema.primitive .string)] := by
    rw [hschemas]
    apply extractSchemas_catArena (questionOn 3) (by decide) rfl
    rw [attachedSchemas_foreignSource_np, SemanticModel.derive_eq_some_iff]
    exact .known rfl
  refine ⟨by decide, attachedSchemas_foreignSource_np, by decide, ?_, ?_⟩
  · rw [hcache]
    rfl
  · have hkept : document.rewrite .standard result.schemas = document := by
      rw [hcache]
      decide
    rw [hall]
    exact List.mem_map.mpr ⟨document, by decide, hkept⟩

end NaturalFunctions
