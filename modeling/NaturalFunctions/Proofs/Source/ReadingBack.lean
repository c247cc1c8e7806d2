import NaturalFunctions.Proofs.Derivation.ProperComponents
import NaturalFunctions.Proofs.Json.Reading
import NaturalFunctions.Proofs.Json.RoundTrip
import NaturalFunctions.Proofs.Source.References

namespace NaturalFunctions

/-- The qualifier of a tag on a type is the alias of an import or the default one. -/
def Document.Qualified (names : MarkerNames) (document : Document) : Prop :=
  ∀ definition ∈ document.typeDefinitions, ∀ tag ∈ definition.tags, ∀ qualifier,
    tag.reference.qualifier = some qualifier →
      qualifier ∈ document.imports.map Import.alias ∨ qualifier = names.defaultAlias

/-- The import that the document gets for its schemas makes a schema of the tag. -/
structure Document.CapturesTag (names : MarkerNames) (cache : SchemaCache) (document : Document)
    (tag : Tag) : Prop where
  unmarked : document.markerAlias? names = none
  receives : document.Receives names cache
  before : tag.isSchema names none = false
  after : tag.isSchema names (some (document.freshAlias names)) = true

def Document.KeepsTags (names : MarkerNames) (cache : SchemaCache) (document : Document) : Prop :=
  ∀ definition ∈ document.typeDefinitions, ∀ tag ∈ definition.tags,
    ¬ document.CapturesTag names cache tag

def Rereads (cache : SchemaCache) (name : String) (tree : Schema) : Prop :=
  ∃ schema, cache.lookup name = some schema ∧ Json.ofText schema.text = .ok tree

variable {model : SemanticModel} {mapper : StructuralMapper} {names : MarkerNames}
  {cache : SchemaCache} {source : SourceModule} {document : Document} {definition : TypeDef}
  {name : String} {schema : Schema}

theorem SourceModule.proper_of_attached
    (h : (source.attachedSchemas names).lookup name = some schema) : schema.Proper := by
  obtain ⟨document, -, hm⟩ := List.mem_flatMap.mp (Table.mem_of_lookup_ofList h)
  obtain ⟨definition, -, hd⟩ := List.mem_filterMap.mp hm
  obtain ⟨found, hfound, heq⟩ := Option.map_eq_some_iff.mp hd
  cases heq
  obtain ⟨text, -, htext⟩ := Option.bind_eq_some_iff.mp hfound
  cases hread : Json.ofText text with
  | error fault => simp [hread, Except.toOption] at htext
  | ok tree =>
    obtain rfl : tree = schema := by simpa [hread, Except.toOption] using htext
    exact Json.proper_of_ofText hread

theorem TypeDef.attachedSchema?_of_lacks {marker : Option String}
    (hl : definition.Lacks names marker cache schema) :
    definition.attachedSchema? names marker = none := by
  have hnone : definition.tags.filter (Tag.isSchema names marker) = [] := by
    rw [List.filter_eq_nil_iff]
    intro tag ht
    rw [hl.2 tag ht]
    exact Bool.false_ne_true
  rw [TypeDef.attachedSchema?, hnone]
  rfl

theorem TypeDef.attachedSchema?_of_first {marker : Option String} {tag : Tag} {rest : List Tag}
    (ht : definition.tags = tag :: rest) (hs : tag.isSchema names marker = true)
    (hvalue : tag.value = some schema.text) (hread : Json.ofText schema.text = .ok schema) :
    definition.attachedSchema? names marker = some schema := by
  rw [attachedSchema?, ht, List.filter_cons_of_pos hs, List.findSome?_cons, hvalue]
  simp [hread, Except.toOption]

namespace Document

theorem Qualified.keepsTags (h : document.Qualified names) : document.KeepsTags names cache := by
  intro definition hd tag ht hc
  have hafter := hc.after
  cases hq : tag.reference.qualifier with
  | none => simp [Tag.isSchema, hq] at hafter
  | some qualifier =>
    rcases h definition hd tag ht qualifier hq with himport | rfl
    · have hne : qualifier ≠ document.freshAlias names :=
        fun heq => document.freshAlias_not_mem names (heq ▸ himport)
      have hbefore := hc.before
      simp [Tag.isSchema, hq, hne] at hafter hbefore
      exact hbefore hafter.1 hafter.2
    · have hbefore := hc.before
      simp [Tag.isSchema, hq] at hafter hbefore
      exact hbefore hafter

theorem isSchema_of_unmarked {tag : Tag} {own : String} (h : tag.isSchema names none = true) :
    tag.isSchema names (some own) = true := by
  cases hq : tag.reference.qualifier with
  | none => simp [Tag.isSchema, hq] at h
  | some qualifier =>
    simp [Tag.isSchema, hq] at h
    simp [Tag.isSchema, hq, h]

theorem KeepsTags.isSchema_rewrite (h : document.KeepsTags names cache)
    (hd : definition ∈ document.typeDefinitions) {tag : Tag} (ht : tag ∈ definition.tags) :
    tag.isSchema names ((document.rewrite names cache).markerAlias? names) =
      tag.isSchema names (document.markerAlias? names) := by
  by_cases hk : document.markerAlias? names ≠ none ∨ ¬ document.Receives names cache
  · rw [markerAlias?_rewrite_of_kept hk]
  · obtain ⟨hm, hr⟩ := not_or.mp hk
    rw [not_not] at hm hr
    rw [markerAlias?_rewrite_of_receives hm hr, hm, Bool.eq_iff_iff]
    constructor
    · intro hafter
      by_contra hbefore
      exact h definition hd tag ht ⟨hm, hr, Bool.eq_false_iff.mpr hbefore, hafter⟩
    · exact isSchema_of_unmarked

theorem KeepsTags.attachedSchema?_rewrite (h : document.KeepsTags names cache)
    (hd : definition ∈ document.typeDefinitions) :
    definition.attachedSchema? names ((document.rewrite names cache).markerAlias? names) =
      definition.attachedSchema? names (document.markerAlias? names) := by
  rw [TypeDef.attachedSchema?, List.filter_congr fun tag ht => h.isSchema_rewrite hd ht,
    TypeDef.attachedSchema?]

theorem KeepsTags.attachedSchema?_attach_of_lacks (h : document.KeepsTags names cache)
    (hd : definition ∈ document.typeDefinitions)
    (hl : definition.Lacks names (document.markerAlias? names) cache schema) :
    (definition.attach names (document.markerAlias? names)
        ((document.markerAlias? names).getD (document.freshAlias names)) cache).attachedSchema? names
      ((document.rewrite names cache).markerAlias? names) = (Json.ofText schema.text).toOption := by
  have hold : definition.tags.filter (Tag.isSchema names
      ((document.rewrite names cache).markerAlias? names)) = [] := by
    rw [List.filter_eq_nil_iff]
    intro tag ht
    rw [h.isSchema_rewrite hd ht, hl.2 tag ht]
    exact Bool.false_ne_true
  rw [TypeDef.attach, missingSchema?_eq_some_iff.mpr hl, TypeDef.attachedSchema?,
    List.filter_append, hold, markerAlias?_rewrite_of_lacks hd hl]
  simp [schemaTag, Tag.isSchema]

theorem KeepsTags.supplements_rewrite (h : document.KeepsTags names cache) :
    Table.Supplements name (Rereads cache name) (document.attachedSchemas names)
      ((document.rewrite names cache).attachedSchemas names) := by
  unfold attachedSchemas
  rw [typeDefinitions_rewrite, List.filterMap_map, List.filterMap_eq_flatMap_toList,
    List.filterMap_eq_flatMap_toList]
  refine Table.Supplements.flatMap fun definition hd => ?_
  dsimp only [Function.comp_apply]
  rw [(TypeDef.attach_edit definition).name]
  cases hmissing : definition.missingSchema? names (document.markerAlias? names) cache with
  | none =>
    rw [TypeDef.attach, hmissing, h.attachedSchema?_rewrite hd]
    exact .refl _
  | some given =>
    have hl := missingSchema?_eq_some_iff.mp hmissing
    rw [h.attachedSchema?_attach_of_lacks hd hl, TypeDef.attachedSchema?_of_lacks hl]
    refine .of_nil fun entry he hkey => ?_
    obtain ⟨found, hfound, rfl⟩ := Option.map_eq_some_iff.mp (Option.mem_toList.mp he)
    refine ⟨given, hkey ▸ hl.1, ?_⟩
    cases hread : Json.ofText given.text with
    | error fault => simp [hread, Except.toOption] at hfound
    | ok tree =>
      obtain rfl : tree = found := by simpa [hread, Except.toOption] using hfound
      rfl

theorem KeepsTags.mem_attachedSchemas_rewrite (h : document.KeepsTags names cache)
    (hd : definition ∈ document.typeDefinitions)
    (hl : definition.Lacks names (document.markerAlias? names) cache schema)
    (hread : Json.ofText schema.text = .ok schema) :
    (definition.name, schema) ∈ (document.rewrite names cache).attachedSchemas names := by
  rw [attachedSchemas, typeDefinitions_rewrite, List.filterMap_map]
  refine List.mem_filterMap.mpr ⟨definition, hd, ?_⟩
  rw [Function.comp_apply, h.attachedSchema?_attach_of_lacks hd hl, hread,
    (TypeDef.attach_edit definition).name]
  rfl

end Document

namespace SourceModule

theorem lookup_attached_of_extracted {attached : Schema}
    (hcache : (source.extractSchemas model mapper names).lookup name = some schema)
    (ha : (source.attachedSchemas names).lookup name = some attached) : schema = attached := by
  obtain ⟨ty, hlast⟩ := visitedLast_of_lookup hcache
  obtain ⟨-, ⟨target, hshape⟩, hderive⟩ := hlast.offers
  have hverbatim : model.derive mapper (source.attachedSchemas names) ty = some attached := by
    rw [SemanticModel.derive_eq_some_iff]
    exact .known (by simp [SemanticModel.outline, hshape, ha])
  exact Option.some.inj (hderive.symm.trans hverbatim)

theorem proper_of_extracted (hmapper : ∀ ty raw, mapper ty = some raw → raw.Proper)
    (hcache : (source.extractSchemas model mapper names).lookup name = some schema) :
    schema.Proper := by
  obtain ⟨ty, hlast⟩ := visitedLast_of_lookup hcache
  exact SemanticModel.proper_of_derive hmapper (fun _ _ => proper_of_attached) hlast.offers.2.2

theorem lookup_attached_or_rereads {source' : SourceModule}
    (hall : source'.allDocuments = source.allDocuments.map (Document.rewrite names cache))
    (hkeeps : ∀ document ∈ source.allDocuments, document.KeepsTags names cache) (name : String) :
    (source'.attachedSchemas names).lookup name = (source.attachedSchemas names).lookup name ∨
      ∃ tree, Rereads cache name tree ∧
        (source'.attachedSchemas names).lookup name = some tree := by
  have hsupplements : Table.Supplements name (Rereads cache name)
      (source.allDocuments.flatMap (Document.attachedSchemas names))
      (source'.allDocuments.flatMap (Document.attachedSchemas names)) := by
    rw [hall, List.flatMap_map]
    exact .flatMap fun document hd => (hkeeps document hd).supplements_rewrite
  exact hsupplements.lookup_ofList

theorem lookup_attached_rewrite {source' : SourceModule}
    (hall : source'.allDocuments = source.allDocuments.map (Document.rewrite names cache))
    (hkeeps : ∀ document ∈ source.allDocuments, document.KeepsTags names cache)
    (hcache : cache.lookup name = some schema) (hread : Json.ofText schema.text = .ok schema)
    (hattached : ∀ attached, (source.attachedSchemas names).lookup name = some attached →
      schema = attached)
    (hm : (name, schema) ∈ source'.allDocuments.flatMap (Document.attachedSchemas names)) :
    (source'.attachedSchemas names).lookup name = some schema := by
  -- an older schema comes last only where it is the one that was derived verbatim for the name
  rcases lookup_attached_or_rereads hall hkeeps name with hsame | ⟨tree, ⟨given, hgiven, htree⟩, hnew⟩
  · obtain ⟨found, hfound⟩ := Option.isSome_iff_exists.mp (Table.isSome_lookup_ofList hm)
    change (source'.attachedSchemas names).lookup name = some found at hfound
    rw [hfound, hattached found (hsame ▸ hfound)]
  · obtain rfl : given = schema := Option.some.inj (hgiven.symm.trans hcache)
    obtain rfl : given = tree := Except.ok.inj (hread.symm.trans htree)
    exact hnew

theorem lookup_attached_of_lacks (hmapper : ∀ ty raw, mapper ty = some raw → raw.Proper)
    (hpass : source.Passes model names)
    (hkeeps : ∀ document ∈ source.allDocuments,
      document.KeepsTags names (source.rewrite model mapper names).schemas)
    (hdocument : document ∈ source.allDocuments) (hd : definition ∈ document.typeDefinitions)
    (hl : definition.Lacks names (document.markerAlias? names)
      (source.rewrite model mapper names).schemas schema)
    (hf : schema.FloatFree) (hdepth : schema.depth ≤ 127) :
    ((source.rewrite model mapper names).source.attachedSchemas names).lookup definition.name =
      some schema := by
  obtain ⟨hall, hschemas, -⟩ := rewrite_of_passes mapper hpass
  have hextracted := hschemas ▸ hl.1
  have hread : Json.ofText schema.text = .ok schema :=
    Json.ofText_text (proper_of_extracted hmapper hextracted) hf hdepth
  apply lookup_attached_rewrite hall hkeeps hl.1 hread
  · exact fun attached => lookup_attached_of_extracted hextracted
  · rw [hall, List.flatMap_map]
    refine List.mem_flatMap.mpr ⟨document, hdocument, ?_⟩
    exact (hkeeps document hdocument).mem_attachedSchemas_rewrite hd hl hread

/-- A schema that a definition receives is what the rewritten module attaches to its name, as long
as text can hold it: without doubles, and no deeper than the reader goes. Proper trees are the ones
that a library of trees has, so the mapper gives no others. -/
theorem reads_back_attached (model : SemanticModel) (mapper : StructuralMapper)
    (names : MarkerNames) (source : SourceModule)
    (hmapper : ∀ ty raw, mapper ty = some raw → raw.Proper)
    (hqualified : ∀ document ∈ source.allDocuments, document.Qualified names) :
    let result := source.rewrite model mapper names
    List.Forall₂ (fun document document' => List.Forall₂ (fun before after =>
        after.tags ≠ before.tags → ∃ schema, result.schemas.lookup before.name = some schema ∧
          (schema.FloatFree → schema.depth ≤ 127 →
            (result.source.attachedSchemas names).lookup before.name = some schema))
        document.typeDefinitions document'.typeDefinitions)
      source.allDocuments result.source.allDocuments := by
  intro result
  by_cases hpass : source.Passes model names
  · have hkeeps : ∀ document ∈ source.allDocuments, document.KeepsTags names result.schemas :=
      fun document hd => (hqualified document hd).keepsTags
    rw [(rewrite_of_passes mapper hpass).1]
    apply List.forall₂_map_right_iff.mpr
    refine List.forall₂_same.mpr fun document hdocument => ?_
    rw [Document.typeDefinitions_rewrite]
    apply List.forall₂_map_right_iff.mpr
    refine List.forall₂_same.mpr fun definition hd hne => ?_
    cases hmissing : definition.missingSchema? names (document.markerAlias? names) result.schemas with
    | none => exact absurd (by rw [TypeDef.attach, hmissing]) hne
    | some schema =>
      have hl := missingSchema?_eq_some_iff.mp hmissing
      exact ⟨schema, hl.1, lookup_attached_of_lacks hmapper hpass hkeeps hdocument hd hl⟩
  · have hresult : result = ⟨source, _, [], 0⟩ := rewrite_of_not_passes hpass
    rw [hresult]
    exact List.forall₂_same.mpr fun _ _ => List.forall₂_same.mpr fun _ _ hne => absurd rfl hne

end SourceModule

def petDefinition : TypeDef :=
  { catDefinition with tags := [schemaTag .standard "np" (Schema.primitive .string)] }

def petDocument : Document := ⟨"pets", askDocument.imports, [.type petDefinition]⟩

def petSource : SourceModule := ⟨"pets", [mainDocument, catDocument, petDocument], []⟩

theorem passes_petSource : petSource.Passes catArena.model .standard where
  tagged := ⟨mainDocument, List.mem_cons_self, questionOn 3, .broad,
    List.mem_cons_self, "np", by decide, by decide⟩
  clean := by
    intro document hd function form ht
    rcases List.mem_cons.mp hd with rfl | hd
    · obtain ⟨rfl, rfl⟩ := (Document.taggedAs_singleton rfl rfl rfl).mp ht
      exact checkFunction_catArena "main"
    · rcases List.mem_pair.mp hd with rfl | rfl
      · exact absurd ht (Document.not_taggedAs_of_unmarked rfl)
      · cases ht.1

theorem proper_of_catArena {ty : TypeId} {raw : Schema}
    (h : catArena.openApiMapper ty = some raw) : raw.Proper := by
  refine TypeArena.proper_of_openApiMapper (TypeArena.countable_of_tuples ?_ ty) h
  intro ty members hn
  match ty with
  | 0 | 1 | 2 | 3 | _ + 4 => cases hn

theorem ofText_string :
    Json.ofText (Schema.primitive .string).text = .ok (Schema.primitive .string) :=
  Json.ofText_text (Schema.proper_primitive .string) (by simp [Schema.primitive]) (by decide)

theorem attachedSchemas_of_pet (h : document.typeDefinitions = [petDefinition]) :
    document.attachedSchemas .standard = [("Cat", Schema.primitive .string)] := by
  -- the tag has the default alias, so it counts whatever the document imports
  have hschema : petDefinition.attachedSchema? .standard (document.markerAlias? .standard) =
      some (Schema.primitive .string) :=
    TypeDef.attachedSchema?_of_first rfl
      (by simp [schemaTag, Tag.isSchema, MarkerNames.standard, MarkerNames.defaultAlias]) rfl
      ofText_string
  rw [Document.attachedSchemas, h, List.filterMap_cons, hschema]
  rfl

theorem attachedSchemas_petSource :
    petSource.attachedSchemas .standard = [("Cat", Schema.primitive .string)] := by
  have hmain : mainDocument.attachedSchemas .standard = [] := rfl
  have hcat : catDocument.attachedSchemas .standard = [] := rfl
  have hpet : petDocument.attachedSchemas .standard = [("Cat", Schema.primitive .string)] :=
    attachedSchemas_of_pet rfl
  have hall : petSource.allDocuments = [mainDocument, catDocument, petDocument] := rfl
  simp only [SourceModule.attachedSchemas, hall, List.flatMap_cons, List.flatMap_nil, hmain, hcat,
    hpet]
  rfl

theorem extractSchemas_petSource :
    petSource.extractSchemas catArena.model catArena.openApiMapper .standard =
      [("Cat", Schema.primitive .string)] := by
  apply extractSchemas_catArena (questionOn 3) (by decide) rfl
  rw [attachedSchemas_petSource, SemanticModel.derive_eq_some_iff]
  exact .known rfl

theorem SourceModule.reads_back_attached_cat :
    let result := petSource.rewrite catArena.model catArena.openApiMapper .standard
    (∀ ty raw, catArena.openApiMapper ty = some raw → raw.Proper) ∧
      (∀ document ∈ petSource.allDocuments, document.Qualified .standard) ∧
      (∃ cats cat, cats ∈ result.source.allDocuments ∧ cats.name = catDocument.name ∧
        cats.typeDefinitions = [cat] ∧ cat.name = "Cat" ∧ cat.tags ≠ catDefinition.tags) ∧
      (result.source.attachedSchemas .standard).lookup "Cat" = some (Schema.primitive .string) := by
  intro result
  have hmapper : ∀ ty raw, catArena.openApiMapper ty = some raw → raw.Proper :=
    fun _ _ => proper_of_catArena
  have hqualified : ∀ document ∈ petSource.allDocuments, document.Qualified .standard := by
    intro document hd definition hdefinition tag ht qualifier hq
    rcases List.mem_cons.mp hd with rfl | hd
    · cases hdefinition
    · rcases List.mem_pair.mp hd with rfl | rfl
      · obtain rfl := List.mem_singleton.mp hdefinition
        cases ht
      · obtain rfl := List.mem_singleton.mp hdefinition
        obtain rfl := List.mem_singleton.mp ht
        cases hq
        exact .inr rfl
  obtain ⟨hall, hschemas, -⟩ := rewrite_of_passes catArena.openApiMapper passes_petSource
  have hforall := reads_back_attached catArena.model catArena.openApiMapper .standard petSource
    hmapper hqualified
  dsimp only at hforall
  rw [hall, hschemas, extractSchemas_petSource] at hforall
  have hdocument := (List.forall₂_cons.mp (List.forall₂_cons.mp hforall).2).1
  rw [Document.typeDefinitions_rewrite] at hdocument
  have hchanged : (catDefinition.attach .standard none "np"
      [("Cat", Schema.primitive .string)]).tags ≠ catDefinition.tags := by decide
  obtain ⟨schema, hschema, hlookup⟩ := (List.forall₂_cons.mp hdocument).1 hchanged
  obtain rfl : Schema.primitive .string = schema := Option.some.inj hschema
  refine ⟨hmapper, hqualified, ?_, hlookup (by simp [Schema.primitive]) (by decide)⟩
  rw [hall, hschemas, extractSchemas_petSource]
  exact ⟨catDocument.rewrite .standard _, _, .tail _ (.head _), rfl, rfl, rfl, hchanged⟩

end NaturalFunctions
