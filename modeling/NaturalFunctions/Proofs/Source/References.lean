import NaturalFunctions.Proofs.Source.SecondRun

namespace NaturalFunctions

theorem decimal_injective : Function.Injective decimal := by
  intro n m h
  have hdigits : Nat.toDigits 10 n = Nat.toDigits 10 m := by
    simpa [decimal] using congrArg String.toList h
  rw [← @Nat.ofDigitChars_ten_toDigits n, hdigits, Nat.ofDigitChars_ten_toDigits]

/-- Whatever else a document with these imports holds, no later rewriting of its module gives
another schema to a definition with this tag. -/
def Tag.Settles (names : MarkerNames) (imports : List Import) (tag : Tag) : Prop :=
  ∀ (model : SemanticModel) (mapper : StructuralMapper) (later : SourceModule),
    List.Forall₂ (fun document document' => document.imports = imports →
        List.Forall₂ (fun before after => tag ∈ before.tags → after = before)
          document.typeDefinitions document'.typeDefinitions)
      later.allDocuments (later.rewrite model mapper names).source.allDocuments

structure Document.Resolves (names : MarkerNames) (before after : Document) : Prop where
  calls : List.Forall₂ (fun function function' => function'.body ≠ function.body →
      ∃ own args, after.markerAlias? names = some own ∧
        function'.body = .call ⟨⟨some own, names.entryPoint⟩, args⟩)
    before.functions after.functions
  tags : List.Forall₂ (fun definition definition' =>
      ∃ added, definition'.tags = definition.tags ++ added ∧ ∀ tag ∈ added,
        (∃ own, after.markerAlias? names = some own ∧ tag.reference.qualifier = some own) ∧
        tag.isSchema names (after.markerAlias? names) = true ∧
        tag.Settles names after.imports)
    before.typeDefinitions after.typeDefinitions
  imports : after.imports = before.imports ∨ ∃ new, after.imports = before.imports ++ [new] ∧
    new.isMarker names = true ∧ new.alias ∉ before.imports.map Import.alias

variable {model : SemanticModel} {mapper : StructuralMapper} {names : MarkerNames}
  {cache : SchemaCache} {source : SourceModule} {document : Document}

theorem Document.freshAlias_not_mem (names : MarkerNames) (document : Document) :
    document.freshAlias names ∉ document.imports.map Import.alias := by
  let taken := document.imports.map Import.alias
  let variant (i : Nat) := names.defaultAlias ++ decimal (i + 1)
  let variants := (List.range (taken.length + 1)).map variant
  have hvariant : Function.Injective variant := by
    intro i j h
    exact Nat.succ.inj (decimal_injective ((String.append_right_inj _).mp h))
  have hnodup : variants.Nodup := List.nodup_range.map hvariant
  have hfree : ∃ candidate ∈ variants, candidate ∉ taken := by
    by_contra hall
    have hsub : variants ⊆ taken := fun c hc => by_contra fun hn => hall ⟨c, hc, hn⟩
    have hlength := (hnodup.subperm hsub).length_le
    simp only [variants, List.length_map, List.length_range] at hlength
    exact Nat.not_succ_le_self _ hlength
  by_cases hbase : names.defaultAlias ∈ taken
  · obtain ⟨found, hfound⟩ : ∃ found, variants.find? (fun c => !taken.contains c) = some found := by
      rw [← Option.isSome_iff_exists, List.find?_isSome]
      simpa using hfree
    have hfresh : document.freshAlias names = found := by
      rw [freshAlias, if_pos hbase]
      exact congrArg (Option.getD · _) hfound
    have hnot : found ∉ taken := by simpa using List.find?_some hfound
    exact hfresh ▸ hnot
  · rwa [freshAlias, if_neg hbase]

theorem SourceModule.forall₂_rewrite {R : Document → Document → Prop}
    (hkeeps : ∀ document ∈ source.allDocuments, R document document)
    (hrewrites : ∀ document ∈ source.allDocuments,
      R document (document.rewrite names (source.rewrite model mapper names).schemas)) :
    List.Forall₂ R source.allDocuments (source.rewrite model mapper names).source.allDocuments := by
  by_cases hpass : source.Passes model names
  · rw [(rewrite_of_passes mapper hpass).1]
    exact List.forall₂_map_right_iff.mpr (List.forall₂_same.mpr hrewrites)
  · rw [rewrite_of_not_passes hpass]
    exact List.forall₂_same.mpr hkeeps

theorem TypeDef.attach_of_isSchema {definition : TypeDef} {marker : Option String}
    {written : String} {tag : Tag} (ht : tag ∈ definition.tags)
    (hs : tag.isSchema names marker = true) :
    definition.attach names marker written cache = definition := by
  have hmissing : definition.missingSchema? names marker cache = none := by
    rw [missingSchema?, if_pos (List.any_eq_true.mpr ⟨tag, ht, hs⟩)]
  rw [attach, hmissing]

theorem Tag.settles_of_isSchema {tag : Tag}
    (h : tag.isSchema names (document.markerAlias? names) = true) :
    tag.Settles names document.imports := by
  intro model mapper later
  apply SourceModule.forall₂_rewrite
  · exact fun other _ _ => List.forall₂_same.mpr fun definition _ _ => rfl
  · intro other _ himports
    have hmarker : other.markerAlias? names = document.markerAlias? names := by
      rw [Document.markerAlias?, himports, Document.markerAlias?]
    rw [Document.typeDefinitions_rewrite, hmarker]
    apply List.forall₂_map_right_iff.mpr
    exact List.forall₂_same.mpr fun definition _ ht => TypeDef.attach_of_isSchema ht h

namespace Document

theorem resolves_self : document.Resolves names document where
  calls := List.forall₂_same.mpr fun function _ hne => absurd rfl hne
  tags := List.forall₂_same.mpr fun definition _ => ⟨[], (List.append_nil _).symm, by simp⟩
  imports := .inl rfl

theorem markerAlias?_rewrite_of_lacks {definition : TypeDef} {schema : Schema}
    (hd : definition ∈ document.typeDefinitions)
    (hl : definition.Lacks names (document.markerAlias? names) cache schema) :
    (document.rewrite names cache).markerAlias? names =
      some ((document.markerAlias? names).getD (document.freshAlias names)) := by
  cases hm : document.markerAlias? names with
  | some own => rw [markerAlias?_rewrite_of_kept (.inl (by simp [hm])), hm, Option.getD_some]
  | none =>
    have hreceives : document.Receives names cache := ⟨definition, hd, schema, hl⟩
    rw [markerAlias?_rewrite_of_receives hm hreceives, Option.getD_none]

theorem rewrite_resolves : document.Resolves names (document.rewrite names cache) where
  calls := by
    cases hm : document.markerAlias? names with
    | none =>
      rw [functions_rewrite_of_unmarked hm]
      exact List.forall₂_same.mpr fun function _ hne => absurd rfl hne
    | some own =>
      rw [functions_rewrite_of_marked hm, markerAlias?_rewrite_of_kept (.inl (by simp [hm])), hm]
      apply List.forall₂_map_right_iff.mpr
      refine List.forall₂_same.mpr fun function _ hne => ?_
      have hedit := @FunctionDef.rewrite_edit names own function
      obtain ⟨_, ho, hform⟩ := hedit.body_ne_iff.mp hne.symm
      obtain rfl := Option.some.inj ho
      obtain ⟨form, hform⟩ := Option.isSome_iff_exists.mp hform
      obtain ⟨args, hcall, -⟩ := hedit.called hform
      exact ⟨_, args, rfl, hcall⟩
  tags := by
    rw [typeDefinitions_rewrite]
    apply List.forall₂_map_right_iff.mpr
    refine List.forall₂_same.mpr fun definition hd => ?_
    unfold TypeDef.attach
    cases hmissing : definition.missingSchema? names (document.markerAlias? names) cache with
    | none => exact ⟨[], (List.append_nil _).symm, by simp⟩
    | some schema =>
      refine ⟨_, rfl, fun tag ht => ?_⟩
      obtain rfl := List.mem_singleton.mp ht
      have hmarker := markerAlias?_rewrite_of_lacks hd (missingSchema?_eq_some_iff.mp hmissing)
      have hschema : (schemaTag names ((document.markerAlias? names).getD
          (document.freshAlias names)) schema).isSchema names
          ((document.rewrite names cache).markerAlias? names) = true := by
        rw [hmarker]
        simp [schemaTag, Tag.isSchema]
      exact ⟨⟨_, hmarker, rfl⟩, hschema, Tag.settles_of_isSchema hschema⟩
  imports := by
    by_cases hnew : document.markerAlias? names = none ∧ document.Receives names cache
    · obtain ⟨hm, hr⟩ := hnew
      have hany := document.receives_iff.mpr hr
      rw [hm] at hany
      refine .inr ⟨markerImport names (document.freshAlias names), ?_, markerImport_isMarker, ?_⟩
      · simp [rewrite, hm, hany]
      · rw [markerImport_alias]
        exact document.freshAlias_not_mem names
    · obtain ⟨written, hedit⟩ := @rewrite_edit names cache document
      exact .inl (hedit.kept (by tauto))

end Document

/-- The new calls and the new schemas of each document name the marker module by the alias that is
found in it afterwards. If that alias comes with a new import, no import had it before. Schemas that
a rewriting has written are never written again. -/
theorem SourceModule.references_resolve (model : SemanticModel) (mapper : StructuralMapper)
    (names : MarkerNames) (source : SourceModule) :
    List.Forall₂ (Document.Resolves names) source.allDocuments
      (source.rewrite model mapper names).source.allDocuments :=
  forall₂_rewrite (fun _ _ => Document.resolves_self) (fun _ _ => Document.rewrite_resolves)

def guestFunction : FunctionDef :=
  { questionOn 3 with body := .external [⟨⟨some "np1", "NaturalFunction"⟩, none⟩] }

def guestDocument (tags : List Tag) : Document where
  name := "pets"
  imports := [⟨some "acme", ["np"], none, Span.none⟩]
  members := [.type { catDefinition with tags := tags }, .function guestFunction]

def guestSource (tags : List Tag) : SourceModule := ⟨"pets", [mainDocument, guestDocument tags], []⟩

theorem passes_guestSource (tags : List Tag) :
    (guestSource tags).Passes catArena.model .standard where
  tagged := ⟨mainDocument, List.mem_cons_self, questionOn 3, .broad,
    List.mem_cons_self, "np", by decide, by decide⟩
  clean := by
    intro document hd function form ht
    rcases List.mem_pair.mp hd with rfl | rfl
    · obtain ⟨rfl, rfl⟩ := (Document.taggedAs_singleton rfl rfl rfl).mp ht
      exact checkFunction_catArena "main"
    · exact absurd ht (Document.not_taggedAs_of_unmarked rfl)

theorem SourceModule.references_resolve_guest :
    let source := guestSource []
    let result := source.rewrite catArena.model catArena.openApiMapper .standard
    ∃ main pets question cat tag, result.source.allDocuments = [main, pets] ∧
      main.markerAlias? .standard = some "np" ∧ main.functions = [question] ∧
      (∃ args, question.body = .call ⟨⟨some "np", "callLlm"⟩, args⟩) ∧
      pets.imports = (guestDocument []).imports ++
        [⟨some "natural", ["np"], some "np1", Span.none⟩] ∧
      pets.markerAlias? .standard = some "np1" ∧ pets.typeDefinitions = [cat] ∧
      cat.tags = [tag] ∧ tag.reference.qualifier = some "np1" ∧
      tag.Settles .standard pets.imports := by
  intro source result
  obtain ⟨hall, hschemas, -⟩ :=
    rewrite_of_passes catArena.openApiMapper (passes_guestSource [])
  rw [extractSchemas_of_unattached (by decide) (by decide)] at hschemas
  have hresolve := references_resolve catArena.model catArena.openApiMapper .standard source
  rw [hall, hschemas] at hresolve
  rw [hall, hschemas]
  obtain ⟨hmain, hpets⟩ := List.forall₂_cons.mp hresolve
  obtain ⟨own, args, hown, hcall⟩ := (List.forall₂_cons.mp hmain.calls).1 (by decide)
  have hnp : (mainDocument.rewrite .standard [("Cat", Schema.anyJson)]).markerAlias? .standard =
      some "np" := by decide
  obtain rfl := Option.some.inj (hown.symm.trans hnp)
  obtain ⟨added, htags, hadded⟩ := (List.forall₂_cons.mp (List.forall₂_cons.mp hpets).1.tags).1
  obtain rfl : [schemaTag .standard "np1" Schema.anyJson] = added := htags
  obtain ⟨-, -, hsettles⟩ := hadded _ List.mem_cons_self
  exact ⟨_, _, _, _, _, rfl, hnp, rfl, ⟨args, hcall⟩, by decide, by decide, rfl, rfl, rfl, hsettles⟩

end NaturalFunctions
