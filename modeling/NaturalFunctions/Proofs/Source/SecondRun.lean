import Mathlib.Logic.Function.Iterate
import NaturalFunctions.Proofs.Source.Extraction

/-!
Rewriting a module once more. A rewriting leaves no natural function behind in a document that had
an alias for the marker module. In a document that gets its import from the rewriting, a tag that
named nothing before can name the marker module afterwards.
-/

namespace NaturalFunctions

/-- The import that the document gets for its schemas makes the function a natural one. -/
structure Document.Captures (names : MarkerNames) (cache : SchemaCache) (document : Document)
    (function : FunctionDef) (form : NaturalForm) : Prop where
  unmarked : document.markerAlias? names = none
  receives : document.Receives names cache
  member : function ∈ document.functions
  form : function.naturalForm? names (document.freshAlias names) = some form

/-- Some function is captured, and all captured functions keep the contract. -/
structure SourceModule.Reopens (model : SemanticModel) (names : MarkerNames) (cache : SchemaCache)
    (source : SourceModule) : Prop where
  captured : ∃ document ∈ source.allDocuments, ∃ function form,
    document.Captures names cache function form
  clean : ∀ document ∈ source.allDocuments, ∀ function form,
    document.Captures names cache function form →
      Signature.checkFunction model names document.name function form = []

variable {model : SemanticModel} {mapper : StructuralMapper} {names : MarkerNames}
  {cache : SchemaCache} {form : NaturalForm}

theorem FunctionDef.naturalForm?_rewrite (function : FunctionDef) (own : String) :
    (function.rewrite names own).naturalForm? names own = none := by
  unfold FunctionDef.rewrite
  cases h : function.naturalForm? names own with
  | none => exact h
  | some form => rfl

namespace Document

variable {document : Document} {function : FunctionDef}

theorem markerAlias?_rewrite_of_kept
    (h : document.markerAlias? names ≠ none ∨ ¬ document.Receives names cache) :
    (document.rewrite names cache).markerAlias? names = document.markerAlias? names := by
  obtain ⟨written, hedit⟩ := @Document.rewrite_edit names cache document
  rw [markerAlias?, hedit.kept h, markerAlias?]

theorem markerAlias?_rewrite_of_receives (h : document.markerAlias? names = none)
    (hr : document.Receives names cache) :
    (document.rewrite names cache).markerAlias? names = some (document.freshAlias names) := by
  have hfind : document.imports.find? (fun i => i.isMarker names) = none :=
    Option.map_eq_none_iff.mp h
  have hany := document.receives_iff.mpr hr
  rw [h] at hany
  simp [markerAlias?, rewrite, hany, List.find?_append, hfind, markerImport_isMarker,
    markerImport_alias]

theorem taggedAs_rewrite_iff :
    (document.rewrite names cache).TaggedAs names function form ↔
      document.Captures names cache function form := by
  cases hm : document.markerAlias? names with
  | some own =>
    constructor
    · rintro ⟨hf, own', ho, hform⟩
      have hkept := @markerAlias?_rewrite_of_kept names cache document (Or.inl (by simp [hm]))
      rw [hkept, hm] at ho
      obtain rfl := Option.some.inj ho
      rw [functions_rewrite_of_marked hm] at hf
      obtain ⟨before, -, rfl⟩ := List.mem_map.mp hf
      rw [before.naturalForm?_rewrite] at hform
      cases hform
    · intro h
      rw [h.unmarked] at hm
      cases hm
  | none =>
    by_cases hr : document.Receives names cache
    · rw [TaggedAs, functions_rewrite_of_unmarked hm, markerAlias?_rewrite_of_receives hm hr]
      constructor
      · rintro ⟨hf, own, ho, hform⟩
        obtain rfl := Option.some.inj ho
        exact ⟨hm, hr, hf, hform⟩
      · intro h
        exact ⟨h.member, _, rfl, h.form⟩
    · constructor
      · intro h
        have hkept := @markerAlias?_rewrite_of_kept names cache document (Or.inr hr)
        exact absurd h (not_taggedAs_of_unmarked (hkept.trans hm))
      · intro h
        exact absurd h.receives hr

end Document

namespace SourceModule

variable {source : SourceModule}

theorem not_reopens_of_no_schemas : ¬ source.Reopens model names [] := by
  rintro ⟨⟨document, -, function, form, hc⟩, -⟩
  obtain ⟨definition, -, schema, hlookup, -⟩ := hc.receives
  cases hlookup

theorem passes_rewrite_iff :
    (source.rewrite model mapper names).source.Passes model names ↔
      source.Reopens model names (source.rewrite model mapper names).schemas := by
  by_cases hpass : source.Passes model names
  · obtain ⟨hall, -, -⟩ := rewrite_of_passes mapper hpass
    constructor
    · rintro ⟨htagged, hclean⟩
      rw [hall] at htagged hclean
      obtain ⟨document', hd', function, form, ht⟩ := htagged
      obtain ⟨document, hd, rfl⟩ := List.mem_map.mp hd'
      refine ⟨⟨document, hd, function, form, Document.taggedAs_rewrite_iff.mp ht⟩, ?_⟩
      intro other ho function form hc
      exact hclean _ (List.mem_map_of_mem ho) function form (Document.taggedAs_rewrite_iff.mpr hc)
    · rintro ⟨⟨document, hd, function, form, hc⟩, hclean⟩
      constructor
      · rw [hall]
        exact ⟨_, List.mem_map_of_mem hd, function, form, Document.taggedAs_rewrite_iff.mpr hc⟩
      · rw [hall]
        intro document' hd' function form ht
        obtain ⟨other, ho, rfl⟩ := List.mem_map.mp hd'
        exact hclean other ho function form (Document.taggedAs_rewrite_iff.mp ht)
  · rw [rewrite_of_not_passes hpass]
    exact iff_of_false hpass not_reopens_of_no_schemas

theorem rewrite_ne_of_passes (h : source.Passes model names) :
    (source.rewrite model mapper names).source ≠ source := by
  intro heq
  obtain ⟨hall, -, -⟩ := rewrite_of_passes mapper h
  rw [heq] at hall
  have hfixed := List.map_inj_left.mp (hall.symm.trans (List.map_id _).symm)
  obtain ⟨document, hd, function, form, ht⟩ := h.tagged
  rw [← id_eq document, ← hfixed document hd] at ht
  have hunmarked := (Document.taggedAs_rewrite_iff.mp ht).unmarked
  obtain ⟨-, own, ho, -⟩ := ht
  rw [hfixed document hd, id_eq, hunmarked] at ho
  cases ho

theorem isModified_of_passes (h : source.Passes model names) :
    (source.rewrite model mapper names).isModified = true := by
  obtain ⟨-, -, hcount⟩ := rewrite_of_passes mapper h
  simp [Rewriting.isModified, hcount]

/-- A second rewriting leaves the module alone unless an import that the first one added makes
natural functions of others, and all of those keep the contract. -/
theorem rewrite_again_unchanged_iff (model : SemanticModel) (mapper : StructuralMapper)
    (names : MarkerNames) (source : SourceModule) :
    let first := source.rewrite model mapper names
    let again := first.source.rewrite model mapper names
    (again.source = first.source ∧ again.rewritten = 0 ∧ again.schemas = [] ∧
        again.isModified = false ↔ ¬ source.Reopens model names first.schemas) ∧
      (again.source ≠ first.source ∧ 0 < again.rewritten ∧ again.isModified = true ↔
        source.Reopens model names first.schemas) := by
  intro first again
  rw [← @passes_rewrite_iff model mapper names source]
  by_cases hpass : first.source.Passes model names
  · have hne : again.source ≠ first.source := rewrite_ne_of_passes hpass
    have hcount : 0 < again.rewritten := (rewrite_of_passes mapper hpass).2.2
    have hmodified : again.isModified = true := isModified_of_passes hpass
    constructor
    · exact iff_of_false (fun h => hne h.1) (not_not_intro hpass)
    · exact iff_of_true ⟨hne, hcount, hmodified⟩ hpass
  · have hagain : again = ⟨first.source, _, [], 0⟩ := rewrite_of_not_passes hpass
    rw [hagain]
    constructor
    · exact iff_of_true ⟨rfl, rfl, rfl, rfl⟩ hpass
    · exact iff_of_false (fun h => h.1 rfl) hpass

theorem rewrite_again_unchanged_ask :
    let first := askSource.rewrite askArena.model askArena.openApiMapper .standard
    let again := first.source.rewrite askArena.model askArena.openApiMapper .standard
    first.isModified = true ∧ again.source = first.source ∧ again.isModified = false := by
  intro first again
  have hpass : askSource.Passes askArena.model .standard := by
    apply passes_iff.mpr
    rw [checkModule_askSource]
    exact ⟨by decide, rfl⟩
  have hkeeps : ¬ askSource.Reopens askArena.model .standard first.schemas := by
    rintro ⟨⟨document, hd, function, form, hc⟩, -⟩
    obtain rfl := List.mem_singleton.mp hd
    exact absurd hc.unmarked (by decide)
  obtain ⟨hsame, -, -, hunmodified⟩ := (rewrite_again_unchanged_iff askArena.model
    askArena.openApiMapper .standard askSource).1.mpr hkeeps
  exact ⟨isModified_of_passes hpass, hsame, hunmodified⟩

theorem reopens_catSource :
    catSource.Reopens catArena.model .standard [("Cat", Schema.anyJson)] where
  captured := by
    refine ⟨catDocument, by simp [catSource, allDocuments], questionOn 3, .broad, rfl, ?_, ?_, ?_⟩
    · exact ⟨catDefinition, List.mem_cons_self, Schema.anyJson, rfl, by simp [catDefinition]⟩
    · exact List.mem_cons_self
    · decide
  clean := by
    intro document hd function form hc
    rcases List.mem_pair.mp hd with rfl | rfl
    · exact absurd hc.unmarked (by decide)
    · obtain rfl := List.mem_singleton.mp hc.member
      have hbroad : (questionOn 3).naturalForm? .standard (catDocument.freshAlias .standard) =
        some .broad := by decide
      obtain rfl := Option.some.inj (hbroad.symm.trans hc.form)
      exact checkFunction_catArena "cats"

theorem rewrite_again_rewrites_captured :
    let first := catSource.rewrite catArena.model catArena.openApiMapper .standard
    let again := first.source.rewrite catArena.model catArena.openApiMapper .standard
    again.source ≠ first.source ∧ 0 < again.rewritten ∧ again.isModified = true := by
  intro first again
  have hschemas : first.schemas = [("Cat", Schema.anyJson)] :=
    (rewrite_of_passes _ passes_catSource).2.1.trans extractSchemas_catSource
  have hpass : first.source.Passes catArena.model .standard :=
    passes_rewrite_iff.mpr (hschemas.symm ▸ reopens_catSource)
  exact ⟨rewrite_ne_of_passes hpass, (rewrite_of_passes _ hpass).2.2, isModified_of_passes hpass⟩

def unmarked (names : MarkerNames) (source : SourceModule) : Nat :=
  source.allDocuments.countP fun document => (document.markerAlias? names).isNone

theorem unmarked_rewrite_lt
    (h : (source.rewrite model mapper names).source.Passes model names) :
    (source.rewrite model mapper names).source.unmarked names < source.unmarked names := by
  have hpass : source.Passes model names := by
    by_contra hstop
    rw [rewrite_of_not_passes hstop] at h
    exact hstop h
  obtain ⟨⟨document, hd, function, form, hc⟩, -⟩ := passes_rewrite_iff.mp h
  have hstays : ∀ other ∈ source.allDocuments,
      ((Document.rewrite names (source.rewrite model mapper names).schemas other).markerAlias?
        names).isNone = true → (other.markerAlias? names).isNone = true := by
    intro other _ hnone
    by_contra hsome
    rw [Document.markerAlias?_rewrite_of_kept (Or.inl (by simpa using hsome))] at hnone
    exact hsome hnone
  have hgains := Document.markerAlias?_rewrite_of_receives hc.unmarked hc.receives
  unfold unmarked
  rw [(rewrite_of_passes mapper hpass).1, List.countP_map]
  obtain ⟨before, after, hall⟩ := List.append_of_mem hd
  rw [hall] at hstays ⊢
  have hbefore := List.countP_mono_left fun other ho => hstays other (List.mem_append_left _ ho)
  have hafter := List.countP_mono_left fun other ho =>
    hstays other (List.mem_append_right _ (List.mem_cons_of_mem _ ho))
  simp only [List.countP_append, List.countP_cons, Function.comp_apply, hgains, hc.unmarked]
  simp only [Function.comp_def, Option.isNone_some, Option.isNone_none, Bool.false_eq_true,
    ↓reduceIte]
  omega

theorem rewrite_iterate_unchanged (model : SemanticModel) (mapper : StructuralMapper)
    (names : MarkerNames) (source : SourceModule) {runs : Nat}
    (h : source.unmarked names < runs) :
    let last := (fun source => (rewrite model mapper names source).source)^[runs] source
    last.rewrite model mapper names =
      ⟨last, Signature.checkModule model names last, [], 0⟩ := by
  induction runs generalizing source with
  | zero => exact absurd h (Nat.not_lt_zero _)
  | succ runs ih =>
    rw [Function.iterate_succ_apply]
    -- a module that the check stops is a fixed point, so only the modules that pass are counted
    by_cases hpass : (source.rewrite model mapper names).source.Passes model names
    · apply ih
      exact Nat.lt_of_lt_of_le (unmarked_rewrite_lt hpass) (Nat.le_of_lt_succ h)
    · have hstop := @rewrite_of_not_passes model names mapper _ hpass
      rw [Function.iterate_fixed (congrArg Rewriting.source hstop)]
      exact hstop

end SourceModule

end NaturalFunctions
