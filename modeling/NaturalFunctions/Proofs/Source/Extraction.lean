import Mathlib.Logic.Relation
import NaturalFunctions.Proofs.Derivation.TypeOutline
import NaturalFunctions.Proofs.Source.Returns

/-!
The schemas that a walk over the result types leaves behind. Schemas are kept by name, so of the
named types that share a name the one visited last decides, and its schema is the one that every
definition of the name receives.
-/

namespace NaturalFunctions

open Relation

namespace Extraction

variable (model : SemanticModel) (mapper : StructuralMapper) (attached : List (String × Schema))
  {state : Extraction} {name : String} {ty : TypeId}

def schemaAs? (name : String) (ty : TypeId) : Option Schema :=
  match model.shape ty with
  | .reference own _ => if own = name then model.derive mapper attached ty else none
  | _ => none

def Recorded (state : Extraction) : Prop :=
  ∀ name, state.cache.lookup name = state.visited.findSome? (schemaAs? model mapper attached name)

variable {model mapper attached}

section Invariants

variable {P : Extraction → Prop}

theorem walk_induction (hvisit : ∀ state ty, P state → P (visit model mapper attached state ty))
    {pending : List TypeId} (h : P state) : P (walk model mapper attached state pending) := by
  fun_induction walk model mapper attached state pending with
  | case1 => exact h
  | case2 state ty rest hv ih => exact ih h
  | case3 state ty rest hv ih => exact ih (hvisit state ty h)

theorem extract_induction (hvisit : ∀ state ty, P state → P (visit model mapper attached state ty))
    {function : FunctionDef} (h : P state) : P (extract model mapper attached state function) := by
  unfold extract
  split
  · exact walk_induction hvisit h
  · exact h

theorem foldl_induction (hvisit : ∀ state ty, P state → P (visit model mapper attached state ty))
    {functions : List FunctionDef} (h : P state) :
    P (functions.foldl (extract model mapper attached) state) := by
  induction functions generalizing state with
  | nil => exact h
  | cons function rest ih => exact ih (extract_induction hvisit h)

end Invariants

theorem schemaAs?_eq_some_iff {schema : Schema} :
    schemaAs? model mapper attached name ty = some schema ↔
      (∃ target, model.shape ty = .reference name target) ∧
        model.derive mapper attached ty = some schema := by
  unfold schemaAs?
  split
  · rename_i own target hs
    by_cases hn : own = name
    · simp [hs, hn]
    · simp [hs, hn]
  · rename_i hs
    constructor
    · intro h
      cases h
    · rintro ⟨⟨target, ht⟩, -⟩
      exact absurd ht (hs name target)

theorem lookup_visit (state : Extraction) (name : String) (ty : TypeId) :
    (visit model mapper attached state ty).cache.lookup name =
      (schemaAs? model mapper attached name ty).or (state.cache.lookup name) := by
  unfold visit schemaAs?
  cases hs : model.shape ty with
  | reference own target =>
    cases hd : model.derive mapper attached ty with
    | none => by_cases hn : own = name <;> simp [hn]
    | some schema =>
      by_cases hn : own = name
      · subst hn
        simp [Table.lookup_put_self]
      · simp [hn, Table.lookup_put_of_ne schema (Ne.symm hn)]
  | _ => simp

theorem recorded_empty : Recorded model mapper attached empty := fun _ => rfl

theorem Recorded.visit (h : Recorded model mapper attached state) :
    Recorded model mapper attached (visit model mapper attached state ty) := by
  intro name
  rw [lookup_visit, h name]
  change _ = (ty :: state.visited).findSome? _
  rw [List.findSome?_cons]
  cases schemaAs? model mapper attached name ty <;> rfl

theorem leadsTo_of_mem_walk {pending : List TypeId}
    (h : ty ∈ (walk model mapper attached state pending).visited) :
    ty ∈ state.visited ∨ ∃ start ∈ pending, ReflTransGen model.LeadsTo start ty := by
  fun_induction walk model mapper attached state pending with
  | case1 => exact Or.inl h
  | case2 state start rest hv ih =>
    rcases ih h with h | ⟨other, ho, hr⟩
    · exact Or.inl h
    · exact Or.inr ⟨other, List.mem_cons_of_mem start ho, hr⟩
  | case3 state start rest hv ih =>
    rcases ih h with h | ⟨other, ho, hr⟩
    · rcases List.mem_cons.mp h with rfl | h
      · exact Or.inr ⟨ty, List.mem_cons_self, .refl⟩
      · exact Or.inl h
    · rcases List.mem_append.mp ho with ho | ho
      · exact Or.inr ⟨start, List.mem_cons_self, hr.head ho⟩
      · exact Or.inr ⟨other, List.mem_cons_of_mem start ho, hr⟩

theorem leadsTo_of_mem_extract {function : FunctionDef}
    (h : ty ∈ (extract model mapper attached state function).visited) :
    ty ∈ state.visited ∨ ∃ result, function.returns.bind ReturnClause.type = some result ∧
      ReflTransGen model.LeadsTo result ty := by
  unfold extract at h
  split at h
  · rename_i result hr
    rcases leadsTo_of_mem_walk h with h | ⟨start, hs, hl⟩
    · exact Or.inl h
    · exact Or.inr ⟨result, hr, List.mem_singleton.mp hs ▸ hl⟩
  · exact Or.inl h

theorem recorded_foldl {functions : List FunctionDef} (h : Recorded model mapper attached state) :
    Recorded model mapper attached (functions.foldl (extract model mapper attached) state) :=
  foldl_induction (fun _ _ => Recorded.visit) h

theorem leadsTo_of_mem_foldl {functions : List FunctionDef}
    (h : ty ∈ (functions.foldl (extract model mapper attached) state).visited) :
    ty ∈ state.visited ∨ ∃ function ∈ functions, ∃ result,
      function.returns.bind ReturnClause.type = some result ∧
        ReflTransGen model.LeadsTo result ty := by
  induction functions generalizing state with
  | nil => exact Or.inl h
  | cons function rest ih =>
    rcases ih h with h | ⟨other, ho, result, hr, hl⟩
    · rcases leadsTo_of_mem_extract h with h | ⟨result, hr, hl⟩
      · exact Or.inl h
      · exact Or.inr ⟨function, List.mem_cons_self, result, hr, hl⟩
    · exact Or.inr ⟨other, List.mem_cons_of_mem function ho, result, hr, hl⟩

end Extraction

namespace SourceModule

variable (model : SemanticModel) (mapper : StructuralMapper) (names : MarkerNames)
  (source : SourceModule)

def visited : List TypeId :=
  ((source.taggedFunctions names).foldl
    (Extraction.extract model mapper (source.attachedSchemas names)) Extraction.empty).visited

def ResultsLeadTo (model : SemanticModel) (names : MarkerNames) (source : SourceModule)
    (ty : TypeId) : Prop :=
  ∃ function ∈ source.taggedFunctions names, ∃ result,
    function.returns.bind ReturnClause.type = some result ∧ ReflTransGen model.LeadsTo result ty

def Offers (name : String) (ty : TypeId) (schema : Schema) : Prop :=
  source.ResultsLeadTo model names ty ∧ (∃ target, model.shape ty = .reference name target) ∧
    model.derive mapper (source.attachedSchemas names) ty = some schema

/-- The type is named so and has the schema, and of the types that are named so none that is visited
later has a schema. -/
def VisitedLast (name : String) (ty : TypeId) (schema : Schema) : Prop :=
  ∃ later earlier, source.visited model mapper names = later ++ ty :: earlier ∧
    (∃ target, model.shape ty = .reference name target) ∧
    model.derive mapper (source.attachedSchemas names) ty = some schema ∧
    ∀ other ∈ later, (∃ target, model.shape other = .reference name target) →
      model.derive mapper (source.attachedSchemas names) other = none

variable {model mapper names source} {name : String} {ty : TypeId} {schema : Schema}

theorem visitedLast_of_lookup
    (h : (source.extractSchemas model mapper names).lookup name = some schema) :
    ∃ ty, source.VisitedLast model mapper names name ty schema := by
  rw [extractSchemas, Extraction.recorded_foldl Extraction.recorded_empty name,
    List.findSome?_eq_some_iff] at h
  obtain ⟨later, ty, earlier, hvisited, hty, hlater⟩ := h
  obtain ⟨hnamed, hderived⟩ := Extraction.schemaAs?_eq_some_iff.mp hty
  refine ⟨ty, later, earlier, hvisited, hnamed, hderived, fun other ho hn => ?_⟩
  rw [Option.eq_none_iff_forall_ne_some]
  intro found hf
  have hsome := Extraction.schemaAs?_eq_some_iff.mpr ⟨hn, hf⟩
  rw [hlater other ho] at hsome
  cases hsome

theorem VisitedLast.offers (h : source.VisitedLast model mapper names name ty schema) :
    source.Offers model mapper names name ty schema := by
  obtain ⟨later, earlier, hvisited, hnamed, hderived, -⟩ := h
  have hm : ty ∈ source.visited model mapper names := by
    rw [hvisited]
    exact List.mem_append_right later List.mem_cons_self
  rcases Extraction.leadsTo_of_mem_foldl hm with hm | hm
  · cases hm
  · exact ⟨hm, hnamed, hderived⟩

end SourceModule

variable {names : MarkerNames} {cache : SchemaCache}

theorem Document.typeDefinitions_rewrite (document : Document) :
    (document.rewrite names cache).typeDefinitions = document.typeDefinitions.map
      (TypeDef.attach names (document.markerAlias? names)
        ((document.markerAlias? names).getD (document.freshAlias names)) cache) := by
  refine filterMap_map_edit (fun member => ?_) document.members
  cases member with
  | function f => rfl
  | type d => rfl

theorem TypeDef.tags_attach (definition : TypeDef) (marker : Option String) (written : String) :
    ∃ added, (definition.attach names marker written cache).tags = definition.tags ++ added ∧
      ∀ tag ∈ added, ∃ schema, cache.lookup definition.name = some schema ∧
        tag = schemaTag names written schema := by
  unfold TypeDef.attach
  cases hm : definition.missingSchema? names marker cache with
  | none => exact ⟨[], (List.append_nil _).symm, by simp⟩
  | some schema =>
    have hlookup := (missingSchema?_eq_some_iff.mp hm).1
    exact ⟨_, rfl, fun tag ht => ⟨schema, hlookup, List.mem_singleton.mp ht⟩⟩

theorem SourceModule.attaches_last_visited (model : SemanticModel) (mapper : StructuralMapper)
    (names : MarkerNames) (source : SourceModule) :
    let result := source.rewrite model mapper names
    let derive := model.derive mapper (source.attachedSchemas names)
    List.Forall₂ (fun document document' => List.Forall₂ (fun before after =>
        ∃ added, after.tags = before.tags ++ added ∧ ∀ tag ∈ added, ∃ ty schema,
          tag.value = some schema.text ∧
          source.VisitedLast model mapper names before.name ty schema ∧
          source.ResultsLeadTo model names ty ∧
          ((∀ other found, source.Offers model mapper names before.name other found →
            derive before.type = some found) → derive before.type = some schema))
        document.typeDefinitions document'.typeDefinitions)
      source.allDocuments result.source.allDocuments := by
  intro result derive
  by_cases hpass : source.Passes model names
  · obtain ⟨hall, hschemas, -⟩ := SourceModule.rewrite_of_passes mapper hpass
    rw [hall]
    apply List.forall₂_map_right_iff.mpr
    refine List.forall₂_same.mpr fun document _ => ?_
    rw [Document.typeDefinitions_rewrite]
    apply List.forall₂_map_right_iff.mpr
    refine List.forall₂_same.mpr fun definition _ => ?_
    obtain ⟨added, htags, hadded⟩ := definition.tags_attach _ _
    refine ⟨added, htags, fun tag ht => ?_⟩
    obtain ⟨schema, hlookup, rfl⟩ := hadded tag ht
    obtain ⟨ty, hty⟩ := SourceModule.visitedLast_of_lookup (hschemas ▸ hlookup)
    exact ⟨ty, schema, rfl, hty, hty.offers.1, fun hagree => hagree ty schema hty.offers⟩
  · have hresult : result = ⟨source, _, [], 0⟩ := SourceModule.rewrite_of_not_passes hpass
    rw [hresult]
    refine List.forall₂_same.mpr fun document _ => List.forall₂_same.mpr fun definition _ => ?_
    exact ⟨[], (List.append_nil _).symm, by simp⟩

def catArena : TypeArena :=
  (TypeArena.empty.add (.named "Cat" (some 1)) (by decide)).add (.union [2, 0]) (by decide)

def catDefinition : TypeDef := ⟨"Cat", 2, [], Span.none⟩

def mainDocument : Document := ⟨"main", askDocument.imports, [.function (questionOn 3)]⟩

def catDocument : Document := ⟨"cats", [], [.type catDefinition, .function (questionOn 3)]⟩

def catSource : SourceModule := ⟨"cats", [mainDocument, catDocument], []⟩

theorem shape_catArena : catArena.model.shape 2 = .reference "Cat" 1 ∧
    catArena.model.shape 3 = .union [2, 0] := by decide

theorem eq_cat_of_shape {ty target : TypeId} {name : String}
    (h : catArena.model.shape ty = .reference name target) : ty = 2 := by
  match ty with
  | 0 => cases h
  | 1 => cases h
  | 2 => rfl
  | 3 => cases h
  | _ + 4 => cases h

theorem derive_catArena :
    catArena.model.derive catArena.openApiMapper [] 2 = some Schema.anyJson := by
  rw [SemanticModel.derive_eq_some_iff]
  exact .same rfl (.known rfl)

theorem unionMembers_catArena : catArena.model.unionMembers 3 = [2, 0] := by
  have hcat : catArena.model.resolve 2 = 1 := SemanticModel.resolve_of_ends (.single rfl) rfl
  have hself : catArena.model.resolve 3 = 3 := SemanticModel.resolve_of_target_none (by decide)
  have herror : catArena.model.resolve 0 = 0 := SemanticModel.resolve_of_target_none (by decide)
  have hjson : catArena.model.shape 1 = .json ∧ catArena.model.shape 0 = .error := by decide
  apply SemanticModel.unionMembers_of_singles
  · rw [hself]
    exact shape_catArena.2
  · simp [SemanticModel.Single, hcat, herror, hjson]

theorem checkFunction_catArena (document : String) :
    Signature.checkFunction catArena.model .standard document (questionOn 3) .broad = [] := by
  apply List.append_eq_nil_iff.mpr
  constructor
  · rfl
  · rw [Signature.checkReturns_eq_nil_iff rfl, unionMembers_catArena]
    decide

theorem passes_catSource : catSource.Passes catArena.model .standard where
  tagged := ⟨mainDocument, List.mem_cons_self, questionOn 3, .broad,
    List.mem_cons_self, "np", by decide, by decide⟩
  clean := by
    intro document hd function form ht
    rcases List.mem_pair.mp hd with rfl | rfl
    · obtain ⟨rfl, rfl⟩ := (Document.taggedAs_singleton rfl rfl rfl).mp ht
      exact checkFunction_catArena "main"
    · exact absurd ht (Document.not_taggedAs_of_unmarked rfl)

theorem extractSchemas_catArena {source : SourceModule} {schema : Schema} (function : FunctionDef)
    (htagged : source.taggedFunctions .standard = [function])
    (hreturns : function.returns = (questionOn 3).returns)
    (hderive : catArena.model.derive catArena.openApiMapper (source.attachedSchemas .standard) 2 =
      some schema) :
    source.extractSchemas catArena.model catArena.openApiMapper .standard = [("Cat", schema)] := by
  have hjson : catArena.model.shape 1 = .json ∧ catArena.model.shape 0 = .error := by decide
  rw [SourceModule.extractSchemas, htagged]
  simp [Extraction.extract, hreturns, questionOn, Extraction.walk, Extraction.visit, shape_catArena,
    hjson, hderive, Extraction.empty, TypeShape.next, TypeShape.parts, TypeShape.target?, Table.put]

theorem extractSchemas_of_unattached {source : SourceModule}
    (htagged : source.taggedFunctions .standard = [questionOn 3])
    (hattached : source.attachedSchemas .standard = []) :
    source.extractSchemas catArena.model catArena.openApiMapper .standard =
      [("Cat", Schema.anyJson)] :=
  extractSchemas_catArena (questionOn 3) htagged rfl (hattached ▸ derive_catArena)

theorem extractSchemas_catSource :
    catSource.extractSchemas catArena.model catArena.openApiMapper .standard =
      [("Cat", Schema.anyJson)] :=
  extractSchemas_of_unattached (by decide) (by decide)

theorem SourceModule.attaches_last_visited_cat :
    ∃ added ≠ [], (catDefinition.attach .standard none "np" [("Cat", Schema.anyJson)]).tags =
        catDefinition.tags ++ added ∧
      ∀ tag ∈ added, ∃ schema, tag.value = some schema.text ∧
        catArena.model.derive catArena.openApiMapper [] 2 = some schema := by
  have hattached : catSource.attachedSchemas .standard = [] := by decide
  have hforall := SourceModule.attaches_last_visited catArena.model catArena.openApiMapper .standard
    catSource
  obtain ⟨hall, hschemas, -⟩ :=
    SourceModule.rewrite_of_passes catArena.openApiMapper passes_catSource
  dsimp only at hforall
  rw [hall, hschemas, extractSchemas_catSource] at hforall
  have hdocument := (List.forall₂_cons.mp (List.forall₂_cons.mp hforall).2).1
  rw [Document.typeDefinitions_rewrite] at hdocument
  obtain ⟨added, htags, hadded⟩ := (List.forall₂_cons.mp hdocument).1
  refine ⟨added, ?_, htags, fun tag ht => ?_⟩
  · rintro rfl
    exact absurd htags (by decide)
  · obtain ⟨ty, schema, hvalue, -, -, hagree⟩ := hadded tag ht
    refine ⟨schema, hvalue, hattached ▸ hagree fun other found hoffer => ?_⟩
    obtain ⟨-, ⟨target, hshape⟩, hderived⟩ := hoffer
    obtain rfl := eq_cat_of_shape hshape
    exact hderived

def namesakeArena : TypeArena :=
  ((((TypeArena.empty.add (.primitive .int) (by decide)).add (.primitive .string) (by decide)).add
    (.named "Cat" (some 2)) (by decide)).add (.named "Cat" (some 3)) (by decide)).add
    (.union [4, 5, 0]) (by decide)

def namesakeDocument : Document :=
  ⟨"main", askDocument.imports, [.function (questionOn 6), .type ⟨"Cat", 4, [], Span.none⟩]⟩

def namesakeSource : SourceModule := ⟨"cats", [namesakeDocument], []⟩

theorem shape_namesakeArena : namesakeArena.model.shape 0 = .error ∧
    namesakeArena.model.shape 2 = .primitive .int ∧
    namesakeArena.model.shape 3 = .primitive .string ∧
    namesakeArena.model.shape 4 = .reference "Cat" 2 ∧
    namesakeArena.model.shape 5 = .reference "Cat" 3 ∧
    namesakeArena.model.shape 6 = .union [4, 5, 0] := by decide

theorem derive_namesakeArena :
    namesakeArena.model.derive namesakeArena.openApiMapper [] 4 = some (.primitive .int) ∧
      namesakeArena.model.derive namesakeArena.openApiMapper [] 5 = some (.primitive .string) := by
  rw [SemanticModel.derive_eq_some_iff, SemanticModel.derive_eq_some_iff]
  exact ⟨.same rfl (.known rfl), .same rfl (.known rfl)⟩

theorem unionMembers_namesakeArena : namesakeArena.model.unionMembers 6 = [4, 5, 0] := by
  have hint : namesakeArena.model.resolve 4 = 2 :=
    SemanticModel.resolve_of_ends (.single rfl) rfl
  have hstring : namesakeArena.model.resolve 5 = 3 :=
    SemanticModel.resolve_of_ends (.single rfl) rfl
  have hself : namesakeArena.model.resolve 6 = 6 := SemanticModel.resolve_of_target_none (by decide)
  have herror : namesakeArena.model.resolve 0 = 0 :=
    SemanticModel.resolve_of_target_none (by decide)
  apply SemanticModel.unionMembers_of_singles
  · rw [hself]
    exact shape_namesakeArena.2.2.2.2.2
  · simp [SemanticModel.Single, hint, hstring, herror, shape_namesakeArena]

theorem passes_namesakeSource : namesakeSource.Passes namesakeArena.model .standard where
  tagged := ⟨namesakeDocument, List.mem_cons_self, questionOn 6, .broad,
    List.mem_cons_self, "np", by decide, by decide⟩
  clean := by
    intro document hd function form ht
    obtain rfl := List.mem_singleton.mp hd
    obtain ⟨rfl, rfl⟩ := (Document.taggedAs_singleton rfl rfl rfl).mp ht
    apply List.append_eq_nil_iff.mpr
    constructor
    · rfl
    · rw [Signature.checkReturns_eq_nil_iff rfl, unionMembers_namesakeArena]
      decide

theorem extractSchemas_namesakeSource :
    namesakeSource.extractSchemas namesakeArena.model namesakeArena.openApiMapper .standard =
      [("Cat", Schema.primitive .string)] := by
  have htagged : namesakeSource.taggedFunctions .standard = [questionOn 6] := by decide
  have hattached : namesakeSource.attachedSchemas .standard = [] := by decide
  rw [SourceModule.extractSchemas, htagged, hattached]
  simp [Extraction.extract, questionOn, Extraction.walk, Extraction.visit, shape_namesakeArena,
    derive_namesakeArena, Extraction.empty, TypeShape.next, TypeShape.parts, TypeShape.target?,
    Table.put]

theorem SourceModule.attaches_schema_of_namesake :
    let result := namesakeSource.rewrite namesakeArena.model namesakeArena.openApiMapper .standard
    (∀ document ∈ namesakeSource.allDocuments, ∀ definition ∈ document.typeDefinitions,
      ∃ target, namesakeArena.model.shape definition.type = .reference definition.name target) ∧
    (∃ document ∈ result.source.allDocuments, ∃ definition ∈ document.typeDefinitions,
      definition.type = 4 ∧ ∃ tag, definition.tags = [tag] ∧
        tag.value = some (Schema.primitive .string).text) ∧
    namesakeArena.model.derive namesakeArena.openApiMapper
      (namesakeSource.attachedSchemas .standard) 4 = some (Schema.primitive .int) ∧
    (Schema.primitive .int).text ≠ (Schema.primitive .string).text := by
  intro result
  have hattached : namesakeSource.attachedSchemas .standard = [] := by decide
  obtain ⟨hall, hschemas, -⟩ :=
    SourceModule.rewrite_of_passes namesakeArena.openApiMapper passes_namesakeSource
  rw [hschemas, extractSchemas_namesakeSource] at hall
  refine ⟨?_, ?_, hattached ▸ derive_namesakeArena.1, by decide⟩
  · intro document hd definition ht
    obtain rfl := List.mem_singleton.mp hd
    obtain rfl := List.mem_singleton.mp ht
    exact ⟨2, shape_namesakeArena.2.2.2.1⟩
  · rw [hall]
    exact ⟨_, List.mem_cons_self, _, List.mem_cons_self, rfl, _, rfl, rfl⟩

end NaturalFunctions
