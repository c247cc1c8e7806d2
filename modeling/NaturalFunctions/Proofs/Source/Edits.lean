import Mathlib.Data.List.Forall2
import NaturalFunctions.Source.Rewriting

namespace NaturalFunctions

variable {names : MarkerNames} {marker : Option String} {written : String} {cache : SchemaCache}

def FunctionDef.Tagged (names : MarkerNames) (marker : Option String) (function : FunctionDef) :
    Prop :=
  ∃ own, marker = some own ∧ (function.naturalForm? names own).isSome

def Document.Tagged (names : MarkerNames) (document : Document) (function : FunctionDef) : Prop :=
  function ∈ document.functions ∧ function.Tagged names (document.markerAlias? names)

def TypeDef.Lacks (names : MarkerNames) (marker : Option String) (cache : SchemaCache)
    (definition : TypeDef) (schema : Schema) : Prop :=
  cache.lookup definition.name = some schema ∧
    ∀ tag ∈ definition.tags, tag.isSchema names marker = false

def FunctionDef.PassesOn (companion : String) (args : List String) (function : FunctionDef) :
    Prop :=
  args = ["prompt", companion] ∧ (∃ param ∈ function.params, param.name = companion) ∨
    args = ["prompt"] ∧ ∀ param ∈ function.params, param.name ≠ companion

structure FunctionEdit (names : MarkerNames) (marker : Option String) (before after : FunctionDef) :
    Prop where
  name : after.name = before.name
  params : after.params = before.params
  returns : after.returns = before.returns
  span : after.span = before.span
  broad : ∀ own, marker = some own → before.naturalForm? names own = some .broad →
    ∃ args, after.body = .call ⟨⟨some own, names.entryPoint⟩, args⟩ ∧
      before.PassesOn "context" args
  direct : ∀ own, marker = some own → before.naturalForm? names own = some .direct →
    ∃ args, after.body = .call ⟨⟨some own, names.entryPoint⟩, args⟩ ∧
      before.PassesOn "model" args
  kept : ¬ before.Tagged names marker → after.body = before.body

structure TypeEdit (names : MarkerNames) (marker : Option String) (written : String)
    (cache : SchemaCache) (before after : TypeDef) : Prop where
  name : after.name = before.name
  type : after.type = before.type
  span : after.span = before.span
  appended : ∀ schema, before.Lacks names marker cache schema →
    after.tags = before.tags ++ [⟨⟨some written, names.schemaTag⟩, some schema.text⟩]
  kept : (∀ schema, ¬ before.Lacks names marker cache schema) → after.tags = before.tags

inductive MemberEdit (names : MarkerNames) (marker : Option String) (written : String)
    (cache : SchemaCache) : Member → Member → Prop
  | function {before after : FunctionDef} (h : FunctionEdit names marker before after) :
      MemberEdit names marker written cache (.function before) (.function after)
  | type {before after : TypeDef} (h : TypeEdit names marker written cache before after) :
      MemberEdit names marker written cache (.type before) (.type after)

def Document.Receives (names : MarkerNames) (cache : SchemaCache) (document : Document) : Prop :=
  ∃ definition ∈ document.typeDefinitions, ∃ schema,
    definition.Lacks names (document.markerAlias? names) cache schema

structure DocumentEdit (names : MarkerNames) (cache : SchemaCache) (written : String)
    (before after : Document) : Prop where
  name : after.name = before.name
  members : List.Forall₂ (MemberEdit names (before.markerAlias? names) written cache)
    before.members after.members
  qualifier : ∀ own, before.markerAlias? names = some own → written = own
  imported : before.markerAlias? names = none → before.Receives names cache →
    ∃ new, after.imports = before.imports ++ [new] ∧ new.isMarker names = true ∧
      new.alias = written
  kept : before.markerAlias? names ≠ none ∨ ¬ before.Receives names cache →
    after.imports = before.imports

structure SourceEdit (names : MarkerNames) (cache : SchemaCache) (before after : SourceModule) :
    Prop where
  name : after.name = before.name
  documents : List.Forall₂ (fun b a => ∃ written, DocumentEdit names cache written b a)
    before.documents after.documents
  testDocuments : List.Forall₂ (fun b a => ∃ written, DocumentEdit names cache written b a)
    before.testDocuments after.testDocuments

def SourceModule.functions (source : SourceModule) : List FunctionDef :=
  source.allDocuments.flatMap Document.functions

def changedBodies (before after : List FunctionDef) : Nat :=
  (before.zip after).countP fun pair => pair.1.body ≠ pair.2.body

theorem FunctionDef.external_of_naturalForm? {own : String} {function : FunctionDef}
    {form : NaturalForm} (h : function.naturalForm? names own = some form) :
    ∃ tags, function.body = .external tags := by
  unfold FunctionDef.naturalForm? at h
  split at h
  · exact ⟨_, by assumption⟩
  · cases h
  · cases h

theorem FunctionEdit.called {own : String} {form : NaturalForm} {before after : FunctionDef}
    (h : FunctionEdit names (some own) before after)
    (hform : before.naturalForm? names own = some form) :
    ∃ args, after.body = .call ⟨⟨some own, names.entryPoint⟩, args⟩ ∧
      before.PassesOn form.companion args := by
  cases form with
  | broad => exact h.broad own rfl hform
  | direct => exact h.direct own rfl hform

theorem FunctionEdit.body_ne_iff {before after : FunctionDef}
    (h : FunctionEdit names marker before after) :
    before.body ≠ after.body ↔ before.Tagged names marker := by
  constructor
  · intro hne
    apply Classical.byContradiction
    intro hn
    exact hne (h.kept hn).symm
  · rintro ⟨own, rfl, hf⟩
    obtain ⟨form, hf⟩ := Option.isSome_iff_exists.mp hf
    obtain ⟨tags, ht⟩ := FunctionDef.external_of_naturalForm? hf
    obtain ⟨args, hcall, -⟩ := h.called hf
    rw [ht, hcall]
    intro heq
    cases heq

theorem MemberEdit.functions {members members' : List Member}
    (h : List.Forall₂ (MemberEdit names marker written cache) members members') :
    List.Forall₂ (FunctionEdit names marker) (members.filterMap Member.function?)
      (members'.filterMap Member.function?) := by
  induction h with
  | nil => exact .nil
  | cons hm _ ih =>
    cases hm with
    | function hf => exact .cons hf ih
    | type _ => exact ih

theorem changedBodies_eq_countP {R : FunctionDef → FunctionDef → Prop} {p : FunctionDef → Bool}
    (hR : ∀ before after, R before after → (before.body ≠ after.body ↔ p before = true))
    {before after : List FunctionDef} (h : List.Forall₂ R before after) :
    changedBodies before after = before.countP p := by
  induction h with
  | nil => rfl
  | @cons f f' fs fs' hf _ ih =>
    unfold changedBodies at ih ⊢
    rw [List.zip_cons_cons, List.countP_cons, List.countP_cons, ih]
    have hdecide : decide (f.body ≠ f'.body) = p f := by
      rw [Bool.eq_iff_iff, decide_eq_true_iff]
      exact hR f f' hf
    rw [hdecide]

theorem changedBodies_append {before before' after after' : List FunctionDef}
    (h : before.length = after.length) :
    changedBodies (before ++ before') (after ++ after') =
      changedBodies before after + changedBodies before' after' := by
  unfold changedBodies
  rw [List.zip_append h, List.countP_append]

theorem mem_taggedFunctions {document : Document} {function : FunctionDef} :
    function ∈ document.taggedFunctions names ↔ document.Tagged names function := by
  unfold Document.taggedFunctions Document.Tagged FunctionDef.Tagged
  cases document.markerAlias? names with
  | none => simp
  | some own => simp

theorem DocumentEdit.changedBodies_eq {before after : Document}
    (h : DocumentEdit names cache written before after) :
    changedBodies before.functions after.functions = (before.taggedFunctions names).length := by
  have hf := MemberEdit.functions h.members
  unfold Document.taggedFunctions
  cases hm : before.markerAlias? names with
  | none =>
    rw [hm] at hf
    have hnone : ∀ f f', FunctionEdit names none f f' → (f.body ≠ f'.body ↔ false = true) := by
      intro f f' he
      rw [he.body_ne_iff]
      simp [FunctionDef.Tagged]
    exact (changedBodies_eq_countP hnone hf).trans (by simp)
  | some own =>
    rw [hm] at hf
    have hsome : ∀ f f', FunctionEdit names (some own) f f' →
        (f.body ≠ f'.body ↔ (f.naturalForm? names own).isSome = true) := by
      intro f f' he
      rw [he.body_ne_iff]
      simp [FunctionDef.Tagged]
    exact (changedBodies_eq_countP hsome hf).trans List.countP_eq_length_filter

theorem changedBodies_flatMap {before after : List Document}
    (h : List.Forall₂ (fun b a => ∃ written, DocumentEdit names cache written b a) before after) :
    changedBodies (before.flatMap Document.functions) (after.flatMap Document.functions) =
      (before.flatMap (Document.taggedFunctions names)).length := by
  induction h with
  | nil => rfl
  | @cons document document' _ _ hd _ ih =>
    obtain ⟨written, hd⟩ := hd
    have hlength : document.functions.length = document'.functions.length :=
      (MemberEdit.functions hd.members).length_eq
    rw [List.flatMap_cons, List.flatMap_cons, List.flatMap_cons, List.length_append,
      changedBodies_append hlength, hd.changedBodies_eq, ih]

theorem SourceEdit.changedBodies_eq {before after : SourceModule}
    (h : SourceEdit names cache before after) :
    changedBodies before.functions after.functions = (before.taggedFunctions names).length :=
  changedBodies_flatMap (List.rel_append h.documents h.testDocuments)

end NaturalFunctions
