import NaturalFunctions.Source.Extraction
import NaturalFunctions.Source.Signature
import NaturalFunctions.Json.Printer

/-!
Rewriting a module that keeps the contract: natural functions call the entry point, and the named
types that their results lead to carry their schemas.
-/

namespace NaturalFunctions

def Document.taggedFunctions (names : MarkerNames) (document : Document) : List FunctionDef :=
  match document.markerAlias? names with
  | none => []
  | some marker =>
    document.functions.filter fun function => (function.naturalForm? names marker).isSome

def SourceModule.taggedFunctions (names : MarkerNames) (source : SourceModule) :
    List FunctionDef :=
  source.allDocuments.flatMap (Document.taggedFunctions names)

def FunctionDef.entryCall (names : MarkerNames) (marker : String) (form : NaturalForm)
    (function : FunctionDef) : Call where
  callee := ⟨some marker, names.entryPoint⟩
  args := "prompt" :: if (function.param? form.companion).isSome then [form.companion] else []

def FunctionDef.rewrite (names : MarkerNames) (marker : String) (function : FunctionDef) :
    FunctionDef :=
  match function.naturalForm? names marker with
  | some form => { function with body := .call (function.entryCall names marker form) }
  | none => function

def Document.rewrittenBodies (names : MarkerNames) (document : Document) : Nat :=
  match document.markerAlias? names with
  | none => 0
  | some marker =>
    document.functions.countP fun function => (function.naturalForm? names marker).isSome

def Document.freshAlias (names : MarkerNames) (document : Document) : String :=
  let taken := document.imports.map Import.alias
  if names.defaultAlias ∈ taken then
    let variants := (List.range (taken.length + 1)).map fun i =>
      names.defaultAlias ++ decimal (i + 1)
    (variants.find? fun candidate => !taken.contains candidate).getD names.defaultAlias
  else names.defaultAlias

def TypeDef.missingSchema? (names : MarkerNames) (marker : Option String) (cache : SchemaCache)
    (definition : TypeDef) : Option Schema :=
  if definition.tags.any (Tag.isSchema names marker) then none else cache.lookup definition.name

def schemaTag (names : MarkerNames) (marker : String) (schema : Schema) : Tag :=
  ⟨⟨some marker, names.schemaTag⟩, some schema.text⟩

def TypeDef.attach (names : MarkerNames) (marker : Option String) (written : String)
    (cache : SchemaCache) (definition : TypeDef) : TypeDef :=
  match definition.missingSchema? names marker cache with
  | some schema => { definition with tags := definition.tags ++ [schemaTag names written schema] }
  | none => definition

def Member.rewrite (names : MarkerNames) (marker : Option String) (written : String)
    (cache : SchemaCache) : Member → Member
  | .function f =>
    .function (match marker with
      | some marker => f.rewrite names marker
      | none => f)
  | .type d => .type (d.attach names marker written cache)

def markerImport (names : MarkerNames) (marker : String) : Import where
  org := some names.org
  path := [names.module]
  rename := if marker = names.defaultAlias then none else some marker
  span := Span.none

def Document.rewrite (names : MarkerNames) (cache : SchemaCache) (document : Document) :
    Document :=
  let marker := document.markerAlias? names
  let written := marker.getD (document.freshAlias names)
  let attaches := document.typeDefinitions.any fun definition =>
    (definition.missingSchema? names marker cache).isSome
  { document with
    imports := document.imports ++
      if marker.isNone && attaches then [markerImport names written] else []
    members := document.members.map (Member.rewrite names marker written cache) }

structure Rewriting where
  source : SourceModule
  diagnostics : List Diagnostic
  schemas : SchemaCache
  rewritten : Nat

def Rewriting.isModified (r : Rewriting) : Bool := r.rewritten > 0 || !r.schemas.isEmpty

namespace SourceModule

def hasError (diagnostics : List Diagnostic) : Bool := diagnostics.any Diagnostic.isError

def extractSchemas (model : SemanticModel) (mapper : StructuralMapper) (names : MarkerNames)
    (source : SourceModule) : SchemaCache :=
  let attached := source.attachedSchemas names
  ((source.taggedFunctions names).foldl (Extraction.extract model mapper attached)
    Extraction.empty).cache

def rewrite (model : SemanticModel) (mapper : StructuralMapper) (names : MarkerNames)
    (source : SourceModule) : Rewriting :=
  let diagnostics := Signature.checkModule model names source
  if hasError diagnostics || (source.taggedFunctions names).isEmpty then
    ⟨source, diagnostics, [], 0⟩
  else
    let cache := source.extractSchemas model mapper names
    { source :=
        { source with
          documents := source.documents.map (Document.rewrite names cache)
          testDocuments := source.testDocuments.map (Document.rewrite names cache) }
      diagnostics := diagnostics
      schemas := cache
      rewritten := source.allDocuments.foldl
        (fun rewritten document => rewritten + document.rewrittenBodies names) 0 }

end SourceModule

end NaturalFunctions
