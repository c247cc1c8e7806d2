import NaturalFunctions.Source.Document
import NaturalFunctions.Json.Parser

namespace NaturalFunctions

structure MarkerNames where
  org : String
  module : String
  naturalFunctionTag : String
  directCallTag : String
  schemaTag : String
  promptType : String
  contextType : String
  modelType : String
  entryPoint : String
deriving DecidableEq, Repr

def MarkerNames.standard : MarkerNames where
  org := "natural"
  module := "np"
  naturalFunctionTag := "NaturalFunction"
  directCallTag := "LlmCall"
  schemaTag := "Schema"
  promptType := "Prompt"
  contextType := "Context"
  modelType := "Model"
  entryPoint := "callLlm"

def MarkerNames.defaultAlias (names : MarkerNames) : String := names.module

inductive NaturalForm where
  | broad
  | direct
deriving DecidableEq, Repr

def NaturalForm.companion : NaturalForm → String
  | .broad => "context"
  | .direct => "model"

def Import.isMarker (names : MarkerNames) (i : Import) : Bool :=
  (i.org = none || i.org = some names.org) && i.path = [names.module]

def Document.markerAlias? (names : MarkerNames) (document : Document) : Option String :=
  (document.imports.find? fun i => i.isMarker names).map Import.alias

def Tag.form? (names : MarkerNames) (marker : String) (tag : Tag) : Option NaturalForm :=
  if tag.reference = ⟨some marker, names.naturalFunctionTag⟩ then some .broad
  else if tag.reference = ⟨some marker, names.directCallTag⟩ then some .direct
  else none

def FunctionDef.naturalForm? (names : MarkerNames) (marker : String) (function : FunctionDef) :
    Option NaturalForm :=
  match function.body with
  | .external tags => tags.findSome? (Tag.form? names marker)
  | .call _ => none
  | .block _ => none

def Tag.isSchema (names : MarkerNames) (marker : Option String) (tag : Tag) : Bool :=
  tag.reference.name = names.schemaTag &&
    (match tag.reference.qualifier with
      | some qualifier => some qualifier = marker || qualifier = names.defaultAlias
      | none => false)

def TypeDef.attachedSchema? (names : MarkerNames) (marker : Option String) (definition : TypeDef) :
    Option Schema :=
  ((definition.tags.filter (Tag.isSchema names marker)).findSome? Tag.value).bind fun text =>
    (Json.ofText text).toOption

def Document.attachedSchemas (names : MarkerNames) (document : Document) :
    List (String × Schema) :=
  document.typeDefinitions.filterMap fun definition =>
    (definition.attachedSchema? names (document.markerAlias? names)).map fun schema =>
      (definition.name, schema)

def SourceModule.attachedSchemas (names : MarkerNames) (source : SourceModule) :
    List (String × Schema) :=
  Table.ofList (source.allDocuments.flatMap (Document.attachedSchemas names))

end NaturalFunctions
