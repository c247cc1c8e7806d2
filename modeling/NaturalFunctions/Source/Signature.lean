import NaturalFunctions.Source.Diagnostic
import NaturalFunctions.Source.Marker
import NaturalFunctions.Types.Walk

namespace NaturalFunctions

structure Capabilities where
  prompt : Option TypeId
  context : Option TypeId
  model : Option TypeId

def Capabilities.of (model : SemanticModel) (names : MarkerNames) : Capabilities where
  prompt := model.moduleType names.org names.module names.promptType
  context := model.moduleType names.org names.module names.contextType
  model := model.moduleType names.org names.module names.modelType

structure ParamContract where
  capability : Option TypeId
  kindRule : Rule
  typeRule : Rule

def Capabilities.contract? (known : Capabilities) (form : NaturalForm) (name : String) :
    Option ParamContract :=
  if name = "prompt" then some ⟨known.prompt, .promptPositional, .promptType⟩
  else if name = form.companion then
    match form with
    | .broad => some ⟨known.context, .contextPositional, .contextType⟩
    | .direct => some ⟨known.model, .modelPositional, .modelType⟩
  else none

namespace Signature

def checkParam (model : SemanticModel) (document : String) (contract : ParamContract)
    (param : Param) : List Diagnostic :=
  (if param.kind.isPositional then [] else [.violation contract.kindRule document param.span]) ++
    match param.type, contract.capability with
    | some type, some capability =>
      if model.isSubtype type capability then []
      else [.violation contract.typeRule document param.typeSpan]
    | _, _ => []

def checkParams (model : SemanticModel) (names : MarkerNames) (document : String)
    (function : FunctionDef) (form : NaturalForm) : List Diagnostic :=
  (function.params.flatMap fun param =>
    match (Capabilities.of model names).contract? form param.name with
    | some contract => checkParam model document contract param
    | none => []) ++
    if function.params.any fun param => param.name = "prompt" then []
    else [.violation .promptRequired document function.span]

def checkMembers (model : SemanticModel) (document : String) (span : Span) (type : TypeId) :
    List Diagnostic :=
  (model.unionMembers type).flatMap fun member =>
    if model.isSubtype member model.errorType || model.isSubtype member model.jsonType then []
    else [.violation .successIsJson document span]

def checkReturns (model : SemanticModel) (document : String) (function : FunctionDef)
    (form : NaturalForm) : List Diagnostic :=
  match function.returns with
  | none => [.violation .returnsError document function.span]
  | some ⟨none, span⟩ => [.violation .returnsError document span]
  | some ⟨some type, span⟩ =>
    if !model.isSubtype model.errorType type then
      .violation .returnsError document span :: checkMembers model document span type
    else if form = .broad && model.isSubtype type model.errorType then
      [.violation .returnsSuccessAndError document span]
    else checkMembers model document span type

def checkFunction (model : SemanticModel) (names : MarkerNames) (document : String)
    (function : FunctionDef) (form : NaturalForm) : List Diagnostic :=
  checkParams model names document function form ++ checkReturns model document function form

def checkDocument (model : SemanticModel) (names : MarkerNames) (document : Document) :
    List Diagnostic :=
  match document.markerAlias? names with
  | none => []
  | some marker =>
    document.functions.flatMap fun function =>
      match function.naturalForm? names marker with
      | some form => checkFunction model names document.name function form
      | none => []

def checkModule (model : SemanticModel) (names : MarkerNames) (source : SourceModule) :
    List Diagnostic :=
  source.allDocuments.flatMap (checkDocument model names)

end Signature

end NaturalFunctions
