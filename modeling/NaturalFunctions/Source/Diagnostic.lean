import NaturalFunctions.Source.Document

namespace NaturalFunctions

inductive Severity where
  | error
  | warning
deriving DecidableEq, Repr

inductive Rule where
  | promptRequired
  | promptPositional
  | contextPositional
  | promptType
  | contextType
  | returnsError
  | returnsSuccessAndError
  | successIsJson
  | modelPositional
  | modelType
deriving DecidableEq, Repr

namespace Rule

def all : List Rule :=
  [.promptRequired, .promptPositional, .contextPositional, .promptType, .contextType,
    .returnsError, .returnsSuccessAndError, .successIsJson, .modelPositional, .modelType]

def code : Rule → String
  | .promptRequired => "NP_ERROR_001"
  | .promptPositional => "NP_ERROR_002"
  | .contextPositional => "NP_ERROR_003"
  | .promptType => "NP_ERROR_004"
  | .contextType => "NP_ERROR_005"
  | .returnsError => "NP_ERROR_006"
  | .returnsSuccessAndError => "NP_ERROR_007"
  | .successIsJson => "NP_ERROR_008"
  | .modelPositional => "NP_ERROR_009"
  | .modelType => "NP_ERROR_010"

def name : Rule → String
  | .promptRequired => "PROMPT_PARAM_IS_REQUIRED"
  | .promptPositional => "PROMPT_PARAM_MUST_BE_REQUIRED_OR_DEFAULTABLE"
  | .contextPositional => "CONTEXT_PARAM_MUST_BE_REQUIRED_OR_DEFAULTABLE"
  | .promptType => "TYPE_OF_PROMPT_PARAM_MUST_BE_A_SUBTYPE_OF_NP_PROMPT"
  | .contextType => "TYPE_OF_CONTEXT_PARAM_MUST_BE_A_SUBTYPE_OF_NP_CONTEXT"
  | .returnsError => "RETURN_TYPE_MUST_CONTAIN_ERROR"
  | .returnsSuccessAndError => "RETURN_TYPE_MUST_CONTAIN_A_UNION_OF_NON_ERROR_AND_ERROR"
  | .successIsJson => "NON_ERROR_RETURN_TYPE_MUST_BE_A_SUBTYPE_OF_JSON"
  | .modelPositional => "MODEL_PARAM_MUST_BE_REQUIRED_OR_DEFAULTABLE"
  | .modelType => "TYPE_OF_MODEL_PARAM_MUST_BE_A_SUBTYPE_OF_NP_MODEL"

def message : Rule → String
  | .promptRequired => "a natural function must contain the 'prompt' parameter"
  | .promptPositional => "the 'prompt' parameter must be a required or defaultable parameter"
  | .contextPositional => "the 'context' parameter must be a required or defaultable parameter"
  | .promptType => "the type of the 'prompt' parameter must be a subtype of 'np:Prompt'"
  | .contextType => "the type of the 'context' parameter must be a subtype of 'np:Context'"
  | .returnsError => "the return type of a natural function must contain 'error'"
  | .returnsSuccessAndError =>
    "the return type of a natural function must contain both a non-'error' type and 'error'"
  | .successIsJson =>
    "non-'error' return type of a natural function must be a subtype of 'json'"
  | .modelPositional => "the 'model' parameter must be a required or defaultable parameter"
  | .modelType => "the type of the 'model' parameter must be a subtype of 'np:Model'"

end Rule

structure Diagnostic where
  rule : Rule
  message : String
  severity : Severity
  document : String
  span : Span
deriving DecidableEq, Repr

namespace Diagnostic

def violation (rule : Rule) (document : String) (span : Span) : Diagnostic where
  rule := rule
  message := rule.message
  severity := .error
  document := document
  span := span

def isError (d : Diagnostic) : Bool := d.severity = .error

def text (d : Diagnostic) : String :=
  (match d.severity with | .error => "ERROR" | .warning => "WARNING") ++ " [" ++ d.document ++
    ":(" ++ decimal d.span.start ++ ":" ++ decimal d.span.stop ++ ")] " ++ d.rule.code ++ ": " ++
    d.message

end Diagnostic

end NaturalFunctions
