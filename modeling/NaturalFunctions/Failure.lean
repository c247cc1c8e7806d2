import NaturalFunctions.Json.Basic

namespace NaturalFunctions

def ReadFault.message : ReadFault → String
  | .truncated => "the text ends inside a value"
  | .malformed => "the text is not well formed"
  | .unsuited => "the value has another shape"

inductive Failure where
  | unresolvedModel
  | serialization (fault : ReadFault)
  | backend (reason : String)
  | invalidRequest (reason : String)
  | invalid (reason : String)
deriving DecidableEq, Repr

def Failure.message : Failure → String
  | .unresolvedModel =>
    "no model selected for the natural function call and no default is configured"
  | .serialization fault => "serialization error: " ++ fault.message
  | .backend reason => "prediction service returned an error: " ++ reason
  | .invalidRequest reason => "invalid request: " ++ reason
  | .invalid reason => "invalid: " ++ reason

end NaturalFunctions
