import NaturalFunctions.Descriptor.Basic
import NaturalFunctions.Text.Quoted

namespace NaturalFunctions

def Definition.summary? (definition : Definition) : Option String :=
  match definition.schema with
  | some _ => none
  | none =>
    some ("TypeDefinition \x7b name: " ++ Quoted.quote definition.name ++ ", defined: " ++
      (if definition.body.isSome then "true" else "false") ++ ", schema: None \x7d")

end NaturalFunctions
