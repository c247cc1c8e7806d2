import NaturalFunctions.Descriptor.Members

namespace NaturalFunctions

structure ListedField where
  name : String
  required : Bool
  nilable : Bool
  type : Descriptor

mutual

def Descriptor.label (defs : Definitions) : Descriptor → String
  | .primitive kind => kind.jsonType
  | .record _ => "object"
  | .array element => Descriptor.label defs element ++ "[]"
  | .tuple _ => "array"
  | .union members => "|".intercalate (Descriptor.labels defs members)
  | .reference i => defs.name i
  | .json => "json"
  | .error => "error"
  | .other name => name

def Descriptor.labels (defs : Definitions) : List Descriptor → List String
  | [] => []
  | member :: rest => Descriptor.label defs member :: Descriptor.labels defs rest

end

def ListedField.text (defs : Definitions) (field : ListedField) : String :=
  field.name ++ (if field.required then "" else "?") ++ ": " ++ field.type.label defs ++
    (if field.nilable then " (nullable)" else "")

namespace Definitions

def recordFields? (defs : Definitions) (type : Descriptor) : Option (List ListedField) :=
  match defs.resolve type with
  | .record fields => some (fields.map fun field =>
      { name := field.name
        required := !field.optional
        nilable := defs.containsNil field.type
        type := defs.nonNilMember field.type })
  | _ => none

def listing? (defs : Definitions) (member : Descriptor) : Option String :=
  (defs.recordFields? member).map fun fields =>
    let name := match member with
      | .reference i => defs.name i
      | _ => "record"
    name ++ " \x7b " ++ ", ".intercalate (fields.map (ListedField.text defs)) ++ " \x7d"

def fieldHint? (defs : Definitions) (type : Descriptor) : Option String :=
  match (defs.unionMembers type).filterMap defs.listing? with
  | [] => none
  | lines => some ("\n".intercalate lines)

end Definitions

end NaturalFunctions
