import NaturalFunctions.Text.Decimal
import NaturalFunctions.Types.Shape

namespace NaturalFunctions

structure Span where
  start : Nat
  stop : Nat
deriving DecidableEq, Repr

def Span.none : Span := ⟨0, 0⟩

structure Import where
  org : Option String
  path : List String
  rename : Option String
  span : Span
deriving DecidableEq, Repr

def Import.alias (i : Import) : String := i.rename.getD (i.path.getLast?.getD "")

def Import.text (i : Import) : String :=
  "import " ++ (match i.org with | some org => org ++ "/" | none => "") ++
    ".".intercalate i.path ++
    (match i.rename with | some name => " as " ++ name | none => "") ++ ";"

structure QualifiedName where
  qualifier : Option String
  name : String
deriving DecidableEq, Repr

def QualifiedName.text (q : QualifiedName) : String :=
  match q.qualifier with
  | some qualifier => qualifier ++ ":" ++ q.name
  | none => q.name

structure Tag where
  reference : QualifiedName
  value : Option String
deriving DecidableEq, Repr

def Tag.text (tag : Tag) : String :=
  "@" ++ tag.reference.text ++ (match tag.value with | some value => " " ++ value | none => "")

structure Call where
  callee : QualifiedName
  args : List String
deriving DecidableEq, Repr

def Call.text (call : Call) : String := call.callee.text ++ "(" ++ ", ".intercalate call.args ++ ")"

inductive FunctionBody where
  | external (tags : List Tag)
  | call (call : Call)
  | block (text : String)
deriving DecidableEq, Repr

inductive ParamKind where
  | required
  | defaultable
  | included
  | rest
deriving DecidableEq, Repr

def ParamKind.isPositional : ParamKind → Bool
  | .required => true
  | .defaultable => true
  | .included => false
  | .rest => false

structure Param where
  name : String
  kind : ParamKind
  type : Option TypeId
  span : Span
  typeSpan : Span
deriving DecidableEq, Repr

structure ReturnClause where
  type : Option TypeId
  span : Span
deriving DecidableEq, Repr

structure FunctionDef where
  name : String
  params : List Param
  returns : Option ReturnClause
  body : FunctionBody
  span : Span
deriving DecidableEq, Repr

def FunctionDef.param? (function : FunctionDef) (name : String) : Option Param :=
  function.params.find? fun param => param.name = name

structure TypeDef where
  name : String
  type : TypeId
  tags : List Tag
  span : Span
deriving DecidableEq, Repr

inductive Member where
  | function (function : FunctionDef)
  | type (definition : TypeDef)
deriving DecidableEq, Repr

def Member.function? : Member → Option FunctionDef
  | .function f => some f
  | .type _ => none

def Member.type? : Member → Option TypeDef
  | .function _ => none
  | .type d => some d

structure Document where
  name : String
  imports : List Import
  members : List Member
deriving DecidableEq, Repr

namespace Document

def functions (document : Document) : List FunctionDef :=
  document.members.filterMap Member.function?

def typeDefinitions (document : Document) : List TypeDef :=
  document.members.filterMap Member.type?

def function? (document : Document) (name : String) : Option FunctionDef :=
  document.functions.find? fun function => function.name = name

def typeDefinition? (document : Document) (name : String) : Option TypeDef :=
  document.typeDefinitions.find? fun definition => definition.name = name

end Document

structure SourceModule where
  name : String
  documents : List Document
  testDocuments : List Document
deriving DecidableEq, Repr

def SourceModule.allDocuments (source : SourceModule) : List Document :=
  source.documents ++ source.testDocuments

end NaturalFunctions
