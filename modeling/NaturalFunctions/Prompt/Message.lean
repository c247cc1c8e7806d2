import NaturalFunctions.Json.Basic

namespace NaturalFunctions

inductive Role where
  | system
  | assistant
  | user
deriving DecidableEq, Repr

def Role.name : Role → String
  | .system => "system"
  | .assistant => "assistant"
  | .user => "user"

def Role.ofName? (name : String) : Option Role :=
  if name = "system" then some .system
  else if name = "assistant" then some .assistant
  else if name = "user" then some .user
  else none

structure Message where
  content : String
  role : Role
deriving DecidableEq, Repr

namespace Message

def toJson (m : Message) : Json := .obj [("content", .str m.content), ("role", .str m.role.name)]

def ofJson? : Json → Option Message
  | .obj members => do
    let content ← (members.lookup "content").bind Json.text?
    let role ← ((members.lookup "role").bind Json.caseName?).bind Role.ofName?
    return ⟨content, role⟩
  | .arr [content, role] => do
    let content ← content.text?
    let role ← role.caseName?.bind Role.ofName?
    return ⟨content, role⟩
  | _ => none

end Message

inductive OpenAiModel where
  | gpt4o
  | gpt4oMini
  | o3Mini
  | o4Mini
deriving DecidableEq, Repr

namespace OpenAiModel

def all : List OpenAiModel := [.gpt4o, .gpt4oMini, .o3Mini, .o4Mini]

def key : OpenAiModel → String
  | .gpt4o => "gpt4o"
  | .gpt4oMini => "gpt4o-mini"
  | .o3Mini => "o3-mini"
  | .o4Mini => "o4-mini"

def ofKey? (key : String) : Option OpenAiModel := all.find? fun m => m.key = key

def name : OpenAiModel → String
  | .gpt4o => "gpt-4o"
  | .gpt4oMini => "gpt-4o-mini"
  | .o3Mini => "o3-mini"
  | .o4Mini => "o4-mini"

end OpenAiModel

inductive Model where
  | openAi (model : OpenAiModel)
  | custom (name : String)
deriving DecidableEq, Repr

namespace Model

def name : Model → String
  | .openAi m => m.name
  | .custom n => n

def toJson : Model → Json
  | .openAi m => .obj [("open_ai", .str m.key)]
  | .custom n => .obj [("custom", .str n)]

def ofJson? : Json → Option Model
  | .obj [(kind, value)] =>
    if kind = "open_ai" then (value.caseName?.bind OpenAiModel.ofKey?).map .openAi
    else if kind = "custom" then value.text?.map .custom
    else none
  | _ => none

end Model

end NaturalFunctions
