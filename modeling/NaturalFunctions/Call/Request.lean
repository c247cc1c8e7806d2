import NaturalFunctions.Prompt.Template

namespace NaturalFunctions

structure Request where
  prompt : Prompt
  context : Option Context
  model : Model
  schema : Option Schema
  fieldHint : Option String

namespace Request

def linesFrom (before : List Char) : List Char → List String
  | [] => if before.isEmpty then [] else [String.ofList before.reverse]
  | '\n' :: rest =>
    let line := match before with
      | '\r' :: kept => kept
      | kept => kept
    String.ofList line.reverse :: linesFrom [] rest
  | c :: rest => linesFrom (c :: before) rest

def lines (text : String) : List String := linesFrom [] text.toList

def instructions (request : Request) : Option (List Block) :=
  match request.schema, request.fieldHint with
  | some schema, _ => some [.heading "Response format",
      .line "Respond with a single JSON value that conforms to this JSON Schema:",
      .schema schema]
  | none, some hint => some (.heading "Response format" ::
      .line "Respond with a single JSON value shaped like one of:" :: (lines hint).map .bullet)
  | none, none => none

def messages (request : Request) : List Message :=
  (match request.instructions with
    | some blocks => [⟨Block.renderAll blocks, .system⟩]
    | none => []) ++
    (match request.context with
      | some context => context.messages
      | none => []) ++
    request.prompt.messages

end Request

end NaturalFunctions
