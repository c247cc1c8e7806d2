import NaturalFunctions.Failure
import NaturalFunctions.Prompt.Markdown
import NaturalFunctions.Prompt.Message
import NaturalFunctions.Text.Decimal

namespace NaturalFunctions

structure Prompt where
  strings : List String
  insertions : List Json

namespace Prompt

def new (strings : List String) (insertions : List Json) : Except Failure Prompt :=
  if strings.length = insertions.length + 1 then .ok ⟨strings, insertions⟩
  else .error (.invalid ("prompt template has " ++ decimal strings.length ++ " strings for " ++
    decimal insertions.length ++ " insertions"))

def ofText (text : String) : Prompt := ⟨[text], []⟩

def ofJson? : Json → Option Prompt
  | .obj members => do
    let strings ← members.lookup "strings"
    let insertions ← members.lookup "insertions"
    read strings insertions
  | .arr [strings, insertions] => read strings insertions
  | _ => none
where
  read : Json → Json → Option Prompt
    | .arr strings, .arr insertions => (strings.mapM Json.text?).map (⟨·, insertions⟩)
    | _, _ => none

def toJson (p : Prompt) : Json :=
  .obj [("strings", Json.ofStrings p.strings), ("insertions", .arr p.insertions)]

def splice : List String → List Json → List String
  | [], _ => []
  | s :: strings, [] => s :: splice strings []
  | s :: strings, x :: insertions => s :: x.plain :: splice strings insertions

def render (p : Prompt) : String := String.join (splice p.strings p.insertions)

def messages (p : Prompt) : List Message := [⟨p.render, .user⟩]

end Prompt

abbrev Context := List (String × Json)

namespace Context

def empty : Context := []

def put (context : Context) (key : String) (value : Json) : Context := Table.put key value context

def toJson (context : Context) : Json := .obj context

def ofJson? : Json → Option Context
  | .obj members => some members
  | _ => none

def blocks (context : Context) : List Block :=
  .heading "Context" :: context.map fun (key, value) => .entry key value.plain

def messages (context : Context) : List Message :=
  match context with
  | [] => []
  | facts => [⟨Block.renderAll (blocks facts), .system⟩]

end Context

end NaturalFunctions
