import NaturalFunctions.Schema.Basic
import NaturalFunctions.Json.Printer

namespace NaturalFunctions

inductive Block where
  | heading (text : String)
  | line (text : String)
  | entry (key value : String)
  | bullet (text : String)
  | json (text : String)
  | blank
deriving DecidableEq, Repr

namespace Block

def schema (s : Schema) : Block := .json s.text

def render : Block → String
  | .heading t => "## " ++ t ++ "\n"
  | .line t => t ++ "\n"
  | .entry k v => "**" ++ k ++ "**: " ++ v ++ "\n"
  | .bullet t => "- " ++ t ++ "\n"
  | .json t => "```json\n" ++ t ++ "\n```\n"
  | .blank => "\n"

def renderAll (blocks : List Block) : String := String.join (blocks.map render)

end Block

end NaturalFunctions
