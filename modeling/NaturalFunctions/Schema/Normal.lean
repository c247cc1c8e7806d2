import NaturalFunctions.Schema.Basic

/-!
Reduction of a raw schema to its structural core. Every node keeps seven keywords at most, a node
with a combinator loses its type, and text in the byte format becomes a number.
-/

namespace NaturalFunctions.Schema

inductive Keyword where
  | type
  | items
  | combinator
  | properties
  | required
deriving DecidableEq, Repr

def Keyword.ofKey? (key : String) : Option Keyword :=
  if key = "type" then some .type
  else if key = "items" then some .items
  else if key = "allOf" ∨ key = "anyOf" ∨ key = "oneOf" then some .combinator
  else if key = "properties" then some .properties
  else if key = "required" then some .required
  else none

def hasCombinator (members : List (String × Json)) : Bool :=
  members.any fun member => Keyword.ofKey? member.1 = some .combinator

def isByteText (members : List (String × Json)) : Bool :=
  members.lookup "format" = some (.str "byte") && members.lookup "type" = some (.str "string")

mutual

def normalize : Json → Json
  | .obj members => .obj (normalizeMembers (hasCombinator members) (isByteText members) members)
  | tree => tree

def normalizeMembers (combined byte : Bool) : List (String × Json) → List (String × Json)
  | [] => []
  | (key, value) :: rest =>
    match Keyword.ofKey? key with
    | none => normalizeMembers combined byte rest
    | some .required => (key, value) :: normalizeMembers combined byte rest
    | some .type =>
      if combined then normalizeMembers combined byte rest
      else (key, if byte then .str "number" else value) :: normalizeMembers combined byte rest
    | some .items =>
      match value with
      | .arr items => (key, .arr (normalizeItems items)) :: normalizeMembers combined byte rest
      | item => (key, normalize item) :: normalizeMembers combined byte rest
    | some .combinator =>
      match value with
      | .arr branches => (key, .arr (normalizeItems branches)) :: normalizeMembers combined byte rest
      | _ => normalizeMembers combined byte rest
    | some .properties =>
      match value with
      | .obj properties =>
        (key, .obj (normalizeProperties properties)) :: normalizeMembers combined byte rest
      | _ => normalizeMembers combined byte rest

def normalizeItems : List Json → List Json
  | [] => []
  | item :: rest => normalize item :: normalizeItems rest

def normalizeProperties : List (String × Json) → List (String × Json)
  | [] => []
  | (name, value) :: rest => (name, normalize value) :: normalizeProperties rest

end

end NaturalFunctions.Schema
