import NaturalFunctions.Call.Request
import NaturalFunctions.Descriptor.Derivation
import NaturalFunctions.Descriptor.Listing
import NaturalFunctions.Schema.Native

namespace NaturalFunctions

inductive Companion where
  | none
  | context (context : Context)
  | model (model : Model)

abbrev Service (σ : Type) := Request → σ → Except Failure Json × σ

structure Client where
  defaultModel : Option Model

namespace Client

def context? : Companion → Option Context
  | .context c => some c
  | _ => Option.none

def model? (client : Client) : Companion → Option Model
  | .model m => some m
  | _ => client.defaultModel

def prepare (client : Client) (defs : Definitions) (prompt : Prompt) (companion : Companion)
    (target : Descriptor) : Except Failure Request :=
  match client.model? companion with
  | none => .error .unresolvedModel
  | some model =>
    let answer := defs.withoutError target
    let schema := defs.resolveSchema answer
    .ok
      { prompt := prompt
        context := context? companion
        model := model
        schema := schema
        fieldHint := if schema.isNone then defs.fieldHint? answer else none }

def call {σ : Type} (client : Client) (service : Service σ) (defs : Definitions) (prompt : Prompt)
    (companion : Companion) (target : Descriptor) (state : σ) : Except Failure Json × σ :=
  match client.prepare defs prompt companion target with
  | .ok request => service request state
  | .error failure => (.error failure, state)

def callAs {σ : Type} (client : Client) (service : Service σ) (defs : Definitions)
    (prompt : Prompt) (companion : Companion) (target : Descriptor) (type : Native) (state : σ) :
    Except Failure Json × σ :=
  match client.call service defs prompt companion target state with
  | (.ok value, state) =>
    match type.decode? value with
    | some value => (.ok value, state)
    | none => (.error (.serialization .unsuited), state)
  | (.error failure, state) => (.error failure, state)

end Client

end NaturalFunctions
