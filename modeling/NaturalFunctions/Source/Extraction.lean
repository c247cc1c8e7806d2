import NaturalFunctions.Source.Document
import NaturalFunctions.Types.Derivation
import NaturalFunctions.Table

namespace NaturalFunctions

abbrev SchemaCache := List (String × Schema)

structure Extraction where
  visited : List TypeId
  cache : SchemaCache

namespace Extraction

def empty : Extraction := ⟨[], []⟩

def visit (model : SemanticModel) (mapper : StructuralMapper) (attached : List (String × Schema))
    (state : Extraction) (ty : TypeId) : Extraction where
  visited := ty :: state.visited
  cache :=
    match model.shape ty with
    | .reference name _ =>
      -- an earlier derivation leaves nothing in progress, see `SemanticModel.inProgress_eq_nil`
      match model.derive mapper attached ty with
      | some schema => Table.put name schema state.cache
      | none => state.cache
    | _ => state.cache

def walk (model : SemanticModel) (mapper : StructuralMapper) (attached : List (String × Schema))
    (state : Extraction) : List TypeId → Extraction
  | [] => state
  | ty :: rest =>
    if _hv : ty ∈ state.visited then walk model mapper attached state rest
    else
      walk model mapper attached (visit model mapper attached state ty)
        ((model.shape ty).next ++ rest)
termination_by pending => (unseen model.inner state.visited, pending.length)
decreasing_by
  · exact Prod.Lex.right _ (by simp)
  · by_cases hn : (model.shape ty).next = []
    · rcases Nat.lt_or_eq_of_le (unseen_cons_le model.inner state.visited ty) with hl | hl
      · exact Prod.Lex.left _ _ hl
      · simp only [visit, hl, hn, List.nil_append, List.length_cons]
        exact Prod.Lex.right _ (Nat.lt_succ_self _)
    · exact Prod.Lex.left _ _ (unseen_cons_lt (model.mem_inner ty hn) _hv)

def extract (model : SemanticModel) (mapper : StructuralMapper) (attached : List (String × Schema))
    (state : Extraction) (function : FunctionDef) : Extraction :=
  match function.returns.bind ReturnClause.type with
  | some type => walk model mapper attached state [type]
  | none => state

end Extraction

end NaturalFunctions
