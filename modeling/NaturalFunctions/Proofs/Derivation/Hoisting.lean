import NaturalFunctions.Proofs.Derivation.TypeOutline
import NaturalFunctions.Proofs.Types.Members

namespace NaturalFunctions

variable {ν : Type}

/-- The second outline shows of some nodes no more than the schema that the first one gives them. -/
def Shortens (outline outline' : ν → Outline ν) : Prop :=
  ∀ node, outline' node = outline node ∨ ∃ schema, outline' node = .known (some schema) ∧
    ∀ given, Describes outline node given ↔ given = schema

namespace Shortens

variable {outline outline' : ν → Outline ν} {node : ν} {schema : Schema}

theorem describes_of_describes (hs : Shortens outline outline')
    (h : Describes outline' node schema) : Describes outline node schema := by
  have hsame {node : ν} (hn : ∀ schema, outline' node ≠ .known (some schema)) :
      outline node = outline' node := by
    rcases hs node with heq | ⟨schema, hk, -⟩
    · exact heq.symm
    · exact absurd hk (hn schema)
  induction h with
  | @known node schema h =>
    rcases hs node with heq | ⟨given, hk, hg⟩
    · exact .known (heq ▸ h)
    · obtain rfl : schema = given := by simpa [h] using hk
      exact (hg schema).mpr rfl
  | array h _ ih => exact .array ((hsame (by simp [h])).trans h) ih
  | tuple h hl _ ih => exact .tuple ((hsame (by simp [h])).trans h) hl ih
  | union h hl _ ih => exact .union ((hsame (by simp [h])).trans h) hl ih
  | same h _ ih => exact .same ((hsame (by simp [h])).trans h) ih

theorem describes (hs : Shortens outline outline') (h : Describes outline node schema) :
    Describes outline' node schema := by
  have hnode {node : ν} {schema : Schema} (hd : Describes outline node schema)
      (hsame : outline' node = outline node → Describes outline' node schema) :
      Describes outline' node schema := by
    rcases hs node with heq | ⟨given, hk, hg⟩
    · exact hsame heq
    · exact .known ((hg schema).mp hd ▸ hk)
  induction h with
  | known h => exact hnode (.known h) fun heq => .known (heq.trans h)
  | array h he ih => exact hnode (.array h he) fun heq => .array (heq.trans h) ih
  | tuple h hl hm ih => exact hnode (.tuple h hl hm) fun heq => .tuple (heq.trans h) hl ih
  | union h hl hm ih => exact hnode (.union h hl hm) fun heq => .union (heq.trans h) hl ih
  | same h ht ih => exact hnode (.same h ht) fun heq => .same (heq.trans h) ih

end Shortens

namespace SemanticModel

variable (model : SemanticModel) (mapper : StructuralMapper) (attached : List (String × Schema))
  {attached' : List (String × Schema)} {types : List TypeId}

def SoleBearer (ty : TypeId) : Prop :=
  ∀ name, model.Bears name ty → ∀ other, model.Bears name other → other = ty

/-- Each name shows what it showed before, or the schema of the only type that bears it. -/
def Hoisted (attached' : List (String × Schema)) : Prop :=
  ∀ name, attached'.lookup name = attached.lookup name ∨
    ∃ ty schema, model.Bears name ty ∧ model.SoleBearer ty ∧
      model.derive mapper attached ty = some schema ∧ attached'.lookup name = some schema

def attachDerived (table : List (String × Schema)) (ty : TypeId) : List (String × Schema) :=
  match model.shape ty, model.derive mapper attached ty with
  | .reference name _, some schema => Table.put name schema table
  | _, _ => table

def hoist (types : List TypeId) : List (String × Schema) :=
  types.foldl (model.attachDerived mapper attached) attached

variable {model mapper attached}

theorem shortens_of_hoisted (h : model.Hoisted mapper attached attached') :
    Shortens (model.outline mapper attached) (model.outline mapper attached') := by
  intro ty
  cases hs : model.shape ty with
  | reference name target =>
    rcases h name with heq | ⟨bearer, schema, hb, hsole, hd, hl⟩
    · left
      simp only [outline, hs, heq]
    · obtain rfl := hsole name hb ty ⟨target, hs⟩
      refine Or.inr ⟨schema, by simp only [outline, hs, hl], fun given => ?_⟩
      rw [← derive_eq_some_iff, hd, Option.some_inj, eq_comm]
  | _ => left; simp only [outline, hs]

theorem derive_of_hoisted (h : model.Hoisted mapper attached attached') (ty : TypeId) :
    model.derive mapper attached' ty = model.derive mapper attached ty := by
  have hs := shortens_of_hoisted h
  ext schema
  rw [derive_eq_some_iff, derive_eq_some_iff]
  exact ⟨hs.describes_of_describes, hs.describes⟩

theorem Hoisted.attachDerived {ty : TypeId} (hty : model.SoleBearer ty)
    (h : model.Hoisted mapper attached attached') :
    model.Hoisted mapper attached (model.attachDerived mapper attached attached' ty) := by
  unfold SemanticModel.attachDerived
  split
  · rename_i name target schema hs hd
    intro other
    by_cases hn : other = name
    · subst hn
      exact Or.inr ⟨ty, schema, ⟨target, hs⟩, hty, hd, Table.lookup_put_self other schema attached'⟩
    · rw [Table.lookup_put_of_ne schema hn]
      exact h other
  · exact h

theorem hoisted_hoist (h : ∀ ty ∈ types, model.SoleBearer ty) :
    model.Hoisted mapper attached (model.hoist mapper attached types) := by
  have hfold : ∀ table, model.Hoisted mapper attached table →
      model.Hoisted mapper attached (types.foldl (model.attachDerived mapper attached) table) := by
    induction types with
    | nil => exact fun _ => id
    | cons ty rest ih =>
      obtain ⟨hty, hrest⟩ := List.forall_mem_cons.mp h
      exact fun table ht => ih hrest _ (ht.attachDerived hty)
  exact hfold attached fun _ => Or.inl rfl

end SemanticModel

end NaturalFunctions
