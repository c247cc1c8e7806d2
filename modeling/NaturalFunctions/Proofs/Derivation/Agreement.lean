import NaturalFunctions.Json.Printer
import NaturalFunctions.Proofs.Derivation.DescriptorOutline
import NaturalFunctions.Proofs.Derivation.TypeOutline
import NaturalFunctions.Types.ArenaModel
import NaturalFunctions.Types.OpenApi

namespace NaturalFunctions

section Shapes

variable (defs : Definitions) (attached : List (String × Schema))

/-- The same top over related parts. A reference meets a definition of its name that has a body and
carries the schema attached to the name. -/
inductive Alike (R : TypeId → Descriptor → Prop) : TypeShape → Descriptor → Prop
  | primitive (kind : PrimitiveKind) : Alike R (.primitive kind) (.primitive kind)
  | json : Alike R .json .json
  | error : Alike R .error .error
  | other (name name' : String) : Alike R (.other name) (.other name')
  | array {element : TypeId} {element' : Descriptor} (h : R element element') :
      Alike R (.array element) (.array element')
  | tuple {members : List TypeId} {members' : List Descriptor}
      (h : List.Forall₂ R members members') : Alike R (.tuple members) (.tuple members')
  | union {members : List TypeId} {members' : List Descriptor}
      (h : List.Forall₂ R members members') : Alike R (.union members) (.union members')
  | record {fields : List (RecordField TypeId)} {fields' : List (RecordField Descriptor)}
      (h : List.Forall₂ (fun field field' => field.name = field'.name ∧
        field.optional = field'.optional ∧ R field.type field'.type) fields fields') :
      Alike R (.record fields) (.record fields')
  | reference {name : String} {target : TypeId} {i : Nat} {body : Descriptor}
      (hn : defs.name i = name) (hb : defs.body? i = some body) (hr : R target body)
      (hs : defs.schema? i = attached.lookup name) :
      Alike R (.reference name target) (.reference i)

def SameShape (model : SemanticModel) (ty : TypeId) (type : Descriptor) : Prop :=
  ∃ R : TypeId → Descriptor → Prop,
    (∀ t r, R t r → Alike defs attached R (model.shape t) r) ∧ R ty type

end Shapes

namespace SemanticModel

variable (model : SemanticModel) (attached : List (String × Schema))

def reads (ty : TypeId) : List TypeId :=
  match model.shape ty with
  | .array element => [element]
  | .tuple members => members
  | .union members => members
  | .reference name target => if attached.lookup name = none then [target] else []
  | _ => []

def ReadsRecord (ty : TypeId) : Prop :=
  ∃ record fields, Relation.ReflTransGen (fun a b => b ∈ model.reads attached a) ty record ∧
    model.shape record = .record fields

theorem readsRecord_of_read {ty part : TypeId} (hp : part ∈ model.reads attached ty)
    (h : model.ReadsRecord attached part) : model.ReadsRecord attached ty := by
  obtain ⟨record, fields, hr, hs⟩ := h
  exact ⟨record, fields, hr.head hp, hs⟩

theorem not_readsRecord_of_closed {tys : List TypeId} {ty : TypeId} (h : ty ∈ tys)
    (hread : ∀ t ∈ tys, ∀ part ∈ model.reads attached t, part ∈ tys)
    (hshape : ∀ t ∈ tys, ∀ fields, model.shape t ≠ .record fields) :
    ¬ model.ReadsRecord attached ty := by
  rintro ⟨record, fields, hr, hs⟩
  have hmem : record ∈ tys := by
    clear hs
    induction hr with
    | refl => exact h
    | tail _ hstep ih => exact hread _ ih _ hstep
  exact hshape record hmem fields hs

end SemanticModel

variable {model : SemanticModel} {mapper : StructuralMapper} {attached : List (String × Schema)}
  {defs : Definitions} {R : TypeId → Descriptor → Prop}

theorem descriptor_within_type {ty : TypeId} {type : Descriptor}
    (h : Alike defs attached R (model.shape ty) type) :
    (defs.outline type).Within (fun r t => R t r) (model.outline mapper attached ty) := by
  generalize hs : model.shape ty = shape at h
  unfold SemanticModel.outline
  cases h with
  | primitive kind => simpa [hs, Definitions.outline] using .known
  | json => simpa [hs, Definitions.outline] using .known
  | error => exact .silent
  | other name name' => exact .silent
  | array h => simpa [hs, Definitions.outline] using .array h
  | tuple h => simpa [hs, Definitions.outline] using .tuple h.flip
  | union h => simpa [hs, Definitions.outline] using .union h.flip
  | record h => exact .silent
  | reference hn hb hr hl =>
    rename_i name target i body
    cases hd : defs.schema? i with
    | some schema => simpa [hs, Definitions.outline, hd, hl ▸ hd] using .known
    | none => simpa [hs, Definitions.outline, hd, hb, hl ▸ hd] using .same hr

theorem type_within_descriptor {ty : TypeId} {type : Descriptor}
    (h : Alike defs attached R (model.shape ty) type) (hn : ¬ model.ReadsRecord attached ty) :
    (model.outline mapper attached ty).Within
      (fun t r => ¬ model.ReadsRecord attached t ∧ R t r) (defs.outline type) := by
  have hparts : ∀ part ∈ model.reads attached ty, ¬ model.ReadsRecord attached part :=
    fun part hp hr => hn (model.readsRecord_of_read attached hp hr)
  unfold SemanticModel.reads at hparts
  generalize hs : model.shape ty = shape at h
  unfold SemanticModel.outline
  rw [hs] at hparts ⊢
  cases h with
  | primitive kind => exact .known
  | json => exact .known
  | error => exact .silent
  | other name name' => exact .silent
  | array h => exact .array ⟨hparts _ (List.mem_singleton_self _), h⟩
  | tuple h => exact .tuple ((List.forall₂_and_left _ _).mpr ⟨hparts, h⟩)
  | union h => exact .union ((List.forall₂_and_left _ _).mpr ⟨hparts, h⟩)
  | record h => exact absurd ⟨ty, _, .refl, hs⟩ hn
  | reference hd hb hr hl =>
    rename_i name target i body
    cases ha : attached.lookup name with
    | some schema => simpa [Definitions.outline, hl, ha] using .known
    | none =>
      have ht : ¬ model.ReadsRecord attached target := hparts target (by simp [ha])
      simpa [Definitions.outline, hl, ha, hb] using .same ⟨ht, hr⟩

theorem derive_of_definitions_derive {ty : TypeId} {type : Descriptor} {schema : Schema}
    (h : SameShape defs attached model ty type) (hd : defs.derive type = some schema) :
    model.derive mapper attached ty = some schema := by
  obtain ⟨R, hR, hr⟩ := h
  rw [Definitions.derive_eq_some_iff] at hd
  rw [SemanticModel.derive_eq_some_iff]
  exact hd.transfer (fun r t => descriptor_within_type ∘ hR t r) hr

theorem definitions_derive_of_derive {ty : TypeId} {type : Descriptor} {schema : Schema}
    (h : SameShape defs attached model ty type) (hn : ¬ model.ReadsRecord attached ty)
    (hd : model.derive mapper attached ty = some schema) : defs.derive type = some schema := by
  obtain ⟨R, hR, hr⟩ := h
  rw [SemanticModel.derive_eq_some_iff] at hd
  rw [Definitions.derive_eq_some_iff]
  exact hd.transfer (fun t r ht => type_within_descriptor (hR t r ht.2) ht.1) ⟨hn, hr⟩

/-- Whatever the run time derives the compile time derives as well, with any mapper of records.
Where no record is read the two agree on failure too, and the texts of two answers are one. -/
theorem derivations_agree (arena : TypeArena) (mapper : StructuralMapper)
    (attached : List (String × Schema)) (defs : Definitions) (ty : TypeId) (type : Descriptor)
    (h : SameShape defs attached arena.model ty type) :
    (∀ schema, defs.derive type = some schema →
      arena.model.derive mapper attached ty = some schema) ∧
    (¬ arena.model.ReadsRecord attached ty →
      arena.model.derive mapper attached ty = defs.derive type) ∧
    (∀ schema schema', arena.model.derive mapper attached ty = some schema →
      defs.derive type = some schema' → schema.text = schema'.text) := by
  have hrun : ∀ schema, defs.derive type = some schema →
      arena.model.derive mapper attached ty = some schema :=
    fun schema => derive_of_definitions_derive h
  refine ⟨hrun, ?_, ?_⟩
  · intro hn
    ext schema
    exact ⟨definitions_derive_of_derive h hn, hrun schema⟩
  · intro schema schema' hd hd'
    obtain rfl : schema = schema' := Option.some.inj (hd.symm.trans (hrun schema' hd'))
    rfl

def treeArena : TypeArena :=
  ((((((TypeArena.empty.add (.named "Tree" none) (by decide)).add (.primitive .string)
    (by decide)).add (.array 2) (by decide)).add (.record [⟨"size", 3, false⟩]) (by decide)).add
    (.named "Leaf" (some 5)) (by decide)).add (.union [3, 4, 6]) (by decide)).define 2 7 (by decide)

def treeBody : Descriptor := .union [.primitive .string, .array (.reference 0), .reference 1]

def leafBody : Descriptor := .record [⟨"size", .primitive .string, false⟩]

def treeSchemas : List (String × Schema) :=
  [("Leaf", .obj [("type", .str "object")]), ("Tree", .obj [("anyOf", .arr [])])]

def treeDefinitions : Definitions :=
  [⟨"Tree", some treeBody, treeSchemas.lookup "Tree"⟩,
    ⟨"Leaf", some leafBody, treeSchemas.lookup "Leaf"⟩]

theorem derivations_agree_tree :
    SameShape treeDefinitions treeSchemas treeArena.model 7 treeBody ∧
    ¬ treeArena.model.ReadsRecord treeSchemas 7 ∧
    treeArena.model.derive treeArena.openApiMapper treeSchemas 7 = treeDefinitions.derive treeBody ∧
    treeArena.model.derive treeArena.openApiMapper treeSchemas 7 = some (Schema.anyOf
      [Schema.primitive .string, Schema.arrayOf (.obj [("anyOf", .arr [])]),
        .obj [("type", .str "object")]]) := by
  have hshape : SameShape treeDefinitions treeSchemas treeArena.model 7 treeBody := by
    refine ⟨fun t r => (t, r) ∈ [(2, .reference 0), (3, .primitive .string),
      (4, .array (.reference 0)), (5, leafBody), (6, .reference 1), (7, treeBody)], ?_, by simp⟩
    intro t r hr
    simp only [List.mem_cons, List.not_mem_nil, Prod.mk.injEq, or_false] at hr
    rcases hr with ⟨rfl, rfl⟩ | ⟨rfl, rfl⟩ | ⟨rfl, rfl⟩ | ⟨rfl, rfl⟩ | ⟨rfl, rfl⟩ | ⟨rfl, rfl⟩
    · exact @Alike.reference _ _ _ "Tree" 7 0 treeBody rfl rfl (by simp) rfl
    · exact .primitive .string
    · exact .array (by simp)
    · exact .record (.cons (by simp) .nil)
    · exact @Alike.reference _ _ _ "Leaf" 5 1 leafBody rfl rfl (by simp) rfl
    · exact .union (.cons (by simp) (.cons (by simp) (.cons (by simp) .nil)))
  have hnone : ¬ treeArena.model.ReadsRecord treeSchemas 7 := by
    refine treeArena.model.not_readsRecord_of_closed treeSchemas
      (show 7 ∈ [2, 3, 4, 6, 7] by decide) (by decide) ?_
    simp [TypeArena.model, TypeArena.node, treeArena, TypeArena.define, TypeArena.add,
      TypeArena.empty, TypeNode.shape, TypeNode.withTarget]
  have hderive : treeDefinitions.derive treeBody = some (Schema.anyOf
      [Schema.primitive .string, Schema.arrayOf (.obj [("anyOf", .arr [])]),
        .obj [("type", .str "object")]]) := by
    rw [Definitions.derive_eq_some_iff]
    refine .union rfl rfl ?_
    simp only [List.zip_cons_cons, List.zip_nil_right, List.forall_mem_cons]
    exact ⟨.known rfl, .array rfl (.known rfl), .known rfl, by simp⟩
  obtain ⟨hrun, hboth, _⟩ := derivations_agree treeArena treeArena.openApiMapper treeSchemas
    treeDefinitions 7 treeBody hshape
  exact ⟨hshape, hnone, hboth hnone, hrun _ hderive⟩

end NaturalFunctions
