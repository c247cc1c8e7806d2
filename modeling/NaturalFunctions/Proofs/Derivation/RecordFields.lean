import NaturalFunctions.Proofs.Derivation.Components
import NaturalFunctions.Proofs.Derivation.TypeOutline
import NaturalFunctions.Proofs.Schema.NormalForm
import NaturalFunctions.Types.ArenaModel

namespace NaturalFunctions

namespace Schema

def recordOf (properties : List (String × Schema)) (required : List String) : Schema :=
  .obj ((if properties.isEmpty then [] else [("properties", .obj properties)]) ++
    (if required.isEmpty then [] else [("required", Json.ofStrings required)]) ++
    [("type", .str "object")])

def reread (tree : Json) : Option Schema := (readBack tree).map normalize

variable {tree : Json} {schema : Schema} {trees : List Json} {schemas : List Schema}

theorem readable_of_reread (h : reread tree = some schema) : Readable tree := by
  obtain ⟨written, hw, -⟩ := Option.map_eq_some_iff.mp h
  exact ⟨written, hw⟩

theorem reread_primitive (kind : PrimitiveKind) :
    reread (TypeArena.primitiveComponent kind) = some (primitive kind) := by
  cases kind <;> rfl

theorem reread_list (h : reread tree = some schema) :
    reread (.obj [("items", tree), ("type", .str "array")]) = some (arrayOf schema) := by
  obtain ⟨written, hw, rfl⟩ := Option.map_eq_some_iff.mp h
  rw [reread, readBack_list hw]
  cases written with
  | arr => cases tree <;> simp [readBack] at hw
  | _ => rfl

theorem readItems_of_reread
    (h : List.Forall₂ (fun tree schema => reread tree = some schema) trees schemas) :
    ∃ written, readItems trees = some written ∧ normalizeItems written = schemas := by
  induction h with
  | nil => exact ⟨[], by rw [readItems], by rw [normalizeItems]⟩
  | cons hfirst _ ih =>
    obtain ⟨first, hf, rfl⟩ := Option.map_eq_some_iff.mp hfirst
    obtain ⟨others, ho, rfl⟩ := ih
    exact ⟨first :: others, by simp [readItems, hf, ho], by rw [normalizeItems]⟩

theorem reread_tuple {length : Nat} (hl : length < 4294967296)
    (h : List.Forall₂ (fun tree schema => reread tree = some schema) trees schemas) :
    reread (.obj [("items", .arr trees), ("maxItems", Json.ofNat length),
      ("minItems", Json.ofNat length), ("type", .str "array")]) = some (tupleOf schemas) := by
  obtain ⟨written, hw, rfl⟩ := readItems_of_reread h
  rw [reread, readBack_tuple hl hw]
  rfl

theorem lookup_of_readNamed {members written : List (String × Json)}
    (h : readNamed members = some written) (name : String) :
    (normalizeProperties written).lookup name = (members.lookup name).bind reread := by
  induction members generalizing written with
  | nil =>
    cases h
    rfl
  | cons member rest ih =>
    obtain ⟨key, value⟩ := member
    obtain ⟨first, hfirst, h⟩ := Option.bind_eq_some_iff.mp h
    obtain ⟨others, hothers, h⟩ := Option.bind_eq_some_iff.mp h
    cases h
    rw [normalizeProperties, List.lookup_cons, List.lookup_cons]
    split
    · rw [Option.bind_some, reread, hfirst, Option.map_some]
    · exact ih hothers

theorem reread_recordComponent {fields : List (RecordField Schema)}
    (h : ∀ field ∈ fields, Readable field.type) :
    let entries := Table.ofList (fields.map fun field => (field.name, field.type))
    ∃ properties, reread (TypeArena.recordComponent fields) =
        some (recordOf properties (Table.keySet (TypeArena.requiredNames fields))) ∧
      properties.map Prod.fst = entries.map Prod.fst ∧
      ∀ name, properties.lookup name = (entries.lookup name).bind reread := by
  intro entries
  have hproperties : ∀ property ∈ entries, Readable property.2 := by
    intro property hp
    obtain ⟨field, hf, rfl⟩ := List.mem_map.mp (Table.mem_of_mem_ofList hp)
    exact h field hf
  obtain ⟨written, hw⟩ := exists_readNamed hproperties
  have hkeys : (normalizeProperties written).map Prod.fst = entries.map Prod.fst := by
    rw [normalizeProperties_eq_map, List.map_map]
    exact keys_of_readNamed hw
  refine ⟨normalizeProperties written, ?_, hkeys, lookup_of_readNamed hw⟩
  rw [reread, TypeArena.readBack_recordComponent hw, ← Table.isEmpty_keySet]
  generalize Table.keySet (TypeArena.requiredNames fields) = names
  rcases written with _ | ⟨⟨name, value⟩, rest⟩ <;> cases names <;> rfl

end Schema

namespace TypeArena

open Schema

inductive Inline (arena : TypeArena) : TypeId → Prop
  | primitive {ty : TypeId} {kind : PrimitiveKind} (h : arena.node ty = .primitive kind) :
      Inline arena ty
  | array {ty element : TypeId} (h : arena.node ty = .array element)
      (he : Inline arena element) : Inline arena ty
  | tuple {ty : TypeId} {members : List TypeId} (h : arena.node ty = .tuple members)
      (hl : members.length < 4294967296) (hm : ∀ member ∈ members, Inline arena member) :
      Inline arena ty
  | record {ty : TypeId} {fields : List (RecordField TypeId)} (h : arena.node ty = .record fields)
      (hf : ∀ field ∈ fields, Inline arena field.type) : Inline arena ty

variable {arena : TypeArena} {attached : List (String × Schema)} {ty record : TypeId}
variable {fields : List (RecordField TypeId)}

theorem outline_record (h : arena.node record = .record fields) :
    arena.model.outline arena.openApiMapper attached record =
      .known (reread (arena.component record)) := by
  simp [SemanticModel.outline, model, h, TypeNode.shape, openApiMapper, reread]

theorem exists_reread_record (h : arena.node record = .record fields)
    (hf : ∀ field ∈ fields, Readable (arena.component field.type)) :
    let entries := Table.ofList (fields.map fun field => (field.name, arena.component field.type))
    ∃ properties, reread (arena.component record) =
        some (recordOf properties (Table.keySet (requiredNames fields))) ∧
      properties.map Prod.fst = entries.map Prod.fst ∧
      ∀ name, properties.lookup name = (entries.lookup name).bind reread := by
  intro entries
  have hrequired : requiredNames (fields.map (fieldComponent arena.component)) =
      requiredNames fields := by
    simp [requiredNames, List.filter_map, Function.comp_def, fieldComponent]
  have hentries : entries = Table.ofList ((fields.map (fieldComponent arena.component)).map
      fun field => (field.name, field.type)) := by
    rw [List.map_map]
    rfl
  rw [component_eq, h, hentries, ← hrequired]
  apply reread_recordComponent
  rwa [List.forall_mem_map]

theorem exists_reread_component (h : arena.Inline ty) :
    ∃ schema, reread (arena.component ty) = some schema ∧
      Describes (arena.model.outline arena.openApiMapper attached) ty schema := by
  induction h with
  | @primitive ty kind h =>
    have ho : arena.model.outline arena.openApiMapper attached ty =
        .known (some (primitive kind)) := by
      simp [SemanticModel.outline, model, h, TypeNode.shape]
    rw [component_eq, h]
    exact ⟨_, reread_primitive kind, .known ho⟩
  | @array ty element h _ ih =>
    have ho : arena.model.outline arena.openApiMapper attached ty = .array element := by
      simp [SemanticModel.outline, model, h, TypeNode.shape]
    obtain ⟨items, hr, hd⟩ := ih
    rw [component_eq, h]
    exact ⟨_, reread_list hr, .array ho hd⟩
  | @tuple ty members h hl _ ih =>
    have ho : arena.model.outline arena.openApiMapper attached ty = .tuple members := by
      simp [SemanticModel.outline, model, h, TypeNode.shape]
    obtain ⟨items, hlength, hitems⟩ := exists_zip ih
    have hr : List.Forall₂ (fun tree schema => reread tree = some schema)
        (members.map arena.component) items := by
      rw [List.forall₂_map_left_iff, List.forall₂_iff_zip]
      exact ⟨hlength, fun hp => (hitems _ hp).1⟩
    rw [component_eq, h]
    exact ⟨_, reread_tuple hl hr, .tuple ho hlength fun pair hp => (hitems pair hp).2⟩
  | @record ty fields h _ ih =>
    have hreadable : ∀ field ∈ fields, Readable (arena.component field.type) := by
      intro field hf
      obtain ⟨schema, hr, -⟩ := ih field hf
      exact readable_of_reread hr
    obtain ⟨properties, hr, -⟩ := exists_reread_record h hreadable
    exact ⟨_, hr, .known ((outline_record h).trans (congrArg _ hr))⟩

theorem mem_requiredNames {name : String} :
    name ∈ requiredNames fields ↔ ∃ field ∈ fields, field.name = name ∧ field.optional = false := by
  simp only [requiredNames, List.mem_map, List.mem_filter, Bool.not_eq_true']
  constructor
  · rintro ⟨field, ⟨hf, ho⟩, hname⟩
    exact ⟨field, hf, hname, ho⟩
  · rintro ⟨field, hf, hname, ho⟩
    exact ⟨field, ⟨hf, ho⟩, hname⟩

/-- A record of such fields is described by its field names, each with the schema that the type of
its last field has alone, and by the names of the fields that may not be left out. -/
theorem derive_record_fields (arena : TypeArena) (attached : List (String × Schema))
    (record : TypeId) (fields : List (RecordField TypeId)) (h : arena.node record = .record fields)
    (hf : ∀ field ∈ fields, arena.Inline field.type) :
    let derive := arena.model.derive arena.openApiMapper attached
    ∃ properties required, derive record = some (recordOf properties required) ∧
      (properties.map Prod.fst).Pairwise (· < ·) ∧
      (∀ name, name ∈ properties.map Prod.fst ↔ name ∈ fields.map RecordField.name) ∧
      (∀ before field after, fields = before ++ field :: after →
        (∀ later ∈ after, later.name ≠ field.name) →
        ∃ schema, properties.lookup field.name = some schema ∧ derive field.type = some schema) ∧
      required.Pairwise (· < ·) ∧
      ∀ name, name ∈ required ↔ ∃ field ∈ fields, field.name = name ∧ field.optional = false := by
  intro derive
  have hreadable : ∀ field ∈ fields, Readable (arena.component field.type) := by
    intro field hm
    obtain ⟨schema, hr, -⟩ := @exists_reread_component arena attached field.type (hf field hm)
    exact readable_of_reread hr
  obtain ⟨properties, hr, hkeys, hlookup⟩ := exists_reread_record h hreadable
  refine ⟨properties, Table.keySet (requiredNames fields), ?_, ?_, fun name => ?_, ?_,
    Table.pairwise_keySet _, fun name => Table.mem_keySet.trans mem_requiredNames⟩
  · exact (SemanticModel.derive_eq_some_iff _ _ _).mpr (.known ((outline_record h).trans
      (congrArg _ hr)))
  · rw [hkeys]
    exact Table.sorted_iff_keys.mp (Table.sorted_ofList _)
  · rw [hkeys, Table.mem_keys_ofList, List.map_map]
    rfl
  · rintro before field after rfl hlast
    obtain ⟨schema, hs, hd⟩ := exists_reread_component (hf field (by simp))
    refine ⟨schema, ?_, (SemanticModel.derive_eq_some_iff _ _ _).mpr hd⟩
    rw [hlookup, List.map_append, List.map_cons, Table.lookup_ofList_of_last (by simpa using hlast)]
    exact hs

def nestedArena : TypeArena :=
  (((((empty.add (.primitive .byte) (by decide)).add (.array 2) (by decide)).add
    (.primitive .string) (by decide)).add (.record [⟨"x", 2, false⟩, ⟨"y", 4, true⟩])
    (by decide)).add (.tuple [2, 5]) (by decide)).add
    (.record [⟨"b", 3, false⟩, ⟨"a", 4, true⟩, ⟨"a", 6, false⟩, ⟨"c", 5, true⟩]) (by decide)

theorem derive_record_fields_nested :
    let derive := nestedArena.model.derive nestedArena.openApiMapper []
    ∃ properties required, derive 7 = some (recordOf properties required) ∧
      properties.lookup "b" = some (arrayOf (primitive .byte)) ∧
      (∃ schema, properties.lookup "a" = some schema ∧ derive 6 = some schema) ∧
      "a" ∈ required ∧ "c" ∉ required := by
  intro derive
  have hbyte : nestedArena.Inline 2 := .primitive rfl
  have hbytes : nestedArena.Inline 3 := .array rfl hbyte
  have htext : nestedArena.Inline 4 := .primitive rfl
  have hinner : nestedArena.Inline 5 := .record rfl (by simp [hbyte, htext])
  have hpair : nestedArena.Inline 6 := .tuple rfl (by decide) (by simp [hbyte, hinner])
  obtain ⟨properties, required, hd, -, -, hlookup, -, hrequired⟩ :=
    derive_record_fields nestedArena [] 7
      [⟨"b", 3, false⟩, ⟨"a", 4, true⟩, ⟨"a", 6, false⟩, ⟨"c", 5, true⟩] rfl
      (by simp [hbytes, htext, hpair, hinner])
  obtain ⟨schema, hb, hschema⟩ := hlookup [] _ _ rfl (by decide)
  obtain ⟨pair, ha, hp⟩ := hlookup [_, _] _ _ rfl (by decide)
  have hnumbers : derive 3 = some (arrayOf (primitive .byte)) :=
    (SemanticModel.derive_eq_some_iff _ _ _).mpr (.array rfl (.known rfl))
  obtain rfl : schema = _ := Option.some.inj (hschema.symm.trans hnumbers)
  refine ⟨properties, required, hd, hb, ⟨pair, ha, hp⟩, (hrequired "a").mpr ?_, ?_⟩
  · exact ⟨⟨"a", 6, false⟩, by decide, rfl, rfl⟩
  · exact fun hc => absurd ((hrequired "c").mp hc) (by decide)

end TypeArena

end NaturalFunctions
