import NaturalFunctions.Proofs.Tables
import NaturalFunctions.Types.OpenApi

namespace NaturalFunctions.Schema

def Readable (tree : Json) : Prop := ∃ written, readBack tree = some written

def Facet.written? : Facet → Json → Option (Option Json)
  | .schema, .null => some none
  | .schema, tree => (readBack tree).map some
  | .schemas, .null => some none
  | .schemas, .arr items => (readItems items).map fun items => some (.arr items)
  | .schemas, _ => none
  | .positions, .null => some none
  | .positions, .arr items => (readItems items).map fun items => some (.arr items)
  | .positions, tree => (readBack tree).map some
  | .named, .obj properties => (readNamed properties).map fun properties =>
      if properties.isEmpty then none else some (.obj properties)
  | .named, _ => none
  | facet, tree => facet.read tree

variable {tree written : Json} {items items' : List Json} {members members' : List (String × Json)}

theorem readMembers_cons (member : String × Json) (rest : List (String × Json)) :
    readMembers (member :: rest) = ((facetOf member.1).written? member.2).bind fun written =>
      (readMembers rest).map fun others => (written.map (Prod.mk member.1)).toList ++ others := by
  obtain ⟨key, value⟩ := member
  rw [readMembers.eq_def]
  dsimp only [Option.bind_eq_bind, Option.pure_def]
  split
  all_goals
    simp only [Facet.written?, *]
    apply Option.bind_congr
    rintro (_ | kept) - <;> exact Option.map_eq_bind.symm

theorem exists_readItems (h : ∀ item ∈ items, Readable item) :
    ∃ written, readItems items = some written := by
  induction items with
  | nil => exact ⟨[], by rw [readItems]⟩
  | cons item rest ih =>
    obtain ⟨⟨first, hf⟩, hrest⟩ := List.forall_mem_cons.mp h
    obtain ⟨others, ho⟩ := ih hrest
    exact ⟨first :: others, by simp [readItems, hf, ho]⟩

theorem exists_readNamed (h : ∀ member ∈ members, Readable member.2) :
    ∃ written, readNamed members = some written := by
  induction members with
  | nil => exact ⟨[], by rw [readNamed]⟩
  | cons member rest ih =>
    obtain ⟨name, value⟩ := member
    obtain ⟨⟨first, hf⟩, hrest⟩ := List.forall_mem_cons.mp h
    obtain ⟨others, ho⟩ := ih hrest
    exact ⟨(name, first) :: others, by simp [readNamed, hf, ho]⟩

theorem keys_of_readNamed (h : readNamed members = some members') :
    members'.map Prod.fst = members.map Prod.fst := by
  induction members generalizing members' with
  | nil =>
    cases h
    rfl
  | cons member rest ih =>
    obtain ⟨first, -, h⟩ := Option.bind_eq_some_iff.mp h
    obtain ⟨others, hothers, h⟩ := Option.bind_eq_some_iff.mp h
    cases h
    exact congrArg (member.1 :: ·) (ih hothers)

theorem readMembers_append (members others : List (String × Json)) :
    readMembers (members ++ others) = (readMembers members).bind fun kept =>
      (readMembers others).map (kept ++ ·) := by
  induction members with
  | nil => simp [readMembers]
  | cons member rest ih =>
    rw [List.cons_append, readMembers_cons, readMembers_cons, ih]
    cases (facetOf member.1).written? member.2 <;> cases readMembers rest <;>
      cases readMembers others <;> simp

namespace Facet

theorem written?_position (h : readBack tree = some written) :
    positions.written? tree = some (some written) := by
  cases tree with
  | bool | obj => simp [written?, h]
  | null | num | str | arr => simp [readBack] at h

theorem written?_positions (h : readItems items = some items') :
    positions.written? (.arr items) = some (some (.arr items')) := by
  rw [written?, h, Option.map_some]

theorem written?_schemas (h : readItems items = some items') :
    schemas.written? (.arr items) = some (some (.arr items')) := by
  rw [written?, h, Option.map_some]

theorem written?_named (h : readNamed members = some members') :
    named.written? (.obj members) =
      some (if members'.isEmpty then none else some (.obj members')) := by
  rw [written?, h, Option.map_some]

theorem written?_kind {name : String} (h : isKind name = true) :
    kinds.written? (.str name) = some (some (.str name)) := by
  simp [written?, read, kind?, Json.caseName?, h]

theorem written?_count {n : Nat} (h : n < 4294967296) :
    count.written? (Json.ofNat n) = some (some (Json.ofNat n)) := by
  have hrange : (0 : Int) ≤ n ∧ (n : Int) < 4294967296 := by omega
  simp [written?, read, Json.ofNat, hrange]

theorem written?_names (texts : List String) :
    names.written? (Json.ofStrings texts) =
      some (if texts.isEmpty then none else some (Json.ofStrings (Table.keySet texts))) := by
  have hm : (texts.map Json.str).mapM Json.text? = some texts := by
    induction texts with
    | nil => rfl
    | cons text texts ih => simp [ih, Json.text?]
  simp [written?, read, Json.ofStrings, hm, Table.keySet]

end Facet

theorem readMembers_type {name : String} (h : isKind name = true) :
    readMembers [("type", .str name)] = some [("type", .str name)] := by
  rw [readMembers_cons, show facetOf "type" = .kinds from rfl, Facet.written?_kind h]
  rfl

theorem readMembers_properties (h : readNamed members = some members') :
    readMembers [("properties", .obj members)] =
      some (if members'.isEmpty then [] else [("properties", .obj members')]) := by
  rw [readMembers_cons, show facetOf "properties" = .named from rfl, Facet.written?_named h]
  cases members' <;> rfl

theorem readMembers_required (names : List String) :
    readMembers (if names.isEmpty then [] else [("required", Json.ofStrings names)]) =
      some (if names.isEmpty then [] else
        [("required", Json.ofStrings (Table.keySet names))]) := by
  cases names with
  | nil => rfl
  | cons name rest =>
    change readMembers [("required", Json.ofStrings (name :: rest))] = _
    rw [readMembers_cons, show facetOf "required" = .names from rfl, Facet.written?_names]
    rfl

theorem readBack_list (h : readBack tree = some written) :
    readBack (.obj [("items", tree), ("type", .str "array")]) =
      some (.obj [("items", written), ("type", .str "array")]) := by
  rw [readBack, readMembers_cons, show facetOf "items" = .positions from rfl,
    Facet.written?_position h, readMembers_type rfl]
  rfl

theorem readBack_tuple {length : Nat} (hl : length < 4294967296)
    (h : readItems items = some items') :
    readBack (.obj [("items", .arr items), ("maxItems", Json.ofNat length),
      ("minItems", Json.ofNat length), ("type", .str "array")]) =
      some (.obj [("items", .arr items'), ("maxItems", Json.ofNat length),
        ("minItems", Json.ofNat length), ("type", .str "array")]) := by
  rw [readBack, readMembers_cons, readMembers_cons, readMembers_cons, readMembers_type rfl,
    show facetOf "items" = .positions from rfl, show facetOf "maxItems" = .count from rfl,
    show facetOf "minItems" = .count from rfl, Facet.written?_positions h, Facet.written?_count hl]
  rfl

theorem readBack_alternatives (h : readItems items = some items') :
    readBack (.obj [("oneOf", .arr items)]) = some (.obj [("oneOf", .arr items')]) := by
  rw [readBack, readMembers_cons, show facetOf "oneOf" = .schemas from rfl,
    Facet.written?_schemas h]
  rfl

end NaturalFunctions.Schema

namespace NaturalFunctions.TypeArena

open Schema

/-- The type and the types it is built from, without those that a name stands for. A tuple among
them has a length that a structural schema can count. -/
inductive Countable (arena : TypeArena) : TypeId → Prop
  | intro {ty : TypeId}
      (length : ∀ members, arena.node ty = .tuple members → members.length < 4294967296)
      (parts : ∀ part ∈ (arena.node ty).shape.parts, Countable arena part) : Countable arena ty

variable {arena : TypeArena} {ty : TypeId}

theorem countable_of_tuples
    (h : ∀ ty members, arena.node ty = .tuple members → members.length < 4294967296)
    (ty : TypeId) : arena.Countable ty := by
  induction ty using Nat.strongRecOn with
  | _ ty ih =>
    exact .intro (h ty) fun part hp => ih part (arena.node_part_lt (TypeNode.mem_parts_of_shape hp))

theorem readable_primitive (kind : PrimitiveKind) : Readable (primitiveComponent kind) := by
  cases kind <;> exact ⟨_, rfl⟩

def requiredNames {α : Type} (fields : List (RecordField α)) : List String :=
  (fields.filter fun field => !field.optional).map RecordField.name

theorem readBack_recordComponent {fields : List (RecordField Schema)}
    {properties : List (String × Json)}
    (h : readNamed (Table.ofList (fields.map fun field => (field.name, field.type))) =
      some properties) :
    readBack (recordComponent fields) = some (.obj ([("additionalProperties", .bool false)] ++
      (if properties.isEmpty then [] else [("properties", .obj properties)]) ++
      (if (requiredNames fields).isEmpty then [] else
        [("required", Json.ofStrings (Table.keySet (requiredNames fields)))]) ++
      [("type", .str "object")])) := by
  have hclosed : readMembers [("additionalProperties", .bool false)] =
      some [("additionalProperties", .bool false)] := rfl
  change (readMembers ([("additionalProperties", .bool false)] ++ [("properties", .obj _)] ++
    (if (requiredNames fields).isEmpty then [] else
      [("required", Json.ofStrings (requiredNames fields))]) ++
    [("type", .str "object")])).map _ = _
  rw [readMembers_append, readMembers_append, readMembers_append, hclosed,
    readMembers_properties h, readMembers_required, readMembers_type rfl]
  rfl

theorem readable_recordComponent {fields : List (RecordField Schema)}
    (h : ∀ field ∈ fields, Readable field.type) : Readable (recordComponent fields) := by
  have hproperties : ∀ property ∈
      Table.ofList (fields.map fun field => (field.name, field.type)), Readable property.2 := by
    intro property hp
    obtain ⟨field, hf, rfl⟩ := List.mem_map.mp (Table.mem_of_mem_ofList hp)
    exact h field hf
  obtain ⟨properties, hp⟩ := exists_readNamed hproperties
  exact ⟨_, readBack_recordComponent hp⟩

def fieldComponent (component : TypeId → Schema) (field : RecordField TypeId) :
    RecordField Schema :=
  { name := field.name, type := component field.type, optional := field.optional }

def nodeComponent (component : TypeId → Schema) : TypeNode → Schema
  | .primitive kind => primitiveComponent kind
  | .record fields => recordComponent (fields.map (fieldComponent component))
  | .array element => .obj [("items", component element), ("type", .str "array")]
  | .tuple members =>
    .obj [("items", .arr (members.map component)), ("maxItems", Json.ofNat members.length),
      ("minItems", Json.ofNat members.length), ("type", .str "array")]
  | .union members => .obj [("oneOf", .arr (members.map component))]
  | .named name _ => .obj [("$ref", .str ("#/components/schemas/" ++ name))]
  | .json | .error | .nominal _ _ => .obj []

theorem component_eq (ty : TypeId) :
    arena.component ty = nodeComponent arena.component (arena.node ty) := by
  rw [component.eq_def]
  split <;> simp only [*, nodeComponent, List.map_subtype, List.unattach_attach]
  rfl

theorem readable_component (h : arena.Countable ty) : Readable (arena.component ty) := by
  induction h with
  | @intro ty hlength _ ih =>
    rw [component_eq]
    cases hn : arena.node ty with
    | primitive kind => exact readable_primitive kind
    | record fields =>
      rw [hn, TypeNode.shape, TypeShape.parts, List.forall_mem_map] at ih
      apply readable_recordComponent
      rwa [List.forall_mem_map]
    | array element =>
      obtain ⟨items, hitems⟩ := ih element (by rw [hn]; exact List.mem_singleton_self element)
      exact ⟨_, readBack_list hitems⟩
    | tuple members =>
      rw [hn, TypeNode.shape, TypeShape.parts] at ih
      obtain ⟨items, hitems⟩ := exists_readItems (List.forall_mem_map.mpr ih)
      exact ⟨_, readBack_tuple (hlength members hn) hitems⟩
    | union members =>
      rw [hn, TypeNode.shape, TypeShape.parts] at ih
      obtain ⟨items, hitems⟩ := exists_readItems (List.forall_mem_map.mpr ih)
      exact ⟨_, readBack_alternatives hitems⟩
    | named | json | error | nominal => exact ⟨_, rfl⟩

theorem exists_openApiMapper {record : TypeId} {fields : List (RecordField TypeId)}
    (hn : arena.node record = .record fields) (h : arena.Countable record) :
    ∃ raw, arena.openApiMapper record = some raw := by
  rw [openApiMapper, hn]
  exact readable_component h

end NaturalFunctions.TypeArena
