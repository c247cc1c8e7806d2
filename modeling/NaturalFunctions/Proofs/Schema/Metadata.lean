import NaturalFunctions.Proofs.Derivation.TypeOutline
import NaturalFunctions.Proofs.Schema.Nodes
import NaturalFunctions.Types.ArenaModel

namespace NaturalFunctions

namespace Schema

mutual

def strip : Json → Json
  | .obj members => .obj (stripMembers members)
  | tree => tree

def stripMembers : List (String × Json) → List (String × Json)
  | [] => []
  | (key, value) :: rest =>
    match Keyword.ofKey? key with
    | some keyword => (key, stripValue keyword value) :: stripMembers rest
    | none => if key = "format" then (key, value) :: stripMembers rest else stripMembers rest

def stripValue : Keyword → Json → Json
  | .items, .arr entries => .arr (stripItems entries)
  | .items, .obj members => .obj (stripMembers members)
  | .combinator, .arr branches => .arr (stripItems branches)
  | .properties, .obj properties => .obj (stripProperties properties)
  | _, value => value

def stripItems : List Json → List Json
  | [] => []
  | item :: rest => strip item :: stripItems rest

def stripProperties : List (String × Json) → List (String × Json)
  | [] => []
  | (name, value) :: rest => (name, strip value) :: stripProperties rest

end

def stripped? (member : String × Json) : Option (String × Json) :=
  match Keyword.ofKey? member.1 with
  | some keyword => some (member.1, stripValue keyword member.2)
  | none => if member.1 = "format" then some member else none

structure KeepsParts (node reduced : Json) : Prop where
  properties : ∀ properties, node.get? "properties" = some (.obj properties) →
    reduced.get? "properties" =
      some (.obj (properties.map fun property => (property.1, normalize property.2)))
  entries : ∀ key ∈ "items" :: combinators, ∀ entries, node.get? key = some (.arr entries) →
    reduced.get? key = some (.arr (entries.map normalize))

variable {tree value : Json} {key : String} {members : List (String × Json)}
  {combined byte : Bool}

theorem stripItems_eq_map (items : List Json) : stripItems items = items.map strip := by
  induction items with
  | nil => rw [stripItems, List.map_nil]
  | cons item rest ih => rw [stripItems, ih, List.map_cons]

theorem stripProperties_eq_map (properties : List (String × Json)) :
    stripProperties properties = properties.map fun property => (property.1, strip property.2) := by
  induction properties with
  | nil => rw [stripProperties, List.map_nil]
  | cons property rest ih => rw [stripProperties, ih, List.map_cons]

theorem stripMembers_eq_filterMap (members : List (String × Json)) :
    stripMembers members = members.filterMap stripped? := by
  induction members with
  | nil => rw [stripMembers, List.filterMap_nil]
  | cons head rest ih =>
    obtain ⟨key, value⟩ := head
    rw [List.filterMap_cons, stripped?]
    unfold stripMembers
    rw [ih]
    cases Keyword.ofKey? key with
    | some keyword => rfl
    | none => by_cases hf : key = "format" <;> simp [hf]

theorem stripped?_key {member kept : String × Json} (h : stripped? member = some kept) :
    kept.1 = member.1 := by
  unfold stripped? at h
  grind

theorem stripped?_eq_some (hk : key = "format" ∨ key = "type") :
    stripped? (key, value) = some (key, value) := by
  rcases hk with rfl | rfl
  · rfl
  · simp [stripped?, Keyword.ofKey?, stripValue]

theorem isByteText_stripMembers (members : List (String × Json)) :
    isByteText (stripMembers members) = isByteText members := by
  have hlookup : ∀ key, key = "format" ∨ key = "type" →
      (stripMembers members).lookup key = members.lookup key := by
    intro key hk
    rw [stripMembers_eq_filterMap,
      lookup_filterMap id (fun _ _ => stripped?_key) (fun _ _ => stripped?_eq_some hk),
      Option.map_id, id]
  rw [isByteText, isByteText, hlookup "format" (.inl rfl), hlookup "type" (.inr rfl)]

theorem hasCombinator_stripMembers (members : List (String × Json)) :
    hasCombinator (stripMembers members) = hasCombinator members := by
  induction members with
  | nil => rw [stripMembers]
  | cons head rest ih =>
    obtain ⟨key, value⟩ := head
    have hcons (value : Json) (rest : List (String × Json)) :
        hasCombinator ((key, value) :: rest) =
          (decide (Keyword.ofKey? key = some .combinator) || hasCombinator rest) := rfl
    unfold stripMembers
    cases hk : Keyword.ofKey? key with
    | some keyword => simp only [hcons, ih]
    | none => split_ifs <;> simp only [hcons, hk, ih, reduceCtorEq, decide_false, Bool.false_or]

theorem reduceValue?_stripValue {keyword : Keyword}
    (ih : ∀ part, sizeOf part ≤ sizeOf value → normalize (strip part) = normalize part) :
    reduceValue? combined byte keyword (stripValue keyword value) =
      reduceValue? combined byte keyword value := by
  have hentries {entries : List Json} (hv : value = .arr entries) :
      (stripItems entries).map normalize = entries.map normalize := by
    subst hv
    rw [stripItems_eq_map, List.map_map]
    exact List.map_congr_left fun entry he => ih entry (Nat.le_of_lt (sizeOf_item_lt he))
  have hproperties {properties : List (String × Json)} (hv : value = .obj properties) :
      (stripProperties properties).map (fun property => (property.1, normalize property.2)) =
        properties.map fun property => (property.1, normalize property.2) := by
    subst hv
    rw [stripProperties_eq_map, List.map_map]
    refine List.map_congr_left fun property hp => ?_
    exact congrArg (Prod.mk property.1) (ih property.2 (Nat.le_of_lt (sizeOf_value_lt hp)))
  have hself := ih value (Nat.le_refl _)
  cases keyword with
  | type | required => cases value <;> rfl
  | items =>
    cases value with
    | arr entries => simp only [stripValue, reduceValue?, hentries rfl]
    | obj members => exact congrArg some hself
    | null | bool | num | str => rfl
  | combinator =>
    cases value with
    | arr branches => simp only [stripValue, reduceValue?, hentries rfl]
    | null | bool | num | str | obj => rfl
  | properties =>
    cases value with
    | obj properties => simp only [stripValue, reduceValue?, hproperties rfl]
    | null | bool | num | str | arr => rfl

theorem stripped?_bind_reduce?
    (ih : ∀ part, sizeOf part ≤ sizeOf value → normalize (strip part) = normalize part) :
    (stripped? (key, value)).bind (reduce? combined byte) = reduce? combined byte (key, value) := by
  unfold stripped? reduce?
  cases hk : Keyword.ofKey? key with
  | some keyword => simp [hk, reduceValue?_stripValue ih]
  | none => split_ifs <;> simp [hk]

theorem normalize_strip (tree : Json) : normalize (strip tree) = normalize tree := by
  induction hn : sizeOf tree using Nat.strongRecOn generalizing tree with
  | _ n ih =>
    subst hn
    cases tree with
    | null | bool | num | str | arr => rw [strip]; simp
    | obj members =>
      rw [strip, normalize, normalize, hasCombinator_stripMembers, isByteText_stripMembers,
        normalizeMembers_eq_filterMap, normalizeMembers_eq_filterMap, stripMembers_eq_filterMap,
        List.filterMap_filterMap]
      refine congrArg Json.obj (List.filterMap_congr fun member hm => ?_)
      exact stripped?_bind_reduce? fun part hp => ih _ (Nat.lt_of_le_of_lt hp (sizeOf_value_lt hm))
        part rfl

theorem keepsParts_normalize (node : Json) : KeepsParts node (normalize node) where
  properties _ h := get?_normalize h fun _ _ => reduce?_properties
  entries _ hk _ h := get?_normalize h fun _ _ => reduce?_arr hk

end Schema

open Schema

theorem SemanticModel.outline_congr (model : SemanticModel) {mapper mapper' : StructuralMapper}
    (attached : List (String × Schema))
    (h : ∀ ty, (mapper ty).map normalize = (mapper' ty).map normalize) :
    model.outline mapper attached = model.outline mapper' attached := by
  funext ty
  unfold outline
  rw [h ty]

theorem SemanticModel.derive_congr (model : SemanticModel) {mapper mapper' : StructuralMapper}
    (attached : List (String × Schema))
    (h : ∀ ty, (mapper ty).map normalize = (mapper' ty).map normalize) (ty : TypeId) :
    model.derive mapper attached ty = model.derive mapper' attached ty := by
  ext schema
  rw [derive_eq_some_iff, derive_eq_some_iff, model.outline_congr attached h]

theorem Schema.normalize_of_structure (tree : Json) :
    normalize (strip tree) = normalize tree ∧
    (∀ path node, NodeAt tree path node →
      NodeAt (normalize tree) path (normalize node) ∧ KeepsParts node (normalize node)) ∧
    ∀ (model : SemanticModel) (mapper mapper' : StructuralMapper)
      (attached : List (String × Schema)),
      (∀ ty, (mapper ty).map strip = (mapper' ty).map strip) →
      ∀ ty, model.derive mapper attached ty = model.derive mapper' attached ty := by
  refine ⟨normalize_strip tree, fun path node hn => ⟨hn.normalize, keepsParts_normalize node⟩, ?_⟩
  intro model mapper mapper' attached h ty
  refine model.derive_congr attached (fun other => ?_) ty
  have hnormalize : normalize = normalize ∘ strip := (funext normalize_strip).symm
  rw [hnormalize, ← Option.map_map, h other, Option.map_map]

def bookSchema (title description : String) : Schema :=
  .obj [("properties", .obj [("title", Schema.primitive .string),
      ("type", .obj [("anyOf", .arr [Schema.primitive .int, Schema.primitive .nil]),
        ("description", .str description), ("type", .str "object")])]),
    ("title", .str title), ("type", .str "object")]

def bookArena : TypeArena :=
  TypeArena.empty.add (.record [⟨"title", 1, false⟩, ⟨"type", 1, false⟩]) (by decide)

theorem Schema.normalize_of_structure_book :
    (∃ node, NodeAt (bookSchema "Book" "genre") [.property "type"] node ∧
      node.get? "anyOf" = some (.arr [Schema.primitive .int, Schema.primitive .nil]) ∧
      (normalize node).get? "anyOf" = some (.arr [Schema.primitive .int, Schema.primitive .nil])) ∧
    ((normalize (bookSchema "Book" "genre")).get? "properties" =
      some (.obj [("title", Schema.primitive .string),
        ("type", .obj [("anyOf", .arr [Schema.primitive .int, Schema.primitive .nil])])])) ∧
    strip (bookSchema "Book" "genre") ≠ bookSchema "Book" "genre" ∧
    normalize (strip (bookSchema "Book" "genre")) = normalize (bookSchema "Book" "genre") ∧
    bookArena.model.derive (fun _ => some (bookSchema "Book" "genre")) [] 2 =
      bookArena.model.derive (fun _ => some (bookSchema "Novel" "kind")) [] 2 := by
  obtain ⟨hstrip, hnodes, hderive⟩ := normalize_of_structure (bookSchema "Book" "genre")
  have htype : NodeAt (bookSchema "Book" "genre") [.property "type"] _ :=
    .step (.property List.mem_cons_self (List.mem_cons_of_mem _ List.mem_cons_self)) .root
  refine ⟨⟨_, htype, rfl, (hnodes _ _ htype).2.entries "anyOf" (by decide) _ rfl⟩, ?_, by decide,
    hstrip, hderive bookArena.model _ _ [] (by intro; rfl) 2⟩
  exact (hnodes [] _ .root).2.properties _ rfl

end NaturalFunctions
