import NaturalFunctions.Proofs.Derivation.Components
import NaturalFunctions.Proofs.Derivation.Proper

namespace NaturalFunctions

namespace Schema

variable {tree value : Json} {items items' : List Json} {members members' : List (String × Json)}

theorem proper_ofStrings (texts : List String) : (Json.ofStrings texts).Proper := by
  simp [Json.ofStrings]

theorem proper_of_kind? (h : kind? tree = some value) : value.Proper := by
  obtain ⟨name, -, hname⟩ := Option.bind_eq_some_iff.mp h
  split at hname
  · cases hname
    exact Json.proper_str name
  · cases hname

theorem Facet.proper_of_read {facet : Facet} (hp : tree.Proper)
    (h : facet.read tree = some (some value)) : value.Proper := by
  unfold Facet.read at h
  split at h
  case h_5 =>
    obtain ⟨texts, -, h⟩ := Option.bind_eq_some_iff.mp h
    split at h
    · cases h
    · cases h
      exact proper_ofStrings _
  case h_9 =>
    obtain ⟨kinds, hkinds, h⟩ := Option.map_eq_some_iff.mp h
    cases h
    obtain ⟨hl, hkind⟩ := mapM_eq_some_iff.mp hkinds
    apply Json.proper_arr_iff.mpr
    exact forall_mem_of_forall_zip hl fun pair hpair => proper_of_kind? (hkind pair hpair)
  case h_10 =>
    obtain ⟨kind, hkind, h⟩ := Option.map_eq_some_iff.mp h
    cases h
    exact proper_of_kind? hkind
  case h_14 =>
    cases h
    exact Json.proper_float _
  case h_16 =>
    split at h
    · cases h
      exact hp
    · cases h
  case h_1 =>
    split at h
    · cases h
      exact hp
    · cases h
  case h_3 =>
    split at h
    · cases h
    · cases h
      exact hp
  all_goals
    cases h
    try exact hp

def ReadsProper (tree : Json) : Prop := ∀ value, readBack tree = some value → value.Proper

theorem proper_of_readItems (h : ∀ item ∈ items, ReadsProper item)
    (hr : readItems items = some items') : ∀ item ∈ items', item.Proper := by
  induction items generalizing items' with
  | nil =>
    cases hr
    simp
  | cons item rest ih =>
    obtain ⟨hitem, hrest⟩ := List.forall_mem_cons.mp h
    obtain ⟨first, hfirst, hr⟩ := Option.bind_eq_some_iff.mp hr
    obtain ⟨others, hothers, hr⟩ := Option.bind_eq_some_iff.mp hr
    cases hr
    exact List.forall_mem_cons.mpr ⟨hitem first hfirst, ih hrest hothers⟩

theorem proper_of_readNamed (h : ∀ member ∈ members, ReadsProper member.2)
    (hr : readNamed members = some members') : ∀ member ∈ members', member.2.Proper := by
  induction members generalizing members' with
  | nil =>
    cases hr
    simp
  | cons member rest ih =>
    obtain ⟨hmember, hrest⟩ := List.forall_mem_cons.mp h
    obtain ⟨first, hfirst, hr⟩ := Option.bind_eq_some_iff.mp hr
    obtain ⟨others, hothers, hr⟩ := Option.bind_eq_some_iff.mp hr
    cases hr
    exact List.forall_mem_cons.mpr ⟨hmember first hfirst, ih hrest hothers⟩

theorem Facet.proper_of_written? {facet : Facet} (hproper : tree.Proper)
    (htree : ReadsProper tree) (hparts : ∀ part ∈ tree.parts, ReadsProper part)
    (h : facet.written? tree = some (some value)) : value.Proper := by
  unfold Facet.written? at h
  split at h
  case h_1 | h_3 | h_6 => cases h
  case h_5 | h_10 => cases h
  case h_2 | h_8 =>
    obtain ⟨read, hread, heq⟩ := Option.map_eq_some_iff.mp h
    cases heq
    exact htree value hread
  case h_4 | h_7 =>
    obtain ⟨items, hitems, heq⟩ := Option.map_eq_some_iff.mp h
    cases heq
    exact Json.proper_arr_iff.mpr (proper_of_readItems hparts hitems)
  case h_9 =>
    obtain ⟨read, hread, heq⟩ := Option.map_eq_some_iff.mp h
    split at heq
    · cases heq
    · cases heq
      refine Json.proper_obj_iff.mpr ⟨?_, proper_of_readNamed
        (fun property hp => hparts _ (List.mem_map_of_mem hp)) hread⟩
      rw [Table.sorted_iff_keys, keys_of_readNamed hread, ← Table.sorted_iff_keys]
      exact (Json.proper_obj_iff.mp hproper).1
  case h_11 => exact Facet.proper_of_read hproper h

theorem proper_of_readMembers
    (h : ∀ member ∈ members, member.2.Proper ∧ ReadsProper member.2 ∧
      ∀ part ∈ member.2.parts, ReadsProper part)
    (hr : readMembers members = some members') :
    (members'.map Prod.fst).Sublist (members.map Prod.fst) ∧
      ∀ member ∈ members', member.2.Proper := by
  induction members generalizing members' with
  | nil =>
    cases hr
    simp
  | cons member rest ih =>
    obtain ⟨⟨hproper, hvalue, hparts⟩, hrest⟩ := List.forall_mem_cons.mp h
    rw [readMembers_cons] at hr
    obtain ⟨written, hw, hr⟩ := Option.bind_eq_some_iff.mp hr
    obtain ⟨others, hothers, rfl⟩ := Option.map_eq_some_iff.mp hr
    obtain ⟨hkeys, hothers⟩ := ih hrest hothers
    cases written with
    | none => exact ⟨hkeys.cons member.1, hothers⟩
    | some kept =>
      have hkept : kept.Proper := Facet.proper_of_written? hproper hvalue hparts hw
      exact ⟨hkeys.cons_cons member.1, List.forall_mem_cons.mpr ⟨hkept, hothers⟩⟩

theorem readsProper_of_proper (h : tree.Proper) : ReadsProper tree := by
  -- as for the reduction, a keyword may have a list or an object whose parts are read back
  have hdeep : ReadsProper tree ∧ ∀ part ∈ tree.parts, ReadsProper part := by
    induction h with
    | @node tree here below ih =>
      refine ⟨fun value hr => ?_, fun part hp => (ih part hp).1⟩
      have hp : tree.Proper := .node here below
      cases tree with
      | null | num | str | arr => simp [readBack] at hr
      | bool b =>
        rw [readBack] at hr
        cases hr
        exact hp
      | obj members =>
        rw [readBack] at hr
        obtain ⟨written, hwritten, rfl⟩ := Option.map_eq_some_iff.mp hr
        obtain ⟨hsorted, hmembers⟩ := Json.proper_obj_iff.mp hp
        obtain ⟨hkeys, hwritten⟩ := proper_of_readMembers
          (fun member hm => ⟨hmembers member hm, ih _ (List.mem_map_of_mem hm)⟩) hwritten
        refine Json.proper_obj_iff.mpr ⟨?_, hwritten⟩
        rw [Table.sorted_iff_keys] at hsorted ⊢
        exact hsorted.sublist hkeys
  exact hdeep.1

end Schema

namespace TypeArena

open Schema

variable {arena : TypeArena} {ty : TypeId}

theorem proper_primitiveComponent (kind : PrimitiveKind) : (primitiveComponent kind).Proper := by
  have hpair (format name : String) :
      (Json.obj [("format", .str format), ("type", .str name)]).Proper :=
    proper_pair (show "format" < "type" by decide) (Json.proper_str format) (Json.proper_str name)
  have hsingle (name : String) : (Json.obj [("type", .str name)]).Proper := by
    simp [Table.Sorted]
  cases kind with
  | boolean | string | nil => exact hsingle _
  | int | byte | float | decimal => exact hpair _ _

theorem proper_recordComponent {fields : List (RecordField Schema)}
    (h : ∀ field ∈ fields, field.type.Proper) : (recordComponent fields).Proper := by
  have hproperties : (Json.object (fields.map fun field => (field.name, field.type))).Proper := by
    refine Json.proper_obj_iff.mpr ⟨Table.sorted_ofList _, fun property hp => ?_⟩
    obtain ⟨field, hf, rfl⟩ := List.mem_map.mp (Table.mem_of_mem_ofList hp)
    exact h field hf
  unfold recordComponent
  apply Json.proper_obj_iff.mpr
  rw [Table.sorted_iff_keys]
  split
  · constructor
    · exact show ["additionalProperties", "properties", "type"].Pairwise (· < ·) by decide
    · simp [hproperties]
  · constructor
    · exact show ["additionalProperties", "properties", "required", "type"].Pairwise (· < ·) by
        decide
    · simp [hproperties, proper_ofStrings]

theorem proper_component (h : arena.Countable ty) : (arena.component ty).Proper := by
  induction h with
  | @intro ty hlength _ ih =>
    rw [component_eq]
    cases hn : arena.node ty with
    | primitive kind => exact proper_primitiveComponent kind
    | record fields =>
      rw [hn, TypeNode.shape, TypeShape.parts, List.forall_mem_map] at ih
      apply proper_recordComponent
      rwa [List.forall_mem_map]
    | array element =>
      exact proper_arrayOf (ih element (by rw [hn]; exact List.mem_singleton_self element))
    | tuple members =>
      have hcount : (Json.ofNat members.length).Proper := by
        have hlength := hlength members hn
        have hpow : 4294967296 ≤ Nat.pow 2 64 := by decide
        apply Json.proper_int_iff.mpr
        omega
      rw [hn, TypeNode.shape, TypeShape.parts] at ih
      apply Json.proper_obj_iff.mpr
      rw [Table.sorted_iff_keys]
      constructor
      · exact show ["items", "maxItems", "minItems", "type"].Pairwise (· < ·) by decide
      · simp only [List.forall_mem_cons, List.not_mem_nil, false_imp_iff, implies_true, and_true]
        exact ⟨Json.proper_arr_iff.mpr (List.forall_mem_map.mpr ih), hcount, hcount,
          Json.proper_str _⟩
    | union members =>
      rw [hn, TypeNode.shape, TypeShape.parts] at ih
      refine Json.proper_obj_iff.mpr ⟨List.pairwise_singleton _ _, ?_⟩
      rw [List.forall_mem_singleton, Json.proper_arr_iff]
      exact List.forall_mem_map.mpr ih
    | named =>
      exact Json.proper_obj_iff.mpr ⟨List.pairwise_singleton _ _,
        List.forall_mem_singleton.mpr (Json.proper_str _)⟩
    | json | error | nominal => exact Json.proper_obj_iff.mpr ⟨List.Pairwise.nil, by simp⟩

theorem proper_of_openApiMapper (h : arena.Countable ty) {raw : Schema}
    (hr : arena.openApiMapper ty = some raw) : raw.Proper := by
  unfold openApiMapper at hr
  split at hr
  · exact readsProper_of_proper (proper_component h) raw hr
  · cases hr

end TypeArena

end NaturalFunctions
