import NaturalFunctions.Proofs.Derivation.TypeOutline
import NaturalFunctions.Proofs.Json.Trees
import NaturalFunctions.Proofs.Schema.NormalForm
import NaturalFunctions.Proofs.Tables

namespace NaturalFunctions

namespace Schema

variable {members : List (String × Json)} {combined byte : Bool}

theorem sorted_normalizeMembers (h : Table.Sorted members) :
    Table.Sorted (normalizeMembers combined byte members) := by
  rw [Table.sorted_iff_keys] at h ⊢
  exact h.sublist keys_normalizeMembers_sublist

theorem proper_of_mem_normalizeMembers
    (h : ∀ member ∈ members, member.2.Proper ∧ (normalize member.2).Proper ∧
      ∀ part ∈ member.2.parts, (normalize part).Proper) :
    ∀ member ∈ normalizeMembers combined byte members, member.2.Proper := by
  induction members with
  | nil => simp [normalizeMembers]
  | cons head rest ih =>
    obtain ⟨key, value⟩ := head
    obtain ⟨⟨hvalue, hnormal, hparts⟩, h⟩ := List.forall_mem_cons.mp h
    have hrest := ih h
    unfold normalizeMembers
    split
    case h_1 => exact hrest
    case h_2 => exact List.forall_mem_cons.mpr ⟨hvalue, hrest⟩
    case h_3 =>
      split
      · exact hrest
      · refine List.forall_mem_cons.mpr ⟨?_, hrest⟩
        dsimp only
        split
        · exact Json.proper_str _
        · exact hvalue
    case h_4 =>
      split
      · refine List.forall_mem_cons.mpr ⟨?_, hrest⟩
        rw [normalizeItems_eq_map, Json.proper_arr_iff, List.forall_mem_map]
        exact hparts
      · exact List.forall_mem_cons.mpr ⟨hnormal, hrest⟩
    case h_5 =>
      split
      · refine List.forall_mem_cons.mpr ⟨?_, hrest⟩
        rw [normalizeItems_eq_map, Json.proper_arr_iff, List.forall_mem_map]
        exact hparts
      · exact hrest
    case h_6 =>
      split
      · refine List.forall_mem_cons.mpr ⟨?_, hrest⟩
        rw [normalizeProperties_eq_map, Json.proper_obj_iff, List.forall_mem_map]
        obtain ⟨hsorted, -⟩ := Json.proper_obj_iff.mp hvalue
        exact ⟨List.pairwise_map.mpr hsorted, fun property hp => hparts _ (List.mem_map_of_mem hp)⟩
      · exact hrest

theorem proper_normalize {tree : Json} (h : tree.Proper) : (normalize tree).Proper := by
  -- a list of items is not reduced itself but entry by entry, so the parts are carried along
  have hdeep : (normalize tree).Proper ∧ ∀ part ∈ tree.parts, (normalize part).Proper := by
    induction h with
    | @node tree here below ih =>
      refine ⟨?_, fun part hp => (ih part hp).1⟩
      have hp : tree.Proper := .node here below
      cases tree with
      | null | bool | str => simp [normalize]
      | num | arr => simpa [normalize] using hp
      | obj members =>
        obtain ⟨hsorted, hmembers⟩ := Json.proper_obj_iff.mp hp
        rw [normalize]
        refine Json.proper_obj_iff.mpr ⟨sorted_normalizeMembers hsorted, ?_⟩
        apply proper_of_mem_normalizeMembers
        exact fun member hm => ⟨hmembers member hm, ih _ (List.mem_map_of_mem hm)⟩
  exact hdeep.1

theorem proper_primitive (kind : PrimitiveKind) : (primitive kind).Proper := by
  simp [primitive, Table.Sorted]

theorem floatFree_anyJson : anyJson.FloatFree := by
  simp [anyJson, Json.ofStrings]

theorem proper_anyJson : anyJson.Proper := by
  simp [anyJson, Json.ofStrings, Table.Sorted]

theorem proper_pair {first second : String × Json} (hlt : first.1 < second.1)
    (hfirst : first.2.Proper) (hsecond : second.2.Proper) : (Json.obj [first, second]).Proper := by
  apply Json.proper_obj_iff.mpr
  constructor
  · exact List.pairwise_pair.mpr hlt
  · exact List.forall_mem_cons.mpr ⟨hfirst, List.forall_mem_singleton.mpr hsecond⟩

theorem proper_arrayOf {items : Schema} (h : items.Proper) : (arrayOf items).Proper :=
  proper_pair (show "items" < "type" by decide) h (Json.proper_str "array")

theorem proper_tupleOf {items : List Schema} (h : ∀ item ∈ items, item.Proper) :
    (tupleOf items).Proper :=
  proper_pair (show "items" < "type" by decide) (Json.proper_arr_iff.mpr h)
    (Json.proper_str "array")

theorem proper_anyOf {members : List Schema} (h : ∀ member ∈ members, member.Proper) :
    (anyOf members).Proper :=
  proper_pair (show "anyOf" < "type" by decide) (Json.proper_arr_iff.mpr h)
    (Json.proper_str "object")

end Schema

theorem forall_mem_of_forall_zip {α β : Type} {P : β → Prop} {xs : List α} {ys : List β}
    (hl : xs.length = ys.length) (h : ∀ pair ∈ xs.zip ys, P pair.2) : ∀ y ∈ ys, P y := by
  rw [← List.map_snd_zip (Nat.le_of_eq hl.symm), List.forall_mem_map]
  exact h

theorem Describes.proper {ν : Type} {outline : ν → Outline ν} {node : ν} {schema : Schema}
    (hknown : ∀ node schema, outline node = .known (some schema) → schema.Proper)
    (h : Describes outline node schema) : schema.Proper := by
  induction h with
  | known h => exact hknown _ _ h
  | array _ _ ih => exact Schema.proper_arrayOf ih
  | tuple _ hl _ ih => exact Schema.proper_tupleOf (forall_mem_of_forall_zip hl ih)
  | union _ hl _ ih => exact Schema.proper_anyOf (forall_mem_of_forall_zip hl ih)
  | same _ _ ih => exact ih

theorem SemanticModel.proper_of_derive {model : SemanticModel} {mapper : StructuralMapper}
    {attached : List (String × Schema)} {ty : TypeId} {schema : Schema}
    (hmapper : ∀ ty raw, mapper ty = some raw → raw.Proper)
    (hattached : ∀ name schema, attached.lookup name = some schema → schema.Proper)
    (h : model.derive mapper attached ty = some schema) : schema.Proper := by
  refine Describes.proper (fun node schema ho => ?_) ((derive_eq_some_iff model mapper attached).mp h)
  unfold outline at ho
  split at ho
  case h_1 kind _ =>
    cases ho
    exact Schema.proper_primitive kind
  case h_2 =>
    cases ho
    exact Schema.proper_anyJson
  case h_6 =>
    obtain ⟨raw, hraw, rfl⟩ := Option.map_eq_some_iff.mp (Outline.known.inj ho)
    exact Schema.proper_normalize (hmapper _ raw hraw)
  case h_7 =>
    split at ho
    · rename_i hlookup
      cases ho
      exact hattached _ _ hlookup
    · cases ho
  all_goals cases ho

end NaturalFunctions
