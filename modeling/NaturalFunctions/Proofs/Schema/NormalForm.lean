import NaturalFunctions.Schema.Normal

namespace NaturalFunctions.Schema

def combinators : List String := ["allOf", "anyOf", "oneOf"]

mutual

/-- A tree other than an object, or an object of structural members without a type beside a
combinator. -/
inductive IsNormal : Json → Prop
  | leaf {tree : Json} (h : ∀ members, tree ≠ .obj members) : IsNormal tree
  | node {members : List (String × Json)} (hm : ∀ member ∈ members, IsStructural member.1 member.2)
      (ht : (∃ member ∈ members, member.1 ∈ combinators) → ∀ member ∈ members, member.1 ≠ "type") :
      IsNormal (.obj members)

inductive IsStructural : String → Json → Prop
  | type (value : Json) : IsStructural "type" value
  | required (value : Json) : IsStructural "required" value
  | positions {items : List Json} (h : ∀ item ∈ items, IsNormal item) :
      IsStructural "items" (.arr items)
  | item {tree : Json} (ha : ∀ items, tree ≠ .arr items) (h : IsNormal tree) :
      IsStructural "items" tree
  | combinator {key : String} {branches : List Json} (hk : key ∈ combinators)
      (h : ∀ branch ∈ branches, IsNormal branch) : IsStructural key (.arr branches)
  | properties {properties : List (String × Json)}
      (h : ∀ property ∈ properties, IsNormal property.2) :
      IsStructural "properties" (.obj properties)

end

variable {key : String} {value tree : Json} {members : List (String × Json)} {combined byte : Bool}

namespace Keyword

def keys : Keyword → List String
  | .type => ["type"]
  | .items => ["items"]
  | .combinator => combinators
  | .properties => ["properties"]
  | .required => ["required"]

theorem ofKey?_eq_some_iff {keyword : Keyword} : ofKey? key = some keyword ↔ key ∈ keyword.keys := by
  unfold ofKey?
  cases keyword <;> grind [keys, combinators]

end Keyword

open Keyword

theorem hasCombinator_iff : hasCombinator members = true ↔
    ∃ member ∈ members, member.1 ∈ combinators := by
  simp only [hasCombinator, List.any_eq_true, decide_eq_true_iff, ofKey?_eq_some_iff, keys]

theorem keys_normalizeMembers_sublist :
    ((normalizeMembers combined byte members).map Prod.fst).Sublist (members.map Prod.fst) := by
  induction members with
  | nil => exact List.nil_sublist _
  | cons head rest ih =>
    obtain ⟨key, value⟩ := head
    have hdrop := ih.trans (List.sublist_cons_self key _)
    unfold normalizeMembers
    split
    case h_1 => exact hdrop
    case h_2 => exact ih.cons_cons key
    case h_3 =>
      split
      · exact hdrop
      · exact ih.cons_cons key
    case h_4 => split <;> exact ih.cons_cons key
    case h_5 =>
      split
      · exact ih.cons_cons key
      · exact hdrop
    case h_6 =>
      split
      · exact ih.cons_cons key
      · exact hdrop

theorem key_of_mem_normalizeMembers {member : String × Json}
    (h : member ∈ normalizeMembers combined byte members) :
    ∃ value, (member.1, value) ∈ members := by
  have hkey := keys_normalizeMembers_sublist.subset (List.mem_map_of_mem h)
  obtain ⟨⟨key, value⟩, hm, hk⟩ := List.mem_map.mp hkey
  exact ⟨value, hk ▸ hm⟩

theorem key_ne_type_of_combined {member : String × Json}
    (h : member ∈ normalizeMembers true byte members) : member.1 ≠ "type" := by
  induction members with
  | nil => cases h
  | cons head rest ih =>
    obtain ⟨key, value⟩ := head
    unfold normalizeMembers at h
    have : ofKey? key = some .type ↔ key ∈ ["type"] := ofKey?_eq_some_iff
    grind

theorem normalizeItems_eq_map (items : List Json) : normalizeItems items = items.map normalize := by
  induction items with
  | nil => rw [normalizeItems, List.map_nil]
  | cons item rest ih => rw [normalizeItems, ih, List.map_cons]

theorem normalizeProperties_eq_map (properties : List (String × Json)) :
    normalizeProperties properties =
      properties.map fun property => (property.1, normalize property.2) := by
  induction properties with
  | nil => rw [normalizeProperties, List.map_nil]
  | cons property rest ih => rw [normalizeProperties, ih, List.map_cons]

theorem sizeOf_item_lt {item : Json} {items : List Json} (h : item ∈ items) :
    sizeOf item < sizeOf (Json.arr items) := by
  have := List.sizeOf_lt_of_mem h
  rw [Json.arr.sizeOf_spec]
  omega

theorem sizeOf_value_lt {member : String × Json} (h : member ∈ members) :
    sizeOf member.2 < sizeOf (Json.obj members) := by
  have := List.sizeOf_lt_of_mem h
  have : sizeOf member.2 < sizeOf member := by
    rw [Prod.mk.sizeOf_spec]
    omega
  rw [Json.obj.sizeOf_spec]
  omega

theorem isStructural_of_mem_normalizeMembers
    (ih : ∀ member ∈ members, ∀ part, sizeOf part ≤ sizeOf member.2 → IsNormal (normalize part)) :
    ∀ member ∈ normalizeMembers combined byte members, IsStructural member.1 member.2 := by
  induction members with
  | nil => simp [normalizeMembers]
  | cons head rest step =>
    obtain ⟨key, value⟩ := head
    obtain ⟨hvalue, ih⟩ := List.forall_mem_cons.mp ih
    have hrest := step ih
    clear step ih
    unfold normalizeMembers
    split
    case h_1 => exact hrest
    case h_2 hk =>
      obtain rfl := List.mem_singleton.mp (ofKey?_eq_some_iff.mp hk)
      exact List.forall_mem_cons.mpr ⟨.required value, hrest⟩
    case h_3 hk =>
      obtain rfl := List.mem_singleton.mp (ofKey?_eq_some_iff.mp hk)
      split
      · exact hrest
      · exact List.forall_mem_cons.mpr ⟨.type _, hrest⟩
    case h_4 hk =>
      obtain rfl := List.mem_singleton.mp (ofKey?_eq_some_iff.mp hk)
      split
      · refine List.forall_mem_cons.mpr ⟨.positions ?_, hrest⟩
        rw [normalizeItems_eq_map, List.forall_mem_map]
        exact fun item hi => hvalue item (Nat.le_of_lt (sizeOf_item_lt hi))
      · refine List.forall_mem_cons.mpr ⟨.item ?_ (hvalue _ (Nat.le_refl _)), hrest⟩
        intro items
        cases value <;> simp_all [normalize]
    case h_5 hk =>
      split
      · refine List.forall_mem_cons.mpr ⟨.combinator (ofKey?_eq_some_iff.mp hk) ?_, hrest⟩
        rw [normalizeItems_eq_map, List.forall_mem_map]
        exact fun branch hb => hvalue branch (Nat.le_of_lt (sizeOf_item_lt hb))
      · exact hrest
    case h_6 hk =>
      obtain rfl := List.mem_singleton.mp (ofKey?_eq_some_iff.mp hk)
      split
      · refine List.forall_mem_cons.mpr ⟨.properties ?_, hrest⟩
        rw [normalizeProperties_eq_map, List.forall_mem_map]
        exact fun property hp => hvalue _ (Nat.le_of_lt (sizeOf_value_lt hp))
      · exact hrest

theorem isNormal_normalize (tree : Json) : IsNormal (normalize tree) := by
  induction hn : sizeOf tree using Nat.strongRecOn generalizing tree with
  | _ n ih =>
    subst hn
    cases tree with
    | null | bool | num | str | arr =>
      apply IsNormal.leaf
      simp [normalize]
    | obj members =>
      rw [normalize]
      apply IsNormal.node
      · apply isStructural_of_mem_normalizeMembers
        exact fun member hm part hp => ih _ (Nat.lt_of_le_of_lt hp (sizeOf_value_lt hm)) part rfl
      · rintro ⟨combinator, hc, hk⟩
        obtain ⟨value, hv⟩ := key_of_mem_normalizeMembers hc
        have hcombined : hasCombinator members = true := hasCombinator_iff.mpr ⟨_, hv, hk⟩
        rw [hcombined]
        exact fun member => key_ne_type_of_combined

theorem isByteText_of_isStructural
    (h : ∀ member ∈ members, IsStructural member.1 member.2) : isByteText members = false := by
  have hformat : members.lookup "format" = none := by
    rw [List.lookup_eq_none_iff]
    intro member hm
    rw [bne_iff_ne]
    intro heq
    have hkey := h member hm
    generalize member.1 = key, member.2 = value at heq hkey
    cases hkey with
    | combinator hk => exact absurd hk (heq ▸ by decide)
    | _ => exact absurd heq (by decide)
  simp [isByteText, hformat]

theorem normalizeMembers_of_isStructural
    (ih : ∀ member ∈ members, ∀ part, sizeOf part ≤ sizeOf member.2 → IsNormal part →
      normalize part = part)
    (h : ∀ member ∈ members, IsStructural member.1 member.2)
    (ht : combined = true → ∀ member ∈ members, member.1 ≠ "type") :
    normalizeMembers combined false members = members := by
  induction members with
  | nil => rw [normalizeMembers]
  | cons head rest step =>
    obtain ⟨key, value⟩ := head
    obtain ⟨hvalue, ih⟩ := List.forall_mem_cons.mp ih
    obtain ⟨hhead, h⟩ := List.forall_mem_cons.mp h
    have hrest := step ih h fun hc => (List.forall_mem_cons.mp (ht hc)).2
    have hitems {items : List Json} (hv : value = .arr items) (hi : ∀ item ∈ items, IsNormal item) :
        normalizeItems items = items := by
      subst hv
      rw [normalizeItems_eq_map]
      refine (List.map_congr_left fun item hm => ?_).trans (List.map_id items)
      exact hvalue item (Nat.le_of_lt (sizeOf_item_lt hm)) (hi item hm)
    clear step ih h
    unfold normalizeMembers
    cases hhead with
    | type =>
      cases combined with
      | false => simp [ofKey?, hrest]
      | true => exact absurd rfl (List.forall_mem_cons.mp (ht rfl)).1
    | required => simp [ofKey?, hrest]
    | positions hi => simp [ofKey?, hrest, hitems rfl hi]
    | item ha hi => simp [ofKey?, hrest, hvalue value (Nat.le_refl _) hi]
    | combinator hk hb =>
      have hcombinator : ofKey? key = some .combinator := ofKey?_eq_some_iff.mpr hk
      simp [hcombinator, hrest, hitems rfl hb]
    | @properties properties hp =>
      have hproperties : normalizeProperties properties = properties := by
        rw [normalizeProperties_eq_map]
        refine (List.map_congr_left fun property hm => ?_).trans (List.map_id properties)
        rw [hvalue property.2 (Nat.le_of_lt (sizeOf_value_lt hm)) (hp property hm), id]
      simp [ofKey?, hrest, hproperties]

theorem normalize_of_isNormal (h : IsNormal tree) : normalize tree = tree := by
  induction hn : sizeOf tree using Nat.strongRecOn generalizing tree with
  | _ n ih =>
    subst hn
    cases tree with
    | null | bool | num | str | arr => rw [normalize]; simp
    | obj members =>
      cases h with
      | leaf h => exact absurd rfl (h members)
      | node hm ht =>
        rw [normalize, isByteText_of_isStructural hm, normalizeMembers_of_isStructural ?_ hm ?_]
        · exact fun member hm part hp h =>
            ih _ (Nat.lt_of_le_of_lt hp (sizeOf_value_lt hm)) h rfl
        · exact fun hc => ht (hasCombinator_iff.mp hc)

theorem normalize_eq_self_iff : normalize tree = tree ↔ IsNormal tree :=
  ⟨fun h => h ▸ isNormal_normalize tree, normalize_of_isNormal⟩

theorem normalize_normal_form (tree : Json) :
    IsNormal (normalize tree) ∧ (normalize tree = tree ↔ IsNormal tree) ∧
      normalize (normalize tree) = normalize tree :=
  ⟨isNormal_normalize tree, normalize_eq_self_iff, normalize_of_isNormal (isNormal_normalize tree)⟩

end NaturalFunctions.Schema
