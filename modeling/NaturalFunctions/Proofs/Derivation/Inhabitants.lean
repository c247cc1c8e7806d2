import NaturalFunctions.Proofs.Derivation.DescriptorOutline
import NaturalFunctions.Proofs.Schema.Validity

namespace NaturalFunctions

def PrimitiveKind.Holds : PrimitiveKind → Json → Prop
  | .boolean, .bool _ => True
  | .int, .num number => number.isIntegral = true
  | .byte, .num _ => True
  | .float, .num _ => True
  | .decimal, .num _ => True
  | .string, .str _ => True
  | .nil, .null => True
  | _, _ => False

namespace Definitions

/-- The values of a type, with a condition on each value that stands where the type has a union. -/
inductive Inhabits (defs : Definitions) (Choice : Json → Prop) : Descriptor → Json → Prop
  | primitive {kind : PrimitiveKind} {value : Json} (h : kind.Holds value) :
      Inhabits defs Choice (.primitive kind) value
  | json {value : Json} : Inhabits defs Choice .json value
  | array {element : Descriptor} {values : List Json}
      (h : ∀ value ∈ values, Inhabits defs Choice element value) :
      Inhabits defs Choice (.array element) (.arr values)
  | tuple {members : List Descriptor} {values : List Json} (hl : members.length = values.length)
      (h : ∀ pair ∈ members.zip values, Inhabits defs Choice pair.1 pair.2) :
      Inhabits defs Choice (.tuple members) (.arr values)
  | union {members : List Descriptor} {member : Descriptor} {value : Json} (hc : Choice value)
      (hm : member ∈ members) (h : Inhabits defs Choice member value) :
      Inhabits defs Choice (.union members) value
  | reference {i : Nat} {body : Descriptor} {value : Json} (hb : defs.body? i = some body)
      (h : Inhabits defs Choice body value) : Inhabits defs Choice (.reference i) value

def Reaches (defs : Definitions) : Descriptor → Descriptor → Prop :=
  Relation.ReflTransGen (Function.swap (Below defs.outline))

def Unattached (defs : Definitions) (type : Descriptor) : Prop :=
  ∀ i, defs.Reaches type (.reference i) → defs.schema? i = none

end Definitions

def Json.IsObject (value : Json) : Prop := ∃ members, value = .obj members

open Schema

theorem PrimitiveKind.hasKind_iff {kind : PrimitiveKind} {value : Json} :
    value.hasKind kind.jsonType = true ↔ kind.Holds value := by
  cases kind <;> cases value <;> simp [Json.hasKind, PrimitiveKind.jsonType, PrimitiveKind.Holds]

theorem forall_zip_congr {α : Type} {P : Schema → Json → Prop} {Q : α → Json → Prop}
    {members : List α} {items : List Schema} {values : List Json}
    (hl : members.length = items.length)
    (h : ∀ pair ∈ members.zip items, ∀ value, (pair.1, value) ∈ members.zip values →
      (P pair.2 value ↔ Q pair.1 value)) :
    (∀ pair ∈ items.zip values, P pair.1 pair.2) ↔
      ∀ pair ∈ members.zip values, Q pair.1 pair.2 := by
  induction members generalizing items values with
  | nil =>
    obtain rfl := List.length_eq_zero_iff.mp hl.symm
    simp
  | cons member members ih =>
    cases items with
    | nil => cases hl
    | cons item items =>
      cases values with
      | nil => simp
      | cons value values =>
        simp only [List.zip_cons_cons, List.forall_mem_cons] at h ⊢
        refine and_congr (h.1 value List.mem_cons_self) (ih (Nat.succ.inj hl) ?_)
        exact fun pair hp value hv => h.2 pair hp value (List.mem_cons_of_mem _ hv)

namespace Definitions

variable {defs : Definitions} {Choice Choice' : Json → Prop} {type part : Descriptor}
  {value : Json} {schema : Schema}

theorem inhabits_array_iff {element : Descriptor} {values : List Json} :
    Inhabits defs Choice (.array element) (.arr values) ↔
      ∀ value ∈ values, Inhabits defs Choice element value := by
  refine ⟨fun h => ?_, .array⟩
  cases h with
  | array h => exact h

theorem inhabits_tuple_iff {members : List Descriptor} {values : List Json}
    (hl : members.length = values.length) :
    Inhabits defs Choice (.tuple members) (.arr values) ↔
      ∀ pair ∈ members.zip values, Inhabits defs Choice pair.1 pair.2 := by
  refine ⟨fun h => ?_, .tuple hl⟩
  cases h with
  | tuple _ h => exact h

theorem inhabits_reference_iff {i : Nat} {body : Descriptor} (hb : defs.body? i = some body) :
    Inhabits defs Choice (.reference i) value ↔ Inhabits defs Choice body value := by
  refine ⟨fun h => ?_, .reference hb⟩
  cases h with
  | reference hb' h => exact Option.some.inj (hb.symm.trans hb') ▸ h

theorem Inhabits.mono (hc : ∀ value, Choice value → Choice' value)
    (h : Inhabits defs Choice type value) : Inhabits defs Choice' type value := by
  induction h with
  | primitive h => exact .primitive h
  | json => exact .json
  | array _ ih => exact .array ih
  | tuple hl _ ih => exact .tuple hl ih
  | union hv hm _ ih => exact .union (hc _ hv) hm ih
  | reference hb _ ih => exact .reference hb ih

theorem Inhabits.of_object (h : Inhabits defs Choice type value) (ho : value.IsObject) :
    Inhabits defs Json.IsObject type value := by
  induction h with
  | primitive h => exact .primitive h
  | json => exact .json
  | array | tuple =>
    obtain ⟨members, ho⟩ := ho
    cases ho
  | union _ hm _ ih => exact .union ho hm (ih ho)
  | reference hb _ ih => exact .reference hb (ih ho)

theorem Unattached.of_part (h : defs.Unattached type) (hp : part ∈ (defs.outline type).parts) :
    defs.Unattached part := fun i hr => h i (hr.head hp)

theorem Unattached.below_of_body {i : Nat} {body : Descriptor} (h : defs.Unattached (.reference i))
    (hb : defs.body? i = some body) : Below defs.outline body (.reference i) := by
  simp [Below, outline, h i .refl, hb, Outline.parts]

theorem Inhabits.of_no_union (h : Inhabits defs Choice type value)
    (hn : ∀ members, ¬ defs.Reaches type (.union members)) (hu : defs.Unattached type) :
    Inhabits defs Choice' type value := by
  induction h with
  | primitive h => exact .primitive h
  | json => exact .json
  | array _ ih =>
    exact .array fun value hv => ih value hv
      (fun members hr => hn members (hr.head List.mem_cons_self))
      (hu.of_part List.mem_cons_self)
  | tuple hl _ ih =>
    refine .tuple hl fun pair hp => ?_
    have hpart := (List.of_mem_zip hp).1
    exact ih pair hp (fun members hr => hn members (hr.head hpart)) (hu.of_part hpart)
  | union => exact absurd .refl (hn _)
  | reference hb _ ih =>
    have hp := hu.below_of_body hb
    exact .reference hb (ih (fun members hr => hn members (hr.head hp)) (hu.of_part hp))

theorem Unattached.outline_inv (h : defs.Unattached type) :
    match defs.outline type with
    | .known schema? => ∀ schema, schema? = some schema →
      (∃ kind, type = .primitive kind ∧ schema = primitive kind) ∨ type = .json ∧ schema = anyJson
    | .array element => type = .array element
    | .tuple members => type = .tuple members
    | .union members => type = .union members
    | .same body => ∃ i, type = .reference i ∧ defs.body? i = some body := by
  cases type with
  | reference i =>
    have hs := h i .refl
    cases hb : defs.body? i <;> simp [outline, hs, hb]
  | primitive | record | array | tuple | union | json | error | other => simp [outline]

theorem ne_arr_of_describes (h : Describes defs.outline type schema) (hu : defs.Unattached type)
    (entries : List Json) : schema ≠ .arr entries := by
  induction h with
  | known h =>
    have hinv := hu.outline_inv
    rw [h] at hinv
    rcases hinv _ rfl with ⟨kind, -, rfl⟩ | ⟨-, rfl⟩ <;> simp [primitive, anyJson]
  | array | tuple | union => simp [arrayOf, tupleOf, anyOf]
  | same h _ ih => exact ih (hu.of_part (by simp [h, Outline.parts]))

theorem admits_iff_of_describes (hd : Describes defs.outline type schema)
    (hu : defs.Unattached type) (hx : defs.Inhabits (fun _ => True) type value) :
    admits schema value = true ↔ defs.Inhabits Json.IsObject type value := by
  induction hd generalizing value with
  | @known type schema h =>
    have hinv := hu.outline_inv
    rw [h] at hinv
    obtain ⟨kind, rfl, rfl⟩ | ⟨rfl, rfl⟩ := hinv _ rfl
    · cases hx with
      | primitive hk =>
        simp only [admits_primitive_iff, PrimitiveKind.hasKind_iff, hk, Inhabits.primitive]
    · simp only [admits_anyJson, Inhabits.json]
  | @array type element items h he ih =>
    have hinv := hu.outline_inv
    rw [h] at hinv
    obtain rfl := hinv
    have hpart : defs.Unattached element := hu.of_part (List.mem_singleton_self element)
    cases hx with
    | array hv =>
      rw [admits_arrayOf_iff (ne_arr_of_describes he hpart), inhabits_array_iff]
      exact forall₂_congr fun value hm => ih hpart (hv value hm)
  | @tuple type members items h hl hm ih =>
    have hinv := hu.outline_inv
    rw [h] at hinv
    obtain rfl := hinv
    cases hx with
    | @tuple _ values hlen hv =>
      have hpair : ∀ pair ∈ members.zip items, ∀ value, (pair.1, value) ∈ members.zip values →
          (admits pair.2 value = true ↔ defs.Inhabits Json.IsObject pair.1 value) := by
        intro pair hp value hpv
        exact ih pair hp (hu.of_part (List.of_mem_zip hp).1) (hv _ hpv)
      rw [admits_tupleOf_iff, forall_zip_congr (P := fun item value => admits item value = true)
        (Q := defs.Inhabits Json.IsObject) hl hpair, inhabits_tuple_iff hlen]
  | @union type members branches h hl hm ih =>
    have hinv := hu.outline_inv
    rw [h] at hinv
    obtain rfl := hinv
    rw [admits_anyOf_iff]
    constructor
    · -- the branch that admits the object need not be the one of the member it inhabits
      rintro ⟨-, hobject⟩
      exact hx.of_object hobject
    · intro hin
      cases hin with
      | @union _ member _ hobject hmember hin =>
        obtain ⟨branch, hb⟩ := exists_mem_zip hl hmember
        refine ⟨⟨branch, (List.of_mem_zip hb).2, ?_⟩, hobject⟩
        exact (ih _ hb (hu.of_part (by simpa [outline, Outline.parts] using hmember))
          (hin.mono fun _ _ => trivial)).mpr hin
  | @same type body schema h hb ih =>
    have hinv := hu.outline_inv
    rw [h] at hinv
    obtain ⟨i, rfl, hbody⟩ := hinv
    rw [inhabits_reference_iff hbody] at hx ⊢
    exact ih (hu.of_part (by simp [h, Outline.parts])) hx

theorem admits_derive_iff (hu : defs.Unattached type) (hd : defs.derive type = some schema)
    (hx : defs.Inhabits (fun _ => True) type value) :
    (admits schema value = true ↔ defs.Inhabits Json.IsObject type value) ∧
    ((∀ members, ¬ defs.Reaches type (.union members)) → admits schema value = true) := by
  have hiff := admits_iff_of_describes (defs.derive_eq_some_iff.mp hd) hu hx
  exact ⟨hiff, fun hn => hiff.mpr (hx.of_no_union hn hu)⟩

def totalsDefinitions : Definitions := [⟨"Totals", some (.array (.primitive .int)), none⟩]

def totalsType : Descriptor := .tuple [.reference 0, .union [.json, .nil]]

def totalsSchema : Schema :=
  tupleOf [arrayOf (primitive .int), anyOf [anyJson, primitive .nil]]

def totalsWith (note : Json) : Json := .arr [.arr [Json.ofNat 2, Json.ofNat 3], note]

theorem unattached_totals (type : Descriptor) : totalsDefinitions.Unattached type := by
  intro i _
  cases i <;> rfl

theorem inhabits_totals {Choice : Json → Prop} {note : Json} (h : Choice note) :
    totalsDefinitions.Inhabits Choice totalsType (totalsWith note) := by
  refine .tuple rfl (List.forall_mem_cons.mpr ⟨?_, List.forall_mem_singleton.mpr ?_⟩)
  · refine .reference rfl (.array ?_)
    exact List.forall_mem_cons.mpr ⟨.primitive rfl, List.forall_mem_singleton.mpr (.primitive rfl)⟩
  · exact .union h List.mem_cons_self .json

theorem admits_derive_iff_totals :
    totalsDefinitions.Unattached totalsType ∧
    totalsDefinitions.derive totalsType = some totalsSchema ∧
    totalsDefinitions.Inhabits (fun _ => True) totalsType (totalsWith (.obj [("cents", .null)])) ∧
    admits totalsSchema (totalsWith (.obj [("cents", .null)])) = true ∧
    totalsDefinitions.Inhabits (fun _ => True) totalsType (totalsWith .null) ∧
    admits totalsSchema (totalsWith .null) = false ∧
    ¬ totalsDefinitions.Inhabits Json.IsObject totalsType (totalsWith .null) := by
  have hu := unattached_totals totalsType
  have hd : totalsDefinitions.derive totalsType = some totalsSchema := by
    rw [derive_eq_some_iff]
    refine .tuple rfl rfl (List.forall_mem_cons.mpr ⟨?_, List.forall_mem_singleton.mpr ?_⟩)
    · exact .same rfl (.array rfl (.known rfl))
    · exact .union rfl rfl
        (List.forall_mem_cons.mpr ⟨.known rfl, List.forall_mem_singleton.mpr (.known rfl)⟩)
  have hany (note : Json) :
      totalsDefinitions.Inhabits (fun _ => True) totalsType (totalsWith note) :=
    inhabits_totals trivial
  have hnull : admits totalsSchema (totalsWith .null) = false := by decide
  refine ⟨hu, hd, hany _, ?_, hany _, hnull, ?_⟩
  · exact (admits_derive_iff hu hd (hany _)).1.mpr (inhabits_totals ⟨_, rfl⟩)
  · intro hin
    exact Bool.false_ne_true (hnull.symm.trans ((admits_derive_iff hu hd (hany _)).1.mpr hin))

theorem derive_union_rejects_number :
    Unattached [] (.union [.primitive .int, .primitive .string]) ∧
    derive [] (.union [.primitive .int, .primitive .string]) =
      some (anyOf [primitive .int, primitive .string]) ∧
    Inhabits [] (fun _ => True) (.union [.primitive .int, .primitive .string]) (Json.ofNat 5) ∧
    admits (anyOf [primitive .int, primitive .string]) (Json.ofNat 5) = false := by
  refine ⟨fun _ _ => rfl, ?_, .union trivial List.mem_cons_self (.primitive rfl), by decide⟩
  rw [derive_eq_some_iff]
  exact .union rfl rfl
    (List.forall_mem_cons.mpr ⟨.known rfl, List.forall_mem_singleton.mpr (.known rfl)⟩)

end Definitions

end NaturalFunctions
