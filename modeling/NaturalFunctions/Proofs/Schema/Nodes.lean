import NaturalFunctions.Proofs.Schema.NormalForm

namespace NaturalFunctions

namespace Json

def fields : Json → List (String × Json)
  | .obj members => members
  | _ => []

theorem get?_eq_lookup (key : String) (tree : Json) : tree.get? key = tree.fields.lookup key := by
  cases tree <;> rfl

end Json

theorem lookup_filterMap {f : String × Json → Option (String × Json)} {key : String}
    {members : List (String × Json)} (change : Json → Json)
    (hf : ∀ member changed, f member = some changed → changed.1 = member.1)
    (hk : ∀ value, members.lookup key = some value → f (key, value) = some (key, change value)) :
    (members.filterMap f).lookup key = (members.lookup key).map change := by
  induction members with
  | nil => rfl
  | cons head rest ih =>
    obtain ⟨name, value⟩ := head
    by_cases hname : key = name
    · subst hname
      have hlookup : ((key, value) :: rest).lookup key = some value := List.lookup_cons_self
      rw [List.filterMap_cons_some (hk value hlookup), hlookup, List.lookup_cons_self,
        Option.map_some]
    · have hskip {entry : String × Json} (he : entry.1 = name) (entries : List (String × Json)) :
          (entry :: entries).lookup key = entries.lookup key := by
        obtain ⟨other, value⟩ := entry
        obtain rfl : other = name := he
        rw [List.lookup_cons, beq_false_of_ne hname]
      rw [hskip rfl] at hk ⊢
      rw [List.filterMap_cons]
      split
      · exact ih hk
      · rename_i changed hc
        rw [hskip (hf _ _ hc), ih hk]

namespace Schema

inductive Step where
  | position (index : Nat)
  | item
  | branch (key : String) (index : Nat)
  | property (name : String)
deriving DecidableEq, Repr

inductive Follows : Step → Json → Json → Prop
  | position {tree part : Json} {entries : List Json} {index : Nat}
      (hm : ("items", .arr entries) ∈ tree.fields) (hi : entries[index]? = some part) :
      Follows (.position index) tree part
  | item {tree part : Json} (hm : ("items", part) ∈ tree.fields)
      (ha : ∀ entries, part ≠ .arr entries) : Follows .item tree part
  | branch {tree part : Json} {key : String} {branches : List Json} {index : Nat}
      (hk : key ∈ combinators) (hm : (key, .arr branches) ∈ tree.fields)
      (hi : branches[index]? = some part) : Follows (.branch key index) tree part
  | property {tree part : Json} {properties : List (String × Json)} {name : String}
      (hm : ("properties", .obj properties) ∈ tree.fields) (hp : (name, part) ∈ properties) :
      Follows (.property name) tree part

inductive NodeAt : Json → List Step → Json → Prop
  | root {tree : Json} : NodeAt tree [] tree
  | step {tree part node : Json} {step : Step} {path : List Step} (hf : Follows step tree part)
      (h : NodeAt part path node) : NodeAt tree (step :: path) node

def reduceValue? (combined byte : Bool) : Keyword → Json → Option Json
  | .required, value => some value
  | .type, value => if combined then none else some (if byte then .str "number" else value)
  | .items, .arr entries => some (.arr (entries.map normalize))
  | .items, entry => some (normalize entry)
  | .combinator, .arr branches => some (.arr (branches.map normalize))
  | .combinator, _ => none
  | .properties, .obj properties =>
    some (.obj (properties.map fun property => (property.1, normalize property.2)))
  | .properties, _ => none

def reduce? (combined byte : Bool) (member : String × Json) : Option (String × Json) :=
  (Keyword.ofKey? member.1).bind fun keyword =>
    (reduceValue? combined byte keyword member.2).map (Prod.mk member.1)

variable {tree part node : Json} {step : Step} {path : List Step} {key : String}
  {members : List (String × Json)} {combined byte : Bool}

theorem normalizeMembers_eq_filterMap (combined byte : Bool) (members : List (String × Json)) :
    normalizeMembers combined byte members = members.filterMap (reduce? combined byte) := by
  induction members with
  | nil => rw [normalizeMembers, List.filterMap_nil]
  | cons head rest ih =>
    obtain ⟨key, value⟩ := head
    rw [List.filterMap_cons, reduce?]
    unfold normalizeMembers
    rw [ih]
    rcases Keyword.ofKey? key with _ | _ | _ | _ | _ | _
    case none | some.required => rfl
    case some.type => cases combined <;> rfl
    case some.items | some.combinator =>
      cases value <;> simp only [Option.bind, reduceValue?, normalizeItems_eq_map, Option.map]
    case some.properties =>
      cases value <;> simp only [Option.bind, reduceValue?, normalizeProperties_eq_map, Option.map]

theorem fields_normalize (tree : Json) : (normalize tree).fields =
    tree.fields.filterMap (reduce? (hasCombinator tree.fields) (isByteText tree.fields)) := by
  cases tree with
  | obj members =>
    rw [normalize, normalizeMembers_eq_filterMap]
    rfl
  | null | bool | num | str | arr => simp [normalize, Json.fields]

theorem reduce?_key {member reduced : String × Json}
    (h : reduce? combined byte member = some reduced) : reduced.1 = member.1 := by
  simp only [reduce?, Option.bind_eq_some_iff, Option.map_eq_some_iff] at h
  obtain ⟨_, -, _, -, rfl⟩ := h
  rfl

theorem reduce?_arr {entries : List Json} (hk : key ∈ "items" :: combinators) :
    reduce? combined byte (key, .arr entries) = some (key, .arr (entries.map normalize)) := by
  rcases List.mem_cons.mp hk with rfl | hk
  · rfl
  · have hcombinator : Keyword.ofKey? key = some .combinator := Keyword.ofKey?_eq_some_iff.mpr hk
    rw [reduce?, hcombinator]
    rfl

theorem reduce?_properties {properties : List (String × Json)} :
    reduce? combined byte ("properties", .obj properties) = some ("properties",
      .obj (properties.map fun property => (property.1, normalize property.2))) :=
  rfl

theorem reduce?_item (ha : ∀ entries, part ≠ .arr entries) :
    reduce? combined byte ("items", part) = some ("items", normalize part) := by
  cases part with
  | arr entries => exact absurd rfl (ha entries)
  | null | bool | num | str | obj => rfl

theorem normalize_ne_arr (ha : ∀ entries, part ≠ .arr entries) (entries : List Json) :
    normalize part ≠ .arr entries := by
  cases part with
  | arr entries => exact absurd rfl (ha entries)
  | null | bool | num | str | obj => simp [normalize]

theorem mem_fields_normalize {value change : Json} (hm : (key, value) ∈ tree.fields)
    (hr : ∀ combined byte, reduce? combined byte (key, value) = some (key, change)) :
    (key, change) ∈ (normalize tree).fields := by
  rw [fields_normalize]
  exact List.mem_filterMap.mpr ⟨_, hm, hr _ _⟩

theorem get?_normalize {value change : Json} (h : tree.get? key = some value)
    (hr : ∀ combined byte, reduce? combined byte (key, value) = some (key, change)) :
    (normalize tree).get? key = some change := by
  rw [Json.get?_eq_lookup] at h ⊢
  rw [fields_normalize, lookup_filterMap (fun _ => change) (fun _ _ => reduce?_key), h,
    Option.map_some]
  intro other ho
  obtain rfl := Option.some.inj (h.symm.trans ho)
  exact hr _ _

theorem Follows.normalize (h : Follows step tree part) :
    Follows step (normalize tree) (normalize part) := by
  cases h with
  | position hm hi =>
    exact .position (mem_fields_normalize hm fun _ _ => reduce?_arr List.mem_cons_self)
      (by simp [hi])
  | item hm ha =>
    exact .item (mem_fields_normalize hm fun _ _ => reduce?_item ha) (normalize_ne_arr ha)
  | branch hk hm hi =>
    exact .branch hk (mem_fields_normalize hm fun _ _ => reduce?_arr (List.mem_cons_of_mem _ hk))
      (by simp [hi])
  | property hm hp =>
    exact .property (mem_fields_normalize hm fun _ _ => reduce?_properties)
      (List.mem_map.mpr ⟨_, hp, rfl⟩)

theorem NodeAt.trans {inner : List Step} {deeper : Json} (h : NodeAt tree path node)
    (hi : NodeAt node inner deeper) : NodeAt tree (path ++ inner) deeper := by
  induction h with
  | root => exact hi
  | step hf _ ih => exact .step hf (ih hi)

theorem NodeAt.normalize (h : NodeAt tree path node) :
    NodeAt (normalize tree) path (normalize node) := by
  induction h with
  | root => exact .root
  | step hf _ ih => exact .step hf.normalize ih

theorem sizeOf_lt_of_mem_fields {value : Json} (h : (key, value) ∈ tree.fields) :
    sizeOf value < sizeOf tree := by
  cases tree with
  | obj members => exact sizeOf_value_lt h
  | null | bool | num | str | arr => cases h

theorem Follows.sizeOf_lt (h : Follows step tree part) : sizeOf part < sizeOf tree := by
  cases h with
  | position hm hi =>
    exact Nat.lt_trans (sizeOf_item_lt (List.mem_of_getElem? hi)) (sizeOf_lt_of_mem_fields hm)
  | item hm _ => exact sizeOf_lt_of_mem_fields hm
  | branch _ hm hi =>
    exact Nat.lt_trans (sizeOf_item_lt (List.mem_of_getElem? hi)) (sizeOf_lt_of_mem_fields hm)
  | property hm hp => exact Nat.lt_trans (sizeOf_value_lt hp) (sizeOf_lt_of_mem_fields hm)

theorem forall_nodeAt_iff {P : Json → Prop} : (∀ path node, NodeAt tree path node → P node) ↔
    P tree ∧ ∀ step part, Follows step tree part → ∀ path node, NodeAt part path node → P node := by
  constructor
  · intro h
    exact ⟨h [] tree .root, fun step part hf path node hn => h _ node (.step hf hn)⟩
  · rintro ⟨hroot, hparts⟩ path node hn
    cases hn with
    | root => exact hroot
    | step hf hn => exact hparts _ _ hf _ node hn

end Schema

end NaturalFunctions
