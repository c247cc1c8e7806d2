import NaturalFunctions.Json.Basic

namespace NaturalFunctions.Json

def parts : Json → List Json
  | .arr items => items
  | .obj members => members.map Prod.snd
  | .null | .bool _ | .num _ | .str _ => []

/-- The tree and every tree inside it have the property. -/
inductive Throughout (P : Json → Prop) : Json → Prop
  | node {tree : Json} (here : P tree) (below : ∀ part ∈ tree.parts, Throughout P part) :
      Throughout P tree

def Regular : Json → Prop
  | .num (.int value) => -(Nat.pow 2 63 : Int) ≤ value ∧ value < Nat.pow 2 64
  | .obj members => Table.Sorted members
  | .null | .bool _ | .num (.float _) | .str _ | .arr _ => True

def Proper : Json → Prop := Throughout Regular

def FloatFree : Json → Prop := Throughout fun tree => ∀ value, tree ≠ .num (.float value)

mutual

def depth : Json → Nat
  | .arr items => itemsDepth items + 1
  | .obj members => membersDepth members + 1
  | .null | .bool _ | .num _ | .str _ => 0

def itemsDepth : List Json → Nat
  | [] => 0
  | item :: rest => max (depth item) (itemsDepth rest)

def membersDepth : List (String × Json) → Nat
  | [] => 0
  | (_, value) :: rest => max (depth value) (membersDepth rest)

end

variable {P : Json → Prop} {items : List Json} {members : List (String × Json)} {bound : Nat}

theorem throughout_iff {tree : Json} :
    tree.Throughout P ↔ P tree ∧ ∀ part ∈ tree.parts, part.Throughout P := by
  constructor
  · rintro ⟨here, below⟩
    exact ⟨here, below⟩
  · rintro ⟨here, below⟩
    exact .node here below

theorem throughout_arr_iff : (Json.arr items).Throughout P ↔
    P (.arr items) ∧ ∀ item ∈ items, item.Throughout P := throughout_iff

theorem throughout_obj_iff : (Json.obj members).Throughout P ↔
    P (.obj members) ∧ ∀ member ∈ members, member.2.Throughout P :=
  throughout_iff.trans (and_congr_right' List.forall_mem_map)

@[simp] theorem proper_arr_iff : (Json.arr items).Proper ↔ ∀ item ∈ items, item.Proper := by
  simp [Proper, throughout_arr_iff, Regular]

@[simp] theorem proper_obj_iff : (Json.obj members).Proper ↔
    Table.Sorted members ∧ ∀ member ∈ members, member.2.Proper := throughout_obj_iff

@[simp] theorem proper_null : Json.null.Proper := .node trivial (by simp [parts])

@[simp] theorem proper_bool (value : Bool) : (Json.bool value).Proper :=
  .node trivial (by simp [parts])

@[simp] theorem proper_str (text : String) : (Json.str text).Proper :=
  .node trivial (by simp [parts])

@[simp] theorem proper_float (value : Double) : (Json.num (.float value)).Proper :=
  .node trivial (by simp [parts])

@[simp] theorem proper_int_iff {value : Int} : (Json.num (.int value)).Proper ↔
    -(Nat.pow 2 63 : Int) ≤ value ∧ value < Nat.pow 2 64 :=
  throughout_iff.trans (and_iff_left (by simp [parts]))

@[simp] theorem floatFree_arr_iff : (Json.arr items).FloatFree ↔ ∀ item ∈ items, item.FloatFree :=
  throughout_arr_iff.trans (and_iff_right (by simp))

@[simp] theorem floatFree_obj_iff :
    (Json.obj members).FloatFree ↔ ∀ member ∈ members, member.2.FloatFree :=
  throughout_obj_iff.trans (and_iff_right (by simp))

@[simp] theorem floatFree_null : Json.null.FloatFree := .node (by simp) (by simp [parts])

@[simp] theorem floatFree_bool (value : Bool) : (Json.bool value).FloatFree :=
  .node (by simp) (by simp [parts])

@[simp] theorem floatFree_str (text : String) : (Json.str text).FloatFree :=
  .node (by simp) (by simp [parts])

@[simp] theorem floatFree_int (value : Int) : (Json.num (.int value)).FloatFree :=
  .node (by simp) (by simp [parts])

@[simp] theorem not_floatFree_float (value : Double) : ¬ (Json.num (.float value)).FloatFree :=
  fun h => (throughout_iff.mp h).1 value rfl

theorem depth_arr_le_succ_iff :
    (Json.arr items).depth ≤ bound + 1 ↔ ∀ item ∈ items, item.depth ≤ bound := by
  rw [depth, Nat.add_le_add_iff_right]
  induction items with
  | nil => simp [itemsDepth]
  | cons item rest ih => rw [itemsDepth, Nat.max_le, ih, List.forall_mem_cons]

theorem depth_obj_le_succ_iff :
    (Json.obj members).depth ≤ bound + 1 ↔ ∀ member ∈ members, member.2.depth ≤ bound := by
  rw [depth, Nat.add_le_add_iff_right]
  induction members with
  | nil => simp [membersDepth]
  | cons member rest ih => rw [membersDepth, Nat.max_le, ih, List.forall_mem_cons]

end NaturalFunctions.Json
