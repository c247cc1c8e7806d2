import Mathlib.Data.List.Induction
import NaturalFunctions.Table

namespace NaturalFunctions.Table

variable {α : Type} {key : String} {value : α} {table entries entries' : List (String × α)}

theorem sorted_iff_keys : Sorted table ↔ (table.map Prod.fst).Pairwise (· < ·) :=
  List.pairwise_map.symm

theorem ofList_append_singleton (entries : List (String × α)) (entry : String × α) :
    ofList (entries ++ [entry]) = put entry.1 entry.2 (ofList entries) := by
  rw [ofList, List.foldl_append]
  rfl

theorem sorted_ofList (entries : List (String × α)) : Sorted (ofList entries) := by
  induction entries using List.reverseRecOn with
  | nil => exact List.Pairwise.nil
  | append_singleton before entry ih =>
    rw [ofList_append_singleton]
    exact ih.put

theorem put_of_forall_lt (h : ∀ entry ∈ table, entry.1 < key) :
    put key value table = table ++ [(key, value)] := by
  induction table with
  | nil => rfl
  | cons head rest ih =>
    obtain ⟨k, v⟩ := head
    obtain ⟨hhead, hrest⟩ := List.forall_mem_cons.mp h
    rw [put, if_neg (String.lt_asymm hhead), if_neg (String.ne_of_lt hhead).symm, ih hrest,
      List.cons_append]

theorem ofList_of_sorted (h : Sorted table) : ofList table = table := by
  induction table using List.reverseRecOn with
  | nil => rfl
  | append_singleton before entry ih =>
    obtain ⟨hbefore, -, hlt⟩ := List.pairwise_append.mp h
    rw [ofList_append_singleton, ih hbefore]
    exact put_of_forall_lt fun earlier he => hlt earlier he entry List.mem_cons_self

theorem lookup_put (key other : String) (value : α) (table : List (String × α)) :
    (put key value table).lookup other = if other = key then some value else table.lookup other := by
  split
  · rename_i h
    rw [h, lookup_put_self]
  · exact lookup_put_of_ne value (by assumption) table

theorem isSome_lookup_ofList {entry : String × α} (h : entry ∈ entries) :
    ((ofList entries).lookup entry.1).isSome = true := by
  induction entries using List.reverseRecOn with
  | nil => cases h
  | append_singleton before last ih =>
    rw [ofList_append_singleton, lookup_put]
    split
    · rfl
    · rename_i hne
      have hlast : entry ∉ [last] := fun hl => hne (congrArg Prod.fst (List.mem_singleton.mp hl))
      exact ih ((List.mem_append.mp h).resolve_right hlast)

theorem mem_of_lookup_ofList (h : (ofList entries).lookup key = some value) :
    (key, value) ∈ entries :=
  mem_of_mem_ofList ((sorted_ofList entries).mem_iff_lookup.mpr h)

theorem mem_keys_ofList :
    key ∈ (ofList entries).map Prod.fst ↔ key ∈ entries.map Prod.fst := by
  constructor
  · intro h
    obtain ⟨entry, he, rfl⟩ := List.mem_map.mp h
    exact List.mem_map_of_mem (mem_of_mem_ofList he)
  · intro h
    obtain ⟨entry, he, rfl⟩ := List.mem_map.mp h
    obtain ⟨value, hv⟩ := Option.isSome_iff_exists.mp (isSome_lookup_ofList he)
    exact List.mem_map.mpr ⟨_, (sorted_ofList entries).mem_iff_lookup.mpr hv, rfl⟩

def keySet (keys : List String) : List String :=
  (ofList (keys.map fun key => (key, ()))).map Prod.fst

theorem mem_keySet {keys : List String} : key ∈ keySet keys ↔ key ∈ keys := by
  rw [keySet, mem_keys_ofList, List.map_map]
  exact Eq.to_iff (congrArg (key ∈ ·) (List.map_id keys))

theorem isEmpty_keySet (keys : List String) : (keySet keys).isEmpty = keys.isEmpty := by
  rw [Bool.eq_iff_iff, List.isEmpty_iff, List.isEmpty_iff, List.eq_nil_iff_forall_not_mem,
    List.eq_nil_iff_forall_not_mem]
  exact forall_congr' fun key => not_congr mem_keySet

theorem pairwise_keySet (keys : List String) : (keySet keys).Pairwise (· < ·) :=
  sorted_iff_keys.mp (sorted_ofList _)

theorem lookup_ofList_of_last {before after : List (String × α)}
    (h : ∀ later ∈ after, later.1 ≠ key) :
    (ofList (before ++ (key, value) :: after)).lookup key = some value := by
  induction after using List.reverseRecOn with
  | nil => rw [ofList_append_singleton, lookup_put_self]
  | append_singleton after last ih =>
    obtain ⟨hafter, hlast⟩ := List.forall_mem_append.mp h
    have hkey : key ≠ last.1 := (hlast last (List.mem_singleton_self last)).symm
    rw [← List.cons_append, ← List.append_assoc, ofList_append_singleton,
      lookup_put_of_ne last.2 hkey]
    exact ih hafter

inductive Supplements (key : String) (P : α → Prop) :
    List (String × α) → List (String × α) → Prop
  | nil : Supplements key P [] []
  | kept {entries entries' : List (String × α)} (entry : String × α)
      (h : Supplements key P entries entries') :
      Supplements key P (entry :: entries) (entry :: entries')
  | added {entries entries' : List (String × α)} {entry : String × α}
      (hv : entry.1 = key → P entry.2) (h : Supplements key P entries entries') :
      Supplements key P entries (entry :: entries')

namespace Supplements

variable {P : α → Prop}

theorem refl (entries : List (String × α)) : Supplements key P entries entries := by
  induction entries with
  | nil => exact .nil
  | cons entry _ ih => exact .kept entry ih

theorem of_nil (h : ∀ entry ∈ entries, entry.1 = key → P entry.2) :
    Supplements key P [] entries := by
  induction entries with
  | nil => exact .nil
  | cons entry rest ih =>
    obtain ⟨hentry, hrest⟩ := List.forall_mem_cons.mp h
    exact .added hentry (ih hrest)

theorem append {others others' : List (String × α)} (h : Supplements key P entries entries')
    (ho : Supplements key P others others') :
    Supplements key P (entries ++ others) (entries' ++ others') := by
  induction h with
  | nil => exact ho
  | kept entry _ ih => exact .kept entry ih
  | added hv _ ih => exact .added hv ih

theorem flatMap {ι : Type} {items : List ι} {f f' : ι → List (String × α)}
    (h : ∀ item ∈ items, Supplements key P (f item) (f' item)) :
    Supplements key P (items.flatMap f) (items.flatMap f') := by
  induction items with
  | nil => exact .nil
  | cons item rest ih =>
    obtain ⟨hitem, hrest⟩ := List.forall_mem_cons.mp h
    rw [List.flatMap_cons, List.flatMap_cons]
    exact hitem.append (ih hrest)

theorem lookup_ofList (h : Supplements key P entries entries') :
    (ofList entries').lookup key = (ofList entries).lookup key ∨
      ∃ value, P value ∧ (ofList entries').lookup key = some value := by
  -- the two tables are filled side by side
  have hfold : ∀ table table' : List (String × α),
      (table'.lookup key = table.lookup key ∨ ∃ value, P value ∧ table'.lookup key = some value) →
        let filled := entries.foldl (fun table entry => put entry.1 entry.2 table) table
        let filled' := entries'.foldl (fun table entry => put entry.1 entry.2 table) table'
        filled'.lookup key = filled.lookup key ∨
          ∃ value, P value ∧ filled'.lookup key = some value := by
    induction h with
    | nil => exact fun table table' => id
    | kept entry _ ih =>
      intro table table' ht
      apply ih
      rw [lookup_put, lookup_put]
      split
      · exact .inl rfl
      · exact ht
    | @added _ _ entry hv _ ih =>
      intro table table' ht
      apply ih
      rw [lookup_put]
      split
      · rename_i hkey
        exact .inr ⟨entry.2, hv hkey.symm, rfl⟩
      · exact ht
  exact hfold [] [] (.inl rfl)

end Supplements

end NaturalFunctions.Table
