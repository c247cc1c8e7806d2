/-!
Tables keyed by text: lists of entries whose keys increase strictly by code point. Looking up is
`List.lookup`; `put` keeps the order and lets the last value of a key win.
-/

namespace NaturalFunctions.Table

variable {α β : Type}

def put (key : String) (value : α) : List (String × α) → List (String × α)
  | [] => [(key, value)]
  | (k, v) :: rest =>
    if key < k then (key, value) :: (k, v) :: rest
    else if key = k then (key, value) :: rest
    else (k, v) :: put key value rest

def ofList (entries : List (String × α)) : List (String × α) :=
  entries.foldl (fun table entry => put entry.1 entry.2 table) []

def Sorted (table : List (String × α)) : Prop :=
  table.Pairwise (fun a b => a.1 < b.1)

theorem lookup_put_self (key : String) (value : α) (table : List (String × α)) :
    (put key value table).lookup key = some value := by
  induction table with
  | nil => simp [put]
  | cons entry rest ih =>
    obtain ⟨k, v⟩ := entry
    rw [put]
    split
    · simp
    · split
      · simp
      · rename_i h
        have hk : (key == k) = false := by simpa using h
        simp [List.lookup_cons, hk, ih]

theorem lookup_put_of_ne {key other : String} (value : α) (h : other ≠ key)
    (table : List (String × α)) : (put key value table).lookup other = table.lookup other := by
  have hb : (other == key) = false := by simpa using h
  induction table with
  | nil => simp [put, List.lookup_cons, hb]
  | cons entry rest ih =>
    obtain ⟨k, v⟩ := entry
    rw [put]
    split
    · simp [List.lookup_cons, hb]
    · split
      · rename_i he
        subst he
        simp [List.lookup_cons, hb]
      · simp [List.lookup_cons, ih]

theorem of_mem_put {key : String} {value : α} {entry : String × α} {table : List (String × α)}
    (h : entry ∈ put key value table) : entry = (key, value) ∨ entry ∈ table := by
  induction table with
  | nil => exact Or.inl (List.mem_singleton.mp h)
  | cons head rest ih =>
    obtain ⟨k, v⟩ := head
    rw [put] at h
    split at h
    · exact List.mem_cons.mp h
    · split at h
      · exact (List.mem_cons.mp h).imp_right (List.mem_cons_of_mem _)
      · rcases List.mem_cons.mp h with rfl | h
        · exact Or.inr List.mem_cons_self
        · exact (ih h).imp_right (List.mem_cons_of_mem _)

theorem mem_of_mem_ofList {entry : String × α} {entries : List (String × α)}
    (h : entry ∈ ofList entries) : entry ∈ entries := by
  have hfold : ∀ table : List (String × α),
      entry ∈ entries.foldl (fun table entry => put entry.1 entry.2 table) table →
        entry ∈ entries ∨ entry ∈ table := by
    clear h
    induction entries with
    | nil => exact fun table => Or.inr
    | cons head rest ih =>
      intro table h
      rcases ih _ h with h | h
      · exact Or.inl (List.mem_cons_of_mem head h)
      · rcases of_mem_put h with rfl | h
        · exact Or.inl List.mem_cons_self
        · exact Or.inr h
  exact (hfold [] h).resolve_right List.not_mem_nil

theorem Sorted.put {key : String} {value : α} {table : List (String × α)} (h : Sorted table) :
    Sorted (put key value table) := by
  induction table with
  | nil => exact List.pairwise_singleton _ _
  | cons head rest ih =>
    obtain ⟨k, v⟩ := head
    obtain ⟨hhead, hrest⟩ := List.pairwise_cons.mp h
    rw [Table.put]
    split
    · rename_i hlt
      refine List.pairwise_cons.mpr ⟨fun entry he => ?_, h⟩
      rcases List.mem_cons.mp he with rfl | he
      · exact hlt
      · exact String.lt_trans hlt (hhead entry he)
    · split
      · rename_i heq
        subst heq
        exact List.pairwise_cons.mpr ⟨hhead, hrest⟩
      · rename_i hlt hne
        have hk : k < key := String.not_le.mp fun hle =>
          hne (String.le_antisymm hle (String.not_lt.mp hlt))
        refine List.pairwise_cons.mpr ⟨fun entry he => ?_, ih hrest⟩
        rcases of_mem_put he with rfl | he
        · exact hk
        · exact hhead entry he

theorem Sorted.mem_iff_lookup {key : String} {value : α} {table : List (String × α)}
    (h : Sorted table) : (key, value) ∈ table ↔ table.lookup key = some value := by
  induction table with
  | nil => simp
  | cons head rest ih =>
    obtain ⟨k, v⟩ := head
    obtain ⟨hhead, hrest⟩ := List.pairwise_cons.mp h
    by_cases hk : key = k
    · subst hk
      have hnot : (key, value) ∉ rest := fun hm => String.lt_irrefl key (hhead _ hm)
      simp [hnot, eq_comm]
    · have hb : (key == k) = false := by simpa using hk
      rw [List.lookup_cons, hb, ← ih hrest, List.mem_cons]
      simp [hk]

end NaturalFunctions.Table
