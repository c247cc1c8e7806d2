import Mathlib.Data.List.Sort
import NaturalFunctions.Proofs.Source.Extraction

namespace NaturalFunctions

open Relation

theorem Table.Sorted.ext {α : Type} {table table' : List (String × α)} (h : Sorted table)
    (h' : Sorted table') (hmem : ∀ entry, entry ∈ table ↔ entry ∈ table') : table = table' := by
  have : Std.Irrefl fun a b : String × α => a.1 < b.1 := ⟨fun a => String.lt_irrefl a.1⟩
  have : Std.Antisymm fun a b : String × α => a.1 < b.1 :=
    ⟨fun a b hab hba => absurd hba (String.lt_asymm hab)⟩
  exact List.Pairwise.eq_of_mem_iff h h' hmem

namespace Extraction

variable {model : SemanticModel} {mapper : StructuralMapper} {attached : List (String × Schema)}
  {state : Extraction} {functions : List FunctionDef} {name : String} {ty next : TypeId}

variable (model) in
def Reached (functions : List FunctionDef) (ty : TypeId) : Prop :=
  ∃ function ∈ functions, ∃ result, function.returns.bind ReturnClause.type = some result ∧
    ReflTransGen model.LeadsTo result ty

variable (model) in
def Covered (visited pending : List TypeId) : Prop :=
  ∀ ty ∈ visited, ∀ next, model.LeadsTo ty next → next ∈ visited ∨ next ∈ pending

theorem visited_subset_walk (pending : List TypeId) :
    state.visited ⊆ (walk model mapper attached state pending).visited :=
  walk_induction (P := fun final => state.visited ⊆ final.visited)
    (fun _ ty h => List.Subset.trans h (List.subset_cons_self ty _)) (List.Subset.refl _)

theorem pending_subset_walk (pending : List TypeId) :
    pending ⊆ (walk model mapper attached state pending).visited := by
  fun_induction walk model mapper attached state pending with
  | case1 => exact List.nil_subset _
  | case2 state ty rest hv ih =>
    exact List.cons_subset.mpr ⟨visited_subset_walk rest hv, ih⟩
  | case3 state ty rest hv ih =>
    refine List.cons_subset.mpr ⟨visited_subset_walk _ List.mem_cons_self, ?_⟩
    exact List.Subset.trans (List.subset_append_right _ rest) ih

theorem covered_walk {pending : List TypeId} (h : Covered model state.visited pending) :
    Covered model (walk model mapper attached state pending).visited [] := by
  fun_induction walk model mapper attached state pending with
  | case1 => exact h
  | case2 state ty rest hv ih =>
    apply ih
    intro other ho next hn
    rcases h other ho next hn with hm | hm
    · exact Or.inl hm
    · rcases List.mem_cons.mp hm with rfl | hm
      · exact Or.inl hv
      · exact Or.inr hm
  | case3 state ty rest hv ih =>
    apply ih
    intro other ho next hn
    rcases List.mem_cons.mp ho with rfl | ho
    · exact Or.inr (List.mem_append_left rest hn)
    · rcases h other ho next hn with hm | hm
      · exact Or.inl (List.mem_cons_of_mem ty hm)
      · rcases List.mem_cons.mp hm with rfl | hm
        · exact Or.inl List.mem_cons_self
        · exact Or.inr (List.mem_append_right _ hm)

theorem mem_visited_of_leadsTo (h : Covered model state.visited []) (hm : ty ∈ state.visited)
    (hr : ReflTransGen model.LeadsTo ty next) : next ∈ state.visited := by
  induction hr with
  | refl => exact hm
  | tail _ hstep ih => exact (h _ ih _ hstep).resolve_right List.not_mem_nil

theorem covered_extract {function : FunctionDef} (h : Covered model state.visited []) :
    Covered model (extract model mapper attached state function).visited [] := by
  unfold extract
  split
  · exact covered_walk fun ty hty next hn =>
      Or.inl ((h ty hty next hn).resolve_right List.not_mem_nil)
  · exact h

theorem covered_foldl (h : Covered model state.visited []) :
    Covered model (functions.foldl (extract model mapper attached) state).visited [] := by
  induction functions generalizing state with
  | nil => exact h
  | cons function rest ih => exact ih (covered_extract h)

theorem visited_subset_foldl :
    state.visited ⊆ (functions.foldl (extract model mapper attached) state).visited :=
  foldl_induction (P := fun final => state.visited ⊆ final.visited)
    (fun _ ty h => List.Subset.trans h (List.subset_cons_self ty _)) (List.Subset.refl _)

theorem result_mem_visited {function : FunctionDef} {result : TypeId} (hf : function ∈ functions)
    (hr : function.returns.bind ReturnClause.type = some result) :
    result ∈ (functions.foldl (extract model mapper attached) state).visited := by
  induction functions generalizing state with
  | nil => cases hf
  | cons other rest ih =>
    rcases List.mem_cons.mp hf with rfl | hf
    · have hmem : result ∈ (extract model mapper attached state function).visited := by
        unfold extract
        rw [hr]
        exact pending_subset_walk [result] List.mem_cons_self
      rw [List.foldl_cons]
      exact visited_subset_foldl hmem
    · exact ih hf

variable (model mapper attached) in
theorem mem_visited_iff :
    ty ∈ (functions.foldl (extract model mapper attached) empty).visited ↔
      Reached model functions ty := by
  constructor
  · intro h
    exact (leadsTo_of_mem_foldl h).resolve_left List.not_mem_nil
  · rintro ⟨function, hf, result, hr, hl⟩
    have hempty : Covered model empty.visited [] := fun _ hm => absurd hm List.not_mem_nil
    exact mem_visited_of_leadsTo (covered_foldl hempty) (result_mem_visited hf hr) hl

theorem sorted_visit (h : Table.Sorted state.cache) :
    Table.Sorted (visit model mapper attached state ty).cache := by
  unfold visit
  dsimp only
  split
  · split
    · exact h.put
    · exact h
  · exact h

theorem sorted_foldl (h : Table.Sorted state.cache) :
    Table.Sorted (functions.foldl (extract model mapper attached) state).cache :=
  foldl_induction (P := fun final => Table.Sorted final.cache) (fun _ _ => sorted_visit) h

theorem Reached.perm {functions' : List FunctionDef} (hp : functions'.Perm functions)
    (h : Reached model functions' ty) : Reached model functions ty := by
  obtain ⟨function, hf, hr⟩ := h
  exact ⟨function, hp.mem_iff.mp hf, hr⟩

variable (model mapper attached) in
def collected (functions : List FunctionDef) : SchemaCache :=
  (functions.foldl (extract model mapper attached) empty).cache

theorem sorted_collected : Table.Sorted (collected model mapper attached functions) :=
  sorted_foldl List.Pairwise.nil

theorem reached_of_lookup {schema : Schema}
    (h : (collected model mapper attached functions).lookup name = some schema) :
    ∃ ty, Reached model functions ty ∧ model.Bears name ty ∧
      model.derive mapper attached ty = some schema := by
  rw [collected, recorded_foldl recorded_empty name] at h
  obtain ⟨ty, hm, hty⟩ := List.exists_of_findSome?_eq_some h
  exact ⟨ty, (mem_visited_iff _ _ _).mp hm, schemaAs?_eq_some_iff.mp hty⟩

theorem isSome_lookup_of_reached {schema : Schema} (hr : Reached model functions ty)
    (hb : model.Bears name ty) (hd : model.derive mapper attached ty = some schema) :
    ((collected model mapper attached functions).lookup name).isSome = true := by
  rw [collected, recorded_foldl recorded_empty name, List.findSome?_isSome_iff]
  exact ⟨ty, (mem_visited_iff _ _ _).mpr hr,
    Option.isSome_iff_exists.mpr ⟨schema, schemaAs?_eq_some_iff.mpr ⟨hb, hd⟩⟩⟩

theorem mem_collected_iff {schema : Schema}
    (hnames : ∀ name ty other, Reached model functions ty → Reached model functions other →
      model.Bears name ty → model.Bears name other → ty = other) :
    (name, schema) ∈ collected model mapper attached functions ↔
      ∃ ty, Reached model functions ty ∧ model.Bears name ty ∧
        model.derive mapper attached ty = some schema := by
  rw [sorted_collected.mem_iff_lookup]
  constructor
  · exact reached_of_lookup
  · rintro ⟨ty, hr, hb, hd⟩
    obtain ⟨found, hf⟩ := Option.isSome_iff_exists.mp (isSome_lookup_of_reached hr hb hd)
    obtain ⟨other, hr', hb', hd'⟩ := reached_of_lookup hf
    obtain rfl := hnames name ty other hr hr' hb hb'
    rw [hf, ← hd', hd]

theorem collected_exactly (model : SemanticModel) (mapper : StructuralMapper)
    (attached : List (String × Schema)) (functions : List FunctionDef)
    (hnames : ∀ name ty other, Reached model functions ty → Reached model functions other →
      model.Bears name ty → model.Bears name other → ty = other) :
    let cache := collected model mapper attached functions
    (∀ name schema, (name, schema) ∈ cache ↔
      ∃ ty, Reached model functions ty ∧ model.Bears name ty ∧
        model.derive mapper attached ty = some schema) ∧
    Table.Sorted cache ∧
    ∀ functions', functions'.Perm functions →
      collected model mapper attached functions' = cache := by
  refine ⟨fun name schema => mem_collected_iff hnames, sorted_collected, fun functions' hp => ?_⟩
  have hnames' : ∀ name ty other, Reached model functions' ty → Reached model functions' other →
      model.Bears name ty → model.Bears name other → ty = other :=
    fun name ty other hr hr' => hnames name ty other (hr.perm hp) (hr'.perm hp)
  refine sorted_collected.ext sorted_collected fun ⟨name, schema⟩ => ?_
  rw [mem_collected_iff hnames', mem_collected_iff hnames]
  exact ⟨fun ⟨ty, hr, h⟩ => ⟨ty, hr.perm hp, h⟩, fun ⟨ty, hr, h⟩ => ⟨ty, hr.perm hp.symm, h⟩⟩

end Extraction

def nestArena : TypeArena :=
  ((((TypeArena.empty.add (.named "Nest" none) (by decide)).add (.array 2) (by decide)).add
    (.named "Leaf" (some 1)) (by decide)).add (.union [2, 4, 0]) (by decide)).define 2 3 (by decide)

theorem shape_nestArena : nestArena.model.shape 2 = .reference "Nest" 3 ∧
    nestArena.model.shape 3 = .array 2 ∧ nestArena.model.shape 4 = .reference "Leaf" 1 ∧
    nestArena.model.shape 5 = .union [2, 4, 0] := by decide

theorem bears_nestArena {name : String} {ty : TypeId} (h : nestArena.model.Bears name ty) :
    (name, ty) = ("Nest", 2) ∨ (name, ty) = ("Leaf", 4) := by
  obtain ⟨target, hs⟩ := h
  match ty with
  | 0 => cases hs
  | 1 => cases hs
  | 2 => exact Or.inl (by cases hs; rfl)
  | 3 => cases hs
  | 4 => exact Or.inr (by cases hs; rfl)
  | 5 => cases hs
  | _ + 6 => cases hs

theorem eq_of_bears_nestArena {name : String} {ty other : TypeId}
    (hb : nestArena.model.Bears name ty) (ho : nestArena.model.Bears name other) : ty = other := by
  rcases bears_nestArena hb with h | h <;> rcases bears_nestArena ho with h' | h' <;> grind

theorem derive_nestArena :
    nestArena.model.derive nestArena.openApiMapper [] 2 = none ∧
      nestArena.model.derive nestArena.openApiMapper [] 4 = some Schema.anyJson := by
  constructor
  · rw [Option.eq_none_iff_forall_ne_some]
    intro schema h
    rw [SemanticModel.derive_eq_some_iff] at h
    have hlist : Below (nestArena.model.outline nestArena.openApiMapper []) 2 3 :=
      List.mem_singleton_self 2
    have hname : Below (nestArena.model.outline nestArena.openApiMapper []) 3 2 :=
      List.mem_singleton_self 3
    exact h.not_below_itself (.tail (.single hlist) hname)
  · rw [SemanticModel.derive_eq_some_iff]
    exact .same rfl (.known rfl)

theorem Extraction.collected_exactly_nest :
    (∀ name ty other, Reached nestArena.model [questionOn 5, questionOn 4] ty →
      Reached nestArena.model [questionOn 5, questionOn 4] other →
      nestArena.model.Bears name ty → nestArena.model.Bears name other → ty = other) ∧
    ("Leaf", Schema.anyJson) ∈ collected nestArena.model nestArena.openApiMapper []
      [questionOn 5, questionOn 4] ∧
    (∀ schema, ("Nest", schema) ∉ collected nestArena.model nestArena.openApiMapper []
      [questionOn 5, questionOn 4]) ∧
    collected nestArena.model nestArena.openApiMapper [] [questionOn 4, questionOn 5] =
      collected nestArena.model nestArena.openApiMapper [] [questionOn 5, questionOn 4] := by
  have hnames : ∀ name ty other, Reached nestArena.model [questionOn 5, questionOn 4] ty →
      Reached nestArena.model [questionOn 5, questionOn 4] other →
      nestArena.model.Bears name ty → nestArena.model.Bears name other → ty = other :=
    fun _ _ _ _ _ => eq_of_bears_nestArena
  obtain ⟨hmem, -, hperm⟩ := collected_exactly nestArena.model nestArena.openApiMapper []
    [questionOn 5, questionOn 4] hnames
  refine ⟨hnames, (hmem _ _).mpr ⟨4, ?_, ⟨1, shape_nestArena.2.2.1⟩, derive_nestArena.2⟩, ?_,
    hperm _ (List.Perm.swap _ _ _)⟩
  · exact ⟨questionOn 4, by simp, 4, rfl, .refl⟩
  · intro schema h
    obtain ⟨ty, -, hb, hd⟩ := (hmem _ _).mp h
    rcases bears_nestArena hb with he | he
    · obtain rfl : ty = 2 := (Prod.mk.inj he).2
      rw [derive_nestArena.1] at hd
      cases hd
    · exact absurd (Prod.mk.inj he).1 (by decide)

end NaturalFunctions
