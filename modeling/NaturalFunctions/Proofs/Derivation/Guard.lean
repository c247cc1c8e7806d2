import NaturalFunctions.Proofs.Derivation.Agreement

/-!
The guard against cycles withholds no schema. It only ends the derivations that would never end, and
what is in progress during one derivation is forgotten by the next.
-/

namespace NaturalFunctions

namespace SemanticModel

variable (model : SemanticModel) (mapper : StructuralMapper) (attached : List (String × Schema))

def inProgress (history : List TypeId) : List TypeId :=
  history.foldl (fun path ty => (model.describe mapper attached path ty).after) []

theorem inProgress_eq_nil (history : List TypeId) : model.inProgress mapper attached history = [] :=
  List.foldl_fixed' (fun ty => (model.describe mapper attached [] ty).after_eq) history

variable {model mapper attached} {path : List TypeId} {ty target : TypeId} {schema : Schema}

theorem answer_describe_iff (h : PathAbove (model.outline mapper attached) id path ty) :
    (model.describe mapper attached path ty).answer = some schema ↔
      Describes (model.outline mapper attached) ty schema := by
  constructor
  · exact model.describes_of_describe mapper attached
  · exact fun hd => (model.describe_guarded mapper attached).derive_of_describes hd h

theorem derive_eq_derive_target {name : String} (hs : model.shape ty = .reference name target)
    (hl : attached.lookup name = none) :
    model.derive mapper attached ty = model.derive mapper attached target := by
  have ho : model.outline mapper attached ty = .same target := by simp [outline, hs, hl]
  ext schema
  rw [derive_eq_some_iff, derive_eq_some_iff]
  constructor
  · intro h
    cases h with
    | same h ht =>
      obtain rfl : target = _ := Outline.same.inj (ho.symm.trans h)
      exact ht
    | known h | array h | tuple h | union h =>
      rw [ho] at h
      cases h
  · exact .same ho

end SemanticModel

open SemanticModel in
/-- Whatever has been described before, a description ends, leaves the references in progress as
they were, and gives exactly the schema of the rules, which know no guard. So a name without an
attached schema is described as its target is. The same holds further down, where references above
the type are in progress: those at which the guard stops have no schema by the rules. -/
theorem TypeArena.describe_exactly (arena : TypeArena) (mapper : StructuralMapper)
    (attached : List (String × Schema)) (history : List TypeId) (ty : TypeId) :
    let describe := arena.model.describe mapper attached
    let before := arena.model.inProgress mapper attached history
    (∀ path, (describe path ty).after = path) ∧
    (∀ schema, (describe before ty).answer = some schema ↔
      Describes (arena.model.outline mapper attached) ty schema) ∧
    (∀ name target, arena.model.shape ty = .reference name target → attached.lookup name = none →
      (describe before ty).answer = (describe before target).answer) ∧
    ∀ path, PathAbove (arena.model.outline mapper attached) id path ty → ∀ schema,
      (describe path ty).answer = some schema ↔
        Describes (arena.model.outline mapper attached) ty schema := by
  intro describe before
  have hbefore : before = [] := arena.model.inProgress_eq_nil mapper attached history
  rw [hbefore]
  refine ⟨fun path => (describe path ty).after_eq, fun schema => ?_, fun name target hs hl => ?_,
    fun path hp schema => answer_describe_iff hp⟩
  · exact answer_describe_iff (by simp [PathAbove])
  · exact derive_eq_derive_target hs hl

theorem TypeArena.describe_exactly_tree :
    let outline := treeArena.model.outline treeArena.openApiMapper []
    let describe := treeArena.model.describe treeArena.openApiMapper []
    let before := treeArena.model.inProgress treeArena.openApiMapper [] [3, 2, 4]
    treeArena.model.shape 2 = .reference "Tree" 7 ∧ PathAbove outline id [2] 4 ∧
    (describe before 3).answer = some (Schema.primitive .string) ∧
    (describe before 7).answer = none ∧ (describe before 2).answer = none ∧
    (describe [2] 4).answer = none ∧ (describe [2] 4).after = [2] := by
  intro outline describe before
  obtain ⟨hafter, -, -, habove⟩ :=
    describe_exactly treeArena treeArena.openApiMapper [] [3, 2, 4] 4
  obtain ⟨-, hstring, -, -⟩ := describe_exactly treeArena treeArena.openApiMapper [] [3, 2, 4] 3
  obtain ⟨-, htree, htarget, -⟩ := describe_exactly treeArena treeArena.openApiMapper [] [3, 2, 4] 2
  have hunion : Below outline 4 7 := List.mem_cons_of_mem 3 List.mem_cons_self
  have hlist : Below outline 2 4 := List.mem_singleton_self 2
  have hname : Below outline 7 2 := List.mem_singleton_self 7
  have hpath : PathAbove outline id [2] 4 := by
    intro k hk
    obtain rfl := List.mem_singleton.mp hk
    exact ⟨2, 7, rfl, rfl, .tail (.single hunion) hname⟩
  have hnone : (describe before 2).answer = none := by
    rw [Option.eq_none_iff_forall_ne_some]
    intro schema h
    exact ((htree schema).mp h).not_below_itself (.tail (.tail (.single hlist) hunion) hname)
  have hinside : (describe [2] 4).answer = none := by
    rw [Option.eq_none_iff_forall_ne_some]
    intro schema h
    exact ((habove [2] hpath schema).mp h).not_below_itself
      (.tail (.tail (.single hunion) hname) hlist)
  refine ⟨rfl, hpath, (hstring _).mpr (.known rfl), ?_, hnone, hinside, hafter [2]⟩
  exact (htarget "Tree" 7 rfl rfl).symm.trans hnone

end NaturalFunctions
