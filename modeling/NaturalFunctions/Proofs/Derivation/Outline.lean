import Mathlib.Data.List.Forall2
import NaturalFunctions.Proofs.Cycles
import NaturalFunctions.Schema.Basic

/-!
Schemas by rules alone. What a type shows of itself is an outline, and the rules read a schema off
the outlines. They know no guard: a type that leads back to itself has no schema by them, and a
derivation that gives up only where a reference comes back finds every schema there is.
-/

namespace NaturalFunctions

variable {ν μ κ : Type}

/-- The top of a type: either all that is known of its schema, or the types it is built from. -/
inductive Outline (ν : Type) where
  | known (schema : Option Schema)
  | array (element : ν)
  | tuple (members : List ν)
  | union (members : List ν)
  | same (target : ν)

namespace Outline

def parts : Outline ν → List ν
  | .known _ => []
  | .array element => [element]
  | .tuple members => members
  | .union members => members
  | .same target => [target]

def schema? (derive follow : ν → Option Schema) : Outline ν → Option Schema
  | .known schema => schema
  | .array element => (derive element).map Schema.arrayOf
  | .tuple members => (members.mapM derive).map Schema.tupleOf
  | .union members => (members.mapM derive).map Schema.anyOf
  | .same target => follow target

end Outline

inductive Describes (outline : ν → Outline ν) : ν → Schema → Prop
  | known {node : ν} {schema : Schema} (h : outline node = .known (some schema)) :
      Describes outline node schema
  | array {node element : ν} {items : Schema} (h : outline node = .array element)
      (he : Describes outline element items) : Describes outline node (Schema.arrayOf items)
  | tuple {node : ν} {members : List ν} {items : List Schema} (h : outline node = .tuple members)
      (hl : members.length = items.length)
      (hm : ∀ pair ∈ members.zip items, Describes outline pair.1 pair.2) :
      Describes outline node (Schema.tupleOf items)
  | union {node : ν} {members : List ν} {items : List Schema} (h : outline node = .union members)
      (hl : members.length = items.length)
      (hm : ∀ pair ∈ members.zip items, Describes outline pair.1 pair.2) :
      Describes outline node (Schema.anyOf items)
  | same {node target : ν} {schema : Schema} (h : outline node = .same target)
      (ht : Describes outline target schema) : Describes outline node schema

theorem mapM_eq_some_iff {α β : Type} {f : α → Option β} {xs : List α} {ys : List β} :
    xs.mapM f = some ys ↔
      xs.length = ys.length ∧ ∀ pair ∈ xs.zip ys, f pair.1 = some pair.2 := by
  induction xs generalizing ys with
  | nil => cases ys <;> simp
  | cons x xs ih =>
    cases ys with
    | nil => simp [Option.bind_eq_some_iff]
    | cons y ys => simp [Option.bind_eq_some_iff, ih, and_left_comm]

theorem exists_mem_zip {α β : Type} {xs : List α} {ys : List β} (h : xs.length = ys.length)
    {x : α} (hx : x ∈ xs) : ∃ y, (x, y) ∈ xs.zip ys := by
  obtain ⟨i, hi, rfl⟩ := List.getElem_of_mem hx
  exact ⟨ys[i], List.mem_iff_getElem.mpr ⟨i, by simp; omega, by simp⟩⟩

theorem exists_mem_of_forall₂ {α β : Type} {P : α → β → Prop} {xs : List α} {ys : List β}
    (h : List.Forall₂ P xs ys) {x : α} (hx : x ∈ xs) : ∃ y ∈ ys, P x y := by
  obtain ⟨hl, hzip⟩ := List.forall₂_iff_zip.mp h
  obtain ⟨y, hy⟩ := exists_mem_zip hl hx
  exact ⟨y, (List.of_mem_zip hy).2, hzip hy⟩

def Below (outline : ν → Outline ν) (part node : ν) : Prop := part ∈ (outline node).parts

namespace Describes

variable {outline : ν → Outline ν} {node : ν} {schema : Schema}

theorem acc (h : Describes outline node schema) : Acc (Below outline) node := by
  induction h with
  | known h => exact ⟨_, fun part hp => by simp [Below, h, Outline.parts] at hp⟩
  | array h _ ih =>
    refine ⟨_, fun part hp => ?_⟩
    simp only [Below, h, Outline.parts, List.mem_singleton] at hp
    exact hp ▸ ih
  | tuple h hl _ ih =>
    refine ⟨_, fun part hp => ?_⟩
    simp only [Below, h, Outline.parts] at hp
    obtain ⟨item, hi⟩ := exists_mem_zip hl hp
    exact ih _ hi
  | union h hl _ ih =>
    refine ⟨_, fun part hp => ?_⟩
    simp only [Below, h, Outline.parts] at hp
    obtain ⟨item, hi⟩ := exists_mem_zip hl hp
    exact ih _ hi
  | same h _ ih =>
    refine ⟨_, fun part hp => ?_⟩
    simp only [Below, h, Outline.parts, List.mem_singleton] at hp
    exact hp ▸ ih

theorem not_below_itself (h : Describes outline node schema) :
    ¬ Relation.TransGen (Below outline) node node :=
  not_transGen_self_of_acc h.acc

end Describes

theorem exists_zip {α β : Type} {P : α → β → Prop} {xs : List α} (h : ∀ x ∈ xs, ∃ y, P x y) :
    ∃ ys : List β, xs.length = ys.length ∧ ∀ pair ∈ xs.zip ys, P pair.1 pair.2 := by
  induction xs with
  | nil => exact ⟨[], rfl, by simp⟩
  | cons x xs ih =>
    obtain ⟨⟨y, hy⟩, hrest⟩ := List.forall_mem_cons.mp h
    obtain ⟨ys, hl, hys⟩ := ih hrest
    exact ⟨y :: ys, by simp [hl], List.forall_mem_cons.mpr ⟨hy, hys⟩⟩

namespace Describes

variable {outline : ν → Outline ν} {node part : ν} {schema : Schema}

theorem exists_of_below (h : Describes outline node schema) (hp : Below outline part node) :
    ∃ schema, Describes outline part schema := by
  unfold Below at hp
  cases h with
  | known h => simp [h, Outline.parts] at hp
  | array h he =>
    rw [h] at hp
    exact ⟨_, List.mem_singleton.mp hp ▸ he⟩
  | tuple h hl hm =>
    rw [h] at hp
    obtain ⟨item, hi⟩ := exists_mem_zip hl hp
    exact ⟨item, hm _ hi⟩
  | union h hl hm =>
    rw [h] at hp
    obtain ⟨item, hi⟩ := exists_mem_zip hl hp
    exact ⟨item, hm _ hi⟩
  | same h ht =>
    rw [h] at hp
    exact ⟨_, List.mem_singleton.mp hp ▸ ht⟩

theorem ne_known_none (h : Describes outline node schema) : outline node ≠ .known none := by
  cases h <;> simp [*]

end Describes

theorem exists_describes_iff {outline : ν → Outline ν} {node : ν} :
    (∃ schema, Describes outline node schema) ↔
      Acc (Below outline) node ∧
        ∀ part, Relation.ReflTransGen (Function.swap (Below outline)) node part →
          outline part ≠ .known none := by
  constructor
  · rintro ⟨schema, h⟩
    refine ⟨h.acc, fun part hr => ?_⟩
    obtain ⟨found, hf⟩ : ∃ schema, Describes outline part schema := by
      induction hr with
      | refl => exact ⟨schema, h⟩
      | tail _ hstep ih => exact ih.elim fun _ hd => hd.exists_of_below hstep
    exact hf.ne_known_none
  · rintro ⟨hacc, hknown⟩
    induction hacc with
    | intro node _ ih =>
      have hpart : ∀ part ∈ (outline node).parts, ∃ schema, Describes outline part schema :=
        fun part hp => ih part hp fun other ho => hknown other (ho.head hp)
      cases ho : outline node with
      | known schema =>
        cases schema with
        | none => exact absurd ho (hknown node .refl)
        | some schema => exact ⟨schema, .known ho⟩
      | array element =>
        obtain ⟨items, hi⟩ := hpart element (by simp [ho, Outline.parts])
        exact ⟨_, .array ho hi⟩
      | tuple members =>
        rw [ho] at hpart
        obtain ⟨items, hl, hm⟩ := exists_zip hpart
        exact ⟨_, .tuple ho hl hm⟩
      | union members =>
        rw [ho] at hpart
        obtain ⟨items, hl, hm⟩ := exists_zip hpart
        exact ⟨_, .union ho hl hm⟩
      | same target =>
        obtain ⟨schema, hs⟩ := hpart target (by simp [ho, Outline.parts])
        exact ⟨schema, .same ho hs⟩

inductive Outline.Within (R : ν → μ → Prop) : Outline ν → Outline μ → Prop
  | silent {other : Outline μ} : Within R (.known none) other
  | known {schema : Schema} : Within R (.known (some schema)) (.known (some schema))
  | array {element : ν} {element' : μ} (h : R element element') :
      Within R (.array element) (.array element')
  | tuple {members : List ν} {members' : List μ} (h : List.Forall₂ R members members') :
      Within R (.tuple members) (.tuple members')
  | union {members : List ν} {members' : List μ} (h : List.Forall₂ R members members') :
      Within R (.union members) (.union members')
  | same {target : ν} {target' : μ} (h : R target target') :
      Within R (.same target) (.same target')

theorem forall_zip_of_forall₂ {R : ν → μ → Prop} {P : μ → Schema → Prop} {members : List ν}
    {members' : List μ} {items : List Schema} (h : List.Forall₂ R members members')
    (hl : members.length = items.length)
    (hm : ∀ pair ∈ members.zip items, ∀ member', R pair.1 member' → P member' pair.2) :
    members'.length = items.length ∧ ∀ pair ∈ members'.zip items, P pair.1 pair.2 := by
  refine ⟨h.length_eq ▸ hl, ?_⟩
  induction h generalizing items with
  | nil => simp
  | cons hr _ ih =>
    cases items with
    | nil => simp
    | cons item items =>
      simp only [List.zip_cons_cons, List.forall_mem_cons] at hm ⊢
      exact ⟨hm.1 _ hr, ih (by simpa using hl) hm.2⟩

theorem Describes.transfer {R : ν → μ → Prop} {outline : ν → Outline ν} {outline' : μ → Outline μ}
    (hR : ∀ node node', R node node' → (outline node).Within R (outline' node'))
    {node : ν} {node' : μ} {schema : Schema} (h : Describes outline node schema)
    (hr : R node node') : Describes outline' node' schema := by
  induction h generalizing node' with
  | known h =>
    have hw := hR _ _ hr
    rw [h] at hw
    generalize ho : outline' node' = other at hw
    cases hw
    exact .known ho
  | array h _ ih =>
    have hw := hR _ _ hr
    rw [h] at hw
    generalize ho : outline' node' = other at hw
    cases hw with
    | array he => exact .array ho (ih he)
  | tuple h hl _ ih =>
    have hw := hR _ _ hr
    rw [h] at hw
    generalize ho : outline' node' = other at hw
    cases hw with
    | tuple hm =>
      obtain ⟨hl', hm'⟩ := forall_zip_of_forall₂ hm hl (fun pair hp _ => ih pair hp)
      exact .tuple ho hl' hm'
  | union h hl _ ih =>
    have hw := hR _ _ hr
    rw [h] at hw
    generalize ho : outline' node' = other at hw
    cases hw with
    | union hm =>
      obtain ⟨hl', hm'⟩ := forall_zip_of_forall₂ hm hl (fun pair hp _ => ih pair hp)
      exact .union ho hl' hm'
  | same h _ ih =>
    have hw := hR _ _ hr
    rw [h] at hw
    generalize ho : outline' node' = other at hw
    cases hw with
    | same ht => exact .same ho (ih ht)

/-- A derivation that carries the keys of the references above it on a path and gives up at a
reference whose key is on the path already. -/
structure Guarded (outline : ν → Outline ν) (key : ν → κ) (derive : List κ → ν → Option Schema) :
    Prop where
  off_path : ∀ path node, (∀ target, outline node = .same target → key node ∉ path) →
    derive path node = (outline node).schema? (derive path) (derive (key node :: path))
  key_injective : ∀ node other target target', outline node = .same target →
    outline other = .same target' → key node = key other → node = other

def PathAbove (outline : ν → Outline ν) (key : ν → κ) (path : List κ) (node : ν) : Prop :=
  ∀ k ∈ path, ∃ above target, outline above = .same target ∧ key above = k ∧
    Relation.TransGen (Below outline) node above

namespace Guarded

variable {outline : ν → Outline ν} {key : ν → κ} {derive : List κ → ν → Option Schema}

theorem path_part {path : List κ} {node part : ν} (hp : PathAbove outline key path node)
    (h : part ∈ (outline node).parts) : PathAbove outline key path part := by
  intro k hk
  obtain ⟨above, target, ho, hkey, hb⟩ := hp k hk
  exact ⟨above, target, ho, hkey, hb.head h⟩

theorem path_target {path : List κ} {node target : ν} (hp : PathAbove outline key path node)
    (h : outline node = .same target) : PathAbove outline key (key node :: path) target := by
  have ht : Below outline target node := by simp [Below, h, Outline.parts]
  intro k hk
  rcases List.mem_cons.mp hk with rfl | hk
  · exact ⟨node, target, h, rfl, .single ht⟩
  · exact path_part hp ht k hk

theorem derive_of_describes (hg : Guarded outline key derive) {node : ν} {schema : Schema}
    (h : Describes outline node schema) {path : List κ} (hp : PathAbove outline key path node) :
    derive path node = some schema := by
  have hoff {node : ν} {schema : Schema} {path : List κ} (h : Describes outline node schema)
      (hp : PathAbove outline key path node) :
      ∀ target, outline node = .same target → key node ∉ path := by
    intro target ht hk
    obtain ⟨above, target', ho, hkey, hb⟩ := hp _ hk
    have : above = node := hg.key_injective _ _ _ _ ho ht hkey
    exact h.not_below_itself (this ▸ hb)
  induction h generalizing path with
  | known h => simp [hg.off_path path _ (hoff (.known h) hp), h, Outline.schema?]
  | array h he ih =>
    have hd := ih (path_part hp (by simp [h, Outline.parts]))
    simp [hg.off_path path _ (hoff (.array h he) hp), h, Outline.schema?, hd]
  | tuple h hl hm ih =>
    have hd := mapM_eq_some_iff.mpr ⟨hl, fun pair hpair => ih pair hpair
      (path_part hp (by simpa [h, Outline.parts] using (List.of_mem_zip hpair).1))⟩
    simp [hg.off_path path _ (hoff (.tuple h hl hm) hp), h, Outline.schema?, hd]
  | union h hl hm ih =>
    have hd := mapM_eq_some_iff.mpr ⟨hl, fun pair hpair => ih pair hpair
      (path_part hp (by simpa [h, Outline.parts] using (List.of_mem_zip hpair).1))⟩
    simp [hg.off_path path _ (hoff (.union h hl hm) hp), h, Outline.schema?, hd]
  | same h ht ih =>
    have hd := ih (path_target hp h)
    simp [hg.off_path path _ (hoff (.same h ht) hp), h, Outline.schema?, hd]

end Guarded

end NaturalFunctions
