import NaturalFunctions.Proofs.Descriptor.Members
import NaturalFunctions.Proofs.Types.Members
import NaturalFunctions.Types.ArenaModel

namespace NaturalFunctions

open Relation

def RefersBy (shape : TypeId → TypeShape) (ty target : TypeId) : Prop :=
  (shape ty).target? = some target

structure StripsReferences (shape : TypeId → TypeShape) (bound : Nat) (resolve : TypeId → TypeId)
    (ty : TypeId) : Prop extends Trail.Resolves (RefersBy shape) bound resolve ty where
  no_reference_iff : (∀ name target, shape (resolve ty) ≠ .reference name target) ↔
    ¬ Unending (RefersBy shape) ty

section Shapes

variable {shape : TypeId → TypeShape} {ty : TypeId}

theorem refersBy_rightUnique : Relator.RightUnique (RefersBy shape) :=
  fun _ _ _ h h' => Option.some.inj (h.symm.trans h')

theorem exists_reference_iff :
    (∃ name target, shape ty = .reference name target) ↔ ∃ target, RefersBy shape ty target := by
  unfold RefersBy
  cases shape ty <;> simp [TypeShape.target?]

theorem stripsReferences_of_returns {bound : Nat} {resolve : TypeId → TypeId}
    (h : ∀ ty, Trail.Returns (RefersBy shape) bound ty (resolve ty)) (ty : TypeId) :
    StripsReferences shape bound resolve ty where
  toResolves := Trail.resolves_of_returns refersBy_rightUnique h ty
  no_reference_iff := by
    have hshown : (∃ name target, shape (resolve ty) = .reference name target) ↔
        ∃ next, RefersBy shape (resolve ty) next := exists_reference_iff
    rw [(h ty).not_unending_iff refersBy_rightUnique, ← not_exists, ← hshown]
    simp only [not_exists, ne_eq]

end Shapes

namespace Definitions

variable {defs : Definitions} {type : Descriptor} {i : Nat}

theorem refers_reference_iff {body : Descriptor} :
    defs.Refers (.reference i) body ↔ defs.body? i = some body := by
  simp [Refers]

theorem resolve_eq_undefined (hp : ReflTransGen defs.Refers type (.reference i))
    (hb : defs.body? i = none) : defs.resolve type = .reference i :=
  resolve_of_ends hp fun next hn => by simp [refers_reference_iff, hb] at hn

theorem resolve_ne_reference_iff :
    (∀ i, defs.resolve type ≠ .reference i) ↔ ¬ Unending defs.Refers type ∧
      ∀ i, ReflTransGen defs.Refers type (.reference i) → ∃ body, defs.body? i = some body := by
  rw [(defs.resolve_returns type).not_unending_iff refers_rightUnique]
  constructor
  · intro h
    refine ⟨?_, fun i hi => ?_⟩
    · rintro next ⟨i, hi, -⟩
      exact h i hi
    · cases hb : defs.body? i with
      | none => exact absurd (resolve_eq_undefined hi hb) (h i)
      | some body => exact ⟨body, rfl⟩
  · rintro ⟨hends, hdefined⟩ i hi
    obtain ⟨body, hb⟩ := hdefined i (hi ▸ reflTransGen_refers_resolve type)
    exact hends body ⟨i, hi, hb⟩

end Definitions

theorem resolve_strips_references :
    (∀ (model : SemanticModel) (ty : TypeId),
      StripsReferences model.shape model.inner.length model.resolve ty) ∧
    (∀ (shape : TypeId → TypeShape) (types : List TypeId),
      (∀ ty name target, shape ty = .reference name target → ty ∈ types) →
        ∃ resolve, ∀ ty, StripsReferences shape types.length resolve ty) ∧
    ∀ (defs : Definitions) (type : Descriptor),
      Trail.Resolves defs.Refers defs.length defs.resolve type ∧
      ((∀ i, defs.resolve type ≠ .reference i) ↔ ¬ Unending defs.Refers type ∧
        ∀ i, ReflTransGen defs.Refers type (.reference i) → ∃ body, defs.body? i = some body) ∧
      ∀ i, ReflTransGen defs.Refers type (.reference i) → defs.body? i = none →
        defs.resolve type = .reference i := by
  refine ⟨fun model => stripsReferences_of_returns model.resolve_returns, ?_, fun defs type => ?_⟩
  · intro shape types hfinite
    have hall : ∀ ty target, RefersBy shape ty target → ty ∈ types := by
      intro ty target h
      obtain ⟨name, target, hs⟩ := exists_reference_iff.mpr ⟨target, h⟩
      exact hfinite ty name target hs
    choose resolve hresolve using Trail.exists_returns refersBy_rightUnique hall
    exact ⟨resolve, stripsReferences_of_returns hresolve⟩
  · exact ⟨Trail.resolves_of_returns Definitions.refers_rightUnique defs.resolve_returns type,
      Definitions.resolve_ne_reference_iff, fun i => Definitions.resolve_eq_undefined⟩

def lassoArena : TypeArena :=
  (((TypeArena.empty.add (.named "Outer" none) (by decide)).add (.named "Left" none)
    (by decide)).add (.named "Right" none) (by decide)) |>.define 2 3 (by decide)
    |>.define 3 4 (by decide) |>.define 4 3 (by decide)

def lassoDefinitions : Definitions :=
  [⟨"Outer", some (.reference 1), none⟩, ⟨"Left", some (.reference 2), none⟩,
    ⟨"Right", some (.reference 1), none⟩, ⟨"Late", some (.reference 4), none⟩,
    ⟨"Missing", none, none⟩]

def tangledShape : TypeId → TypeShape
  | 0 => .reference "Tangle" 1
  | _ => .union [0, 1]

theorem resolve_strips_references_lasso :
    (Unending lassoArena.model.Refers 2 ∧ lassoArena.model.resolve 2 = 3) ∧
    ((∀ ty name target, tangledShape ty = .reference name target → ty ∈ [0]) ∧
      ∃ resolve, StripsReferences tangledShape 1 resolve 0 ∧ resolve 0 = 1) ∧
    (Unending lassoDefinitions.Refers (.reference 0) ∧
      lassoDefinitions.resolve (.reference 0) = .reference 1) ∧
    lassoDefinitions.body? 4 = none ∧ lassoDefinitions.resolve (.reference 3) = .reference 4 := by
  obtain ⟨hmodel, hshape, hdefs⟩ := resolve_strips_references
  refine ⟨⟨?_, ?_⟩, ?_, ⟨?_, ?_⟩, rfl, ?_⟩
  · have hround : TransGen lassoArena.model.Refers 3 3 := .tail (.single (b := 4) rfl) rfl
    exact unending_of_cycle (.single rfl) hround
  · have hrun : ReflTransGen (Trail.Step (RefersBy lassoArena.model.shape)) ⟨[], 2⟩ ⟨[4, 3, 2], 3⟩ :=
      .head (.on rfl (by simp)) (.head (.on rfl (by simp)) (.single (.on rfl (by simp))))
    exact ((hmodel lassoArena.model 2).returns.place_eq _ hrun
      (Trail.stops_iff.mpr (Or.inr (by simp)))).symm
  · have hfinite : ∀ ty name target, tangledShape ty = .reference name target → ty ∈ [0] := by
      intro ty name target h
      match ty with
      | 0 => exact List.mem_cons_self
      | _ + 1 => cases h
    obtain ⟨resolve, hresolve⟩ := hshape tangledShape [0] hfinite
    have hrun : ReflTransGen (Trail.Step (RefersBy tangledShape)) ⟨[], 0⟩ ⟨[0], 1⟩ :=
      .single (.on rfl (by simp))
    refine ⟨hfinite, resolve, hresolve 0, ((hresolve 0).returns.place_eq _ hrun ?_).symm⟩
    exact Trail.stops_iff.mpr (Or.inl fun next hn => by cases hn)
  · have hround : TransGen lassoDefinitions.Refers (.reference 1) (.reference 1) :=
      .tail (.single (b := .reference 2) ⟨1, rfl, rfl⟩) ⟨2, rfl, rfl⟩
    exact unending_of_cycle (.single ⟨0, rfl, rfl⟩) hround
  · have hrun : ReflTransGen (Trail.Step lassoDefinitions.Refers) ⟨[], .reference 0⟩
        ⟨[.reference 2, .reference 1, .reference 0], .reference 1⟩ :=
      .head (.on ⟨0, rfl, rfl⟩ (by simp)) (.head (.on ⟨1, rfl, rfl⟩ (by simp))
        (.single (.on ⟨2, rfl, rfl⟩ (by simp))))
    exact ((hdefs lassoDefinitions (.reference 0)).1.returns.place_eq _ hrun
      (Trail.stops_iff.mpr (Or.inr (by simp)))).symm
  · exact (hdefs lassoDefinitions (.reference 3)).2.2 4 (.single ⟨3, rfl, rfl⟩) rfl

end NaturalFunctions
