import NaturalFunctions.Proofs.Derivation.Outline
import NaturalFunctions.Types.Derivation

namespace NaturalFunctions

theorem Derived.answer_each {α ν : Type} {path : List TypeId}
    (step : (current : List TypeId) → current = path → ν → Derived α current) (nodes : List ν) :
    (Derived.each step path rfl nodes).answer = nodes.mapM fun node => (step path rfl node).answer := by
  induction nodes with
  | nil => rfl
  | cons node rest ih =>
    have hcurrent : ∀ current (h : current = path),
        (Derived.each step current h rest).answer = (Derived.each step path rfl rest).answer := by
      rintro _ rfl
      rfl
    rw [Derived.each, List.mapM_cons, ← ih]
    cases (step path rfl node).answer with
    | none => rfl
    | some item =>
      change (Derived.each step _ _ rest).answer.map (item :: ·) = _
      rw [hcurrent]
      exact Option.map_eq_bind

namespace SemanticModel

variable (model : SemanticModel) (mapper : StructuralMapper) (attached : List (String × Schema))

def outline (ty : TypeId) : Outline TypeId :=
  match model.shape ty with
  | .primitive kind => .known (some (Schema.primitive kind))
  | .json => .known (some Schema.anyJson)
  | .array element => .array element
  | .tuple members => .tuple members
  | .union members => .union members
  | .record _ => .known ((mapper ty).map Schema.normalize)
  | .reference name target =>
    match attached.lookup name with
    | some schema => .known (some schema)
    | none => .same target
  | .error => .known none
  | .other _ => .known none

theorem outline_eq_same {ty target : TypeId} (h : model.outline mapper attached ty = .same target) :
    ∃ name, model.shape ty = .reference name target ∧ attached.lookup name = none := by
  unfold outline at h
  split at h
  case h_7 name t hs =>
    split at h
    · simp at h
    · rename_i hl
      obtain rfl : t = target := by simpa using h
      exact ⟨name, hs, hl⟩
  all_goals simp at h

variable {path : List TypeId} {ty : TypeId} {schema : Schema}

theorem answer_describe_members {members : List TypeId} :
    (Derived.each (fun current _ (member : { member // member ∈ members }) =>
      model.describe mapper attached current member) path rfl members.attach).answer =
      members.mapM fun member => (model.describe mapper attached path member).answer := by
  rw [Derived.answer_each]
  exact (List.mapM_subtype fun _ _ => rfl).trans (by rw [List.unattach_attach])

theorem describe_guarded :
    Guarded (model.outline mapper attached) id
      fun path ty => (model.describe mapper attached path ty).answer where
  off_path := by
    intro path ty hp
    rw [describe.eq_def]
    split
    case h_7 name target hs =>
      cases hl : attached.lookup name with
      | some schema => simp [outline, hs, hl, Outline.schema?]
      | none =>
        have ho : model.outline mapper attached ty = .same target := by simp [outline, hs, hl]
        have hk : ty ∉ path := hp target ho
        simp only [ho, Outline.schema?, dif_neg hk, id, Derived.answer_leave]
    all_goals simp [outline, Outline.schema?, answer_describe_members, *]
  key_injective := by
    intro node other target target' _ _ h
    exact h

theorem describes_of_describe (h : (model.describe mapper attached path ty).answer = some schema) :
    Describes (model.outline mapper attached) ty schema := by
  fun_induction model.describe mapper attached path ty generalizing schema with
  | case1 path ty kind hs => exact .known (by simpa [outline, hs] using h)
  | case2 path ty hs => exact .known (by simpa [outline, hs] using h)
  | case3 path ty element hs ih =>
    obtain ⟨items, hd, rfl⟩ := Option.map_eq_some_iff.mp h
    exact .array (by simp [outline, hs]) (ih hd)
  | case4 path ty members hs ih =>
    obtain ⟨items, hd, rfl⟩ := Option.map_eq_some_iff.mp h
    rw [answer_describe_members, mapM_eq_some_iff] at hd
    obtain ⟨hl, hm⟩ := hd
    exact .tuple (by simp [outline, hs]) hl
      (fun pair hp => ih path rfl ⟨pair.1, (List.of_mem_zip hp).1⟩ (hm pair hp))
  | case5 path ty members hs ih =>
    obtain ⟨items, hd, rfl⟩ := Option.map_eq_some_iff.mp h
    rw [answer_describe_members, mapM_eq_some_iff] at hd
    obtain ⟨hl, hm⟩ := hd
    exact .union (by simp [outline, hs]) hl
      (fun pair hp => ih path rfl ⟨pair.1, (List.of_mem_zip hp).1⟩ (hm pair hp))
  | case6 path ty fields hs => exact .known (by simpa [outline, hs] using h)
  | case7 path ty name target hs s hl => exact .known (by simpa [outline, hs, hl] using h)
  | case8 => cases h
  | case9 path ty name target hs hl hp ih => exact .same (by simp [outline, hs, hl]) (ih h)
  | case10 => cases h
  | case11 => cases h

theorem derive_eq_some_iff :
    model.derive mapper attached ty = some schema ↔
      Describes (model.outline mapper attached) ty schema := by
  constructor
  · exact model.describes_of_describe mapper attached
  · intro h
    exact (model.describe_guarded mapper attached).derive_of_describes h (by simp [PathAbove])

end SemanticModel

end NaturalFunctions
