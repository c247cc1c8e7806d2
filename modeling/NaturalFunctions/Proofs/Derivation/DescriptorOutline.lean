import NaturalFunctions.Descriptor.Derivation
import NaturalFunctions.Proofs.Derivation.Outline

namespace NaturalFunctions.Definitions

variable (defs : Definitions)

def outline : Descriptor → Outline Descriptor
  | .primitive kind => .known (some (Schema.primitive kind))
  | .json => .known (some Schema.anyJson)
  | .array element => .array element
  | .tuple members => .tuple members
  | .union members => .union members
  | .reference i =>
    match defs.schema? i, defs.body? i with
    | some schema, _ => .known (some schema)
    | none, some body => .same body
    | none, none => .known none
  | .record _ => .known none
  | .error => .known none
  | .other _ => .known none

def key : Descriptor → Nat
  | .reference i => i
  | _ => 0

theorem outline_eq_same {type body : Descriptor} (h : defs.outline type = .same body) :
    ∃ i, type = .reference i ∧ defs.schema? i = none ∧ defs.body? i = some body := by
  cases type with
  | reference i =>
    cases hs : defs.schema? i with
    | some schema => simp [outline, hs] at h
    | none =>
      cases hb : defs.body? i with
      | none => simp [outline, hs, hb] at h
      | some b => exact ⟨i, rfl, hs, by simpa [outline, hs, hb] using h⟩
  | _ => simp [outline] at h

theorem deriveFrom_guarded : Guarded defs.outline key defs.deriveFrom where
  off_path := by
    intro path type hp
    rw [deriveFrom.eq_def]
    split
    case h_6 i =>
      cases hs : defs.schema? i with
      | some schema => simp [outline, hs, Outline.schema?]
      | none =>
        cases hb : defs.body? i with
        | none => simp [outline, hs, hb, Outline.schema?]
        | some body =>
          have ho : defs.outline (.reference i) = .same body := by simp [outline, hs, hb]
          have hk : i ∉ path := hp body ho
          simp only [ho, Outline.schema?, dif_neg hk, key]
    all_goals simp [outline, Outline.schema?]
  key_injective := by
    intro node other body body' h h' hk
    obtain ⟨i, rfl, _⟩ := defs.outline_eq_same h
    obtain ⟨j, rfl, _⟩ := defs.outline_eq_same h'
    exact congrArg Descriptor.reference hk

theorem describes_of_deriveFrom {path : List Nat} {type : Descriptor} {schema : Schema}
    (h : defs.deriveFrom path type = some schema) : Describes defs.outline type schema := by
  fun_induction defs.deriveFrom path type generalizing schema with
  | case1 path kind => exact .known (by simpa [outline] using h)
  | case2 path => exact .known (by simpa [outline] using h)
  | case3 path element ih =>
    obtain ⟨items, hd, rfl⟩ := Option.map_eq_some_iff.mp h
    exact .array rfl (ih hd)
  | case4 path members ih =>
    obtain ⟨items, hd, rfl⟩ := Option.map_eq_some_iff.mp h
    obtain ⟨hl, hm⟩ := mapM_eq_some_iff.mp hd
    exact .tuple rfl hl (fun pair hp => ih pair.1 (List.of_mem_zip hp).1 (hm pair hp))
  | case5 path members ih =>
    obtain ⟨items, hd, rfl⟩ := Option.map_eq_some_iff.mp h
    obtain ⟨hl, hm⟩ := mapM_eq_some_iff.mp hd
    exact .union rfl hl (fun pair hp => ih pair.1 (List.of_mem_zip hp).1 (hm pair hp))
  | case6 path i s hs => exact .known (by simpa [outline, hs] using h)
  | case7 => cases h
  | case8 path i hs hp body hb ih => exact .same (by simp [outline, hs, hb]) (ih h)
  | case9 => cases h
  | case10 => cases h
  | case11 => cases h
  | case12 => cases h

theorem derive_eq_some_iff {type : Descriptor} {schema : Schema} :
    defs.derive type = some schema ↔ Describes defs.outline type schema := by
  constructor
  · exact defs.describes_of_deriveFrom
  · intro h
    exact defs.deriveFrom_guarded.derive_of_describes h (by simp [PathAbove])

end NaturalFunctions.Definitions
