import NaturalFunctions.Descriptor.Members
import NaturalFunctions.Proofs.Derivation.DescriptorOutline

/-!
What the schemas of the members of a union keep of the schemas of its parts. Where no definition on
the way carries a schema of its own, flattening a nested union loses weight, and so does a
definition that is met again.
-/

namespace NaturalFunctions

theorem mapM_eq_some_iff_map {α β : Type} {f : α → Option β} {xs : List α} {ys : List β} :
    xs.mapM f = some ys ↔ xs.map f = ys.map some := by
  induction xs generalizing ys with
  | nil => cases ys <;> simp
  | cons x xs ih => cases ys <;> simp [Option.bind_eq_some_iff, ih]

theorem mapM_eq_none_iff {α β : Type} {f : α → Option β} {xs : List α} :
    xs.mapM f = none ↔ ∃ x ∈ xs, f x = none := by
  induction xs with
  | nil => simp
  | cons x xs ih =>
    cases hx : f x with
    | none => simp [hx]
    | some y =>
      cases hxs : xs.mapM f with
      | none => simp [hx, hxs, ← ih]
      | some ys => simp [hx, hxs, ← ih]

namespace Definitions

variable (defs : Definitions)

def opens : Descriptor → Bool
  | .union _ => true
  | .reference i => (defs.body? i).any expands
  | _ => false

variable {defs} {seen : List Nat} {rest : List Descriptor} {type body : Descriptor} {i : Nat}

theorem membersFrom_closed (h : defs.opens type = false) :
    defs.membersFrom seen (type :: rest) = type :: defs.membersFrom seen rest := by
  rw [membersFrom.eq_def]
  cases type with
  | union members => simp [opens] at h
  | reference i =>
    dsimp only
    split
    · rfl
    · rename_i body hb
      have he : ¬ expands body = true := by simpa [opens, hb] using h
      rw [if_neg he]
  | _ => rfl

theorem membersFrom_again (hb : defs.body? i = some body) (he : expands body = true)
    (hs : i ∈ seen) :
    defs.membersFrom seen (.reference i :: rest) = defs.membersFrom seen rest := by
  rw [membersFrom.eq_def]
  dsimp only
  split
  · simp_all
  · simp_all

theorem membersFrom_expand (hb : defs.body? i = some body) (he : expands body = true)
    (hs : i ∉ seen) :
    defs.membersFrom seen (.reference i :: rest) =
      defs.membersFrom (i :: seen) (body :: rest) := by
  rw [membersFrom.eq_def]
  dsimp only
  split
  · simp_all
  · simp_all

variable (defs) in
theorem flattening_induction {motive : List Nat → List Descriptor → Prop}
    (nil : ∀ seen, motive seen [])
    (union : ∀ seen members rest, motive seen (members ++ rest) →
      motive seen (.union members :: rest))
    (closed : ∀ seen type rest, defs.opens type = false → motive seen rest →
      motive seen (type :: rest))
    (again : ∀ seen i rest body, defs.body? i = some body → expands body = true → i ∈ seen →
      motive seen rest → motive seen (.reference i :: rest))
    (expand : ∀ seen i rest body, defs.body? i = some body → expands body = true → i ∉ seen →
      motive (i :: seen) (body :: rest) → motive seen (.reference i :: rest))
    (seen : List Nat) (pending : List Descriptor) : motive seen pending := by
  fun_induction defs.membersFrom seen pending with
  | case1 seen => exact nil seen
  | case2 seen members rest ih => exact union seen members rest ih
  | case3 seen i rest hb ih => exact closed seen _ rest (by simp [opens, hb]) ih
  | case4 seen i rest body hb he hs ih => exact again seen i rest body hb he hs ih
  | case5 seen i rest body hb he hs ih => exact expand seen i rest body hb he hs ih
  | case6 seen i rest body hb he ih => exact closed seen _ rest (by simp [opens, hb, he]) ih
  | case7 seen type rest hu hr ih =>
    refine closed seen type rest ?_ ih
    cases type with
    | union members => exact absurd rfl (hu members)
    | reference i => exact absurd rfl (hr i)
    | _ => rfl

theorem membersFrom_append_error (seen : List Nat) (pending : List Descriptor) :
    defs.membersFrom seen (pending ++ [.error]) = defs.membersFrom seen pending ++ [.error] := by
  induction seen, pending using defs.flattening_induction with
  | nil seen => simp [membersFrom]
  | union seen members rest ih =>
    rw [List.cons_append, membersFrom, membersFrom, ← List.append_assoc, ih]
  | closed seen type rest h ih =>
    rw [List.cons_append, membersFrom_closed h, membersFrom_closed h, ih, List.cons_append]
  | again seen i rest body hb he hs ih =>
    rw [List.cons_append, membersFrom_again hb he hs, membersFrom_again hb he hs, ih]
  | expand seen i rest body hb he hs ih =>
    rw [List.cons_append, membersFrom_expand hb he hs, membersFrom_expand hb he hs,
      ← List.cons_append, ih]

theorem derive_union (members : List Descriptor) :
    defs.derive (.union members) = (members.mapM defs.derive).map Schema.anyOf := by
  unfold derive
  rw [deriveFrom]

theorem derive_body {schema : Schema} (hs : defs.schema? i = none) (hb : defs.body? i = some body)
    (h : defs.derive (.reference i) = some schema) : defs.derive body = some schema := by
  have ho : defs.outline (.reference i) = .same body := by simp [outline, hs, hb]
  have hd := defs.derive_eq_some_iff.mp h
  generalize Descriptor.reference i = reference at ho hd
  cases hd with
  | same ht hd =>
    obtain rfl : _ = body := by simpa [ht] using ho
    exact defs.derive_eq_some_iff.mpr hd
  | known ht => simp [ht] at ho
  | array ht => simp [ht] at ho
  | tuple ht => simp [ht] at ho
  | union ht => simp [ht] at ho

inductive LooksThrough (defs : Definitions) : Descriptor → Nat → Prop
  | here {i : Nat} {body : Descriptor} (hb : defs.body? i = some body)
      (he : expands body = true) : LooksThrough defs (.reference i) i
  | body {i j : Nat} {body : Descriptor} (hb : defs.body? i = some body)
      (he : expands body = true) (h : LooksThrough defs body j) : LooksThrough defs (.reference i) j
  | member {members : List Descriptor} {member : Descriptor} {j : Nat} (hm : member ∈ members)
      (h : LooksThrough defs member j) : LooksThrough defs (.union members) j

/-- No definition that the flattening looks through carries a schema. -/
def Plain (defs : Definitions) (type : Descriptor) : Prop :=
  ∀ i, defs.LooksThrough type i → defs.schema? i = none

inductive Opens (defs : Definitions) : Descriptor → List Descriptor → Prop
  | union (members : List Descriptor) : Opens defs (.union members) members
  | reference {i : Nat} {body : Descriptor} {members : List Descriptor}
      (hb : defs.body? i = some body) (h : Opens defs body members) :
      Opens defs (.reference i) members

theorem Opens.unique {members others : List Descriptor} (h : defs.Opens type members)
    (h' : defs.Opens type others) : members = others := by
  induction h with
  | union members => cases h' with | union => rfl
  | reference hb _ ih =>
    cases h' with
    | reference hb' h' => exact ih (Option.some.inj (hb'.symm.trans hb) ▸ h')

theorem Opens.expands {members : List Descriptor} (h : defs.Opens type members) :
    expands type = true := by
  cases h <;> rfl

theorem Plain.of_opens {members : List Descriptor} (hp : defs.Plain type)
    (h : defs.Opens type members) : ∀ member ∈ members, defs.Plain member := by
  induction h with
  | union members => exact fun member hm i hi => hp i (.member hm hi)
  | reference hb h ih => exact ih fun i hi => hp i (.body hb h.expands hi)

theorem not_opens_of_closed (h : defs.opens type = false) (members : List Descriptor) :
    ¬ defs.Opens type members := by
  intro ho
  cases ho with
  | union => simp [opens] at h
  | @reference i body _ hb ho =>
    have he : Definitions.expands body = false := by simpa [opens, hb] using h
    exact Bool.false_ne_true (he.symm.trans ho.expands)

noncomputable def weight : List (Option Schema) → Nat
  | [] => 0
  | schema :: schemas => sizeOf schema + weight schemas

theorem weight_append (schemas others : List (Option Schema)) :
    weight (schemas ++ others) = weight schemas + weight others := by
  induction schemas with
  | nil => rw [List.nil_append, weight, Nat.zero_add]
  | cons schema schemas ih => rw [List.cons_append, weight, weight, ih, Nat.add_assoc]

theorem weight_lt_anyOf (schemas : List Schema) :
    weight (schemas.map some) < sizeOf (some (Schema.anyOf schemas)) := by
  have hlist : weight (schemas.map some) < sizeOf schemas := by
    induction schemas with
    | nil => simp [weight]
    | cons schema schemas ih =>
      rw [List.map_cons, weight, Option.some.sizeOf_spec, List.cons.sizeOf_spec]
      omega
  have hanyOf : sizeOf schemas < sizeOf (some (Schema.anyOf schemas)) := by
    simp only [Schema.anyOf, Option.some.sizeOf_spec, Json.obj.sizeOf_spec, List.cons.sizeOf_spec,
      Prod.mk.sizeOf_spec, Json.arr.sizeOf_spec]
    omega
  omega

theorem derive_members {members : List Descriptor} {schema : Schema}
    (h : defs.derive (.union members) = some schema) :
    ∃ schemas, members.map defs.derive = schemas.map some ∧ schema = Schema.anyOf schemas := by
  rw [derive_union, Option.map_eq_some_iff] at h
  obtain ⟨schemas, hm, rfl⟩ := h
  exact ⟨schemas, mapM_eq_some_iff_map.mp hm, rfl⟩

theorem exists_derive_of_map {members : List Descriptor} {schemas : List Schema}
    (h : members.map defs.derive = schemas.map some) :
    ∀ member ∈ members, ∃ schema, defs.derive member = some schema := by
  intro member hm
  have hin : defs.derive member ∈ schemas.map some := h ▸ List.mem_map_of_mem hm
  obtain ⟨schema, _, heq⟩ := List.mem_map.mp hin
  exact ⟨schema, heq.symm⟩

theorem flattening_keeps_or_loses (seen : List Nat) (pending : List Descriptor)
    (hp : ∀ type ∈ pending, defs.Plain type)
    (hd : ∀ type ∈ pending, ∃ schema, defs.derive type = some schema) :
    ((defs.membersFrom seen pending).map defs.derive = pending.map defs.derive ∧
      ∀ type ∈ pending, ∀ members, ¬ defs.Opens type members) ∨
    weight ((defs.membersFrom seen pending).map defs.derive) < weight (pending.map defs.derive) ∧
      ((∃ type ∈ pending, ∃ members, defs.Opens type members) ∨
        (defs.membersFrom seen pending).length < pending.length) := by
  -- the union and the definition met again lose weight; the other steps pass on what the rest does
  induction seen, pending using defs.flattening_induction with
  | nil seen => exact Or.inl ⟨by simp [membersFrom], by simp⟩
  | union seen members rest ih =>
    obtain ⟨hplain, hplains⟩ := List.forall_mem_cons.mp hp
    obtain ⟨⟨schema, hs⟩, hrest⟩ := List.forall_mem_cons.mp hd
    obtain ⟨schemas, hmap, rfl⟩ := derive_members hs
    have hp' : ∀ type ∈ members ++ rest, defs.Plain type := by
      intro type ht
      rcases List.mem_append.mp ht with ht | ht
      · exact fun i hi => hplain i (.member ht hi)
      · exact hplains type ht
    have hmembers : ∀ type ∈ members ++ rest, ∃ schema, defs.derive type = some schema := by
      intro type ht
      rcases List.mem_append.mp ht with ht | ht
      · exact exists_derive_of_map hmap type ht
      · exact hrest type ht
    have hle : weight ((defs.membersFrom seen (members ++ rest)).map defs.derive) ≤
        weight ((members ++ rest).map defs.derive) := by
      rcases ih hp' hmembers with ⟨hk, -⟩ | ⟨hl, -⟩
      · exact Nat.le_of_eq (by rw [hk])
      · omega
    refine Or.inr ⟨?_, Or.inl ⟨_, List.mem_cons_self, members, .union members⟩⟩
    have hlt := weight_lt_anyOf schemas
    rw [List.map_append, weight_append, hmap] at hle
    rw [membersFrom, List.map_cons, weight, hs]
    omega
  | closed seen type rest h ih =>
    rw [membersFrom_closed h, List.map_cons, List.map_cons]
    have hno := not_opens_of_closed h
    rcases ih (List.forall_mem_cons.mp hp).2 (List.forall_mem_cons.mp hd).2 with ⟨hk, hrest⟩ | ⟨hl, hrest⟩
    · exact Or.inl ⟨by rw [hk], List.forall_mem_cons.mpr ⟨hno, hrest⟩⟩
    · refine Or.inr ⟨by rw [weight, weight]; omega, ?_⟩
      rcases hrest with ⟨other, ho, hopens⟩ | hlength
      · exact Or.inl ⟨other, List.mem_cons_of_mem type ho, hopens⟩
      · exact Or.inr (by simpa using hlength)
  | again seen i rest body hb he hs ih =>
    rw [membersFrom_again hb he hs, List.map_cons, weight]
    have hpos : 0 < sizeOf (defs.derive (.reference i)) := by
      cases defs.derive (.reference i) with
      | none => simp
      | some schema => rw [Option.some.sizeOf_spec]; omega
    rcases ih (List.forall_mem_cons.mp hp).2 (List.forall_mem_cons.mp hd).2 with ⟨hk, hrest⟩ | ⟨hl, hrest⟩
    · have hlength := congrArg List.length hk
      rw [List.length_map, List.length_map] at hlength
      exact Or.inr ⟨by rw [hk]; omega, Or.inr (by rw [List.length_cons]; omega)⟩
    · refine Or.inr ⟨by omega, ?_⟩
      rcases hrest with ⟨other, ho, hopens⟩ | hlength
      · exact Or.inl ⟨other, List.mem_cons_of_mem _ ho, hopens⟩
      · exact Or.inr (by rw [List.length_cons]; omega)
  | expand seen i rest body hb he hs ih =>
    obtain ⟨⟨schema, hderive⟩, hrest⟩ := List.forall_mem_cons.mp hd
    obtain ⟨hplain, hplains⟩ := List.forall_mem_cons.mp hp
    have hbody := derive_body (hplain i (.here hb he)) hb hderive
    have hp' : ∀ type ∈ body :: rest, defs.Plain type :=
      List.forall_mem_cons.mpr ⟨fun j hj => hplain j (.body hb he hj), hplains⟩
    rw [membersFrom_expand hb he hs, List.map_cons, hderive, ← hbody, ← List.map_cons]
    rcases ih hp' (List.forall_mem_cons.mpr ⟨⟨schema, hbody⟩, hrest⟩) with
      ⟨hk, hno⟩ | ⟨hl, hloss⟩
    · refine Or.inl ⟨hk, List.forall_mem_cons.mpr ⟨fun members ho => ?_, ?_⟩⟩
      · cases ho with
        | reference hb' ho =>
          obtain rfl := Option.some.inj (hb.symm.trans hb')
          exact hno _ List.mem_cons_self members ho
      · exact (List.forall_mem_cons.mp hno).2
    · refine Or.inr ⟨hl, hloss.imp_left ?_⟩
      rintro ⟨type, ht, members, ho⟩
      rcases List.mem_cons.mp ht with rfl | ht
      · exact ⟨_, List.mem_cons_self, members, .reference hb ho⟩
      · exact ⟨type, List.mem_cons_of_mem _ ht, members, ho⟩

theorem closed_or_looks_through (hp : defs.Plain type) :
    defs.opens type = false ∨ (∃ members, type = .union members) ∨
      ∃ i body, type = .reference i ∧ defs.body? i = some body ∧ expands body = true ∧
        defs.schema? i = none := by
  cases type with
  | union members => exact Or.inr (Or.inl ⟨members, rfl⟩)
  | reference i =>
    cases hb : defs.body? i with
    | none => exact Or.inl (by simp [opens, hb])
    | some body =>
      by_cases he : expands body = true
      · exact Or.inr (Or.inr ⟨i, body, rfl, hb, he, hp i (.here hb he)⟩)
      · exact Or.inl (by simp [opens, hb, he])
  | _ => exact Or.inl rfl

theorem flattening_of_derive (hp : defs.Plain type) {schema : Schema}
    (h : defs.derive type = some schema) (hs : PathAbove defs.outline key seen type) :
    (∃ member, defs.membersFrom seen [type] = [member] ∧ defs.derive member = some schema ∧
      ∀ members, ¬ defs.Opens type members) ∨
    ∃ seen' members, defs.Opens type members ∧
      defs.membersFrom seen [type] = defs.membersFrom seen' members ∧
      defs.derive (.union members) = some schema := by
  have hd := defs.derive_eq_some_iff.mp h
  induction hd.acc generalizing schema seen with
  | intro type _ ih =>
    rcases closed_or_looks_through hp with hc | ⟨members, rfl⟩ | ⟨i, body, rfl, hb, he, hn⟩
    · refine Or.inl ⟨type, ?_, h, not_opens_of_closed hc⟩
      rw [membersFrom_closed hc, membersFrom]
    · refine Or.inr ⟨seen, members, .union members, ?_, h⟩
      rw [membersFrom, List.append_nil]
    · have ho : defs.outline (.reference i) = .same body := by simp [outline, hn, hb]
      -- a definition that is met again would stand below itself and have no schema
      have hi : i ∉ seen := by
        intro hi
        obtain ⟨above, target, ha, hk, hbelow⟩ := hs i hi
        have heq : above = .reference i :=
          defs.deriveFrom_guarded.key_injective _ _ _ _ ha ho hk
        exact hd.not_below_itself (heq ▸ hbelow)
      have hbody := derive_body hn hb h
      rw [membersFrom_expand hb he hi]
      have hp' : defs.Plain body := fun j hj => hp j (.body hb he hj)
      rcases ih body (by simp [Below, ho, Outline.parts]) hp' hbody (Guarded.path_target hs ho)
          (defs.derive_eq_some_iff.mp hbody) with
        ⟨member, hm, hdm, hno⟩ | ⟨seen', members, hopens, hm, hdm⟩
      · refine Or.inl ⟨member, hm, hdm, fun members hopens => ?_⟩
        cases hopens with
        | reference hb' hopens =>
          obtain rfl := Option.some.inj (hb.symm.trans hb')
          exact hno members hopens
      · exact Or.inr ⟨seen', members, .reference hb hopens, hm, hdm⟩

end Definitions

end NaturalFunctions
