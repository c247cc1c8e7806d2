import NaturalFunctions.Proofs.Answer.Flattening
import NaturalFunctions.Proofs.Chains

namespace NaturalFunctions.Definitions

open Relation

inductive Unfolds (defs : Definitions) : Descriptor → Descriptor → Prop
  | member {members : List Descriptor} {member : Descriptor} (h : member ∈ members) :
      Unfolds defs (.union members) member
  | body {i : Nat} {body : Descriptor} (h : defs.body? i = some body) :
      Unfolds defs (.reference i) body

variable (defs : Definitions)

def Enters (type next : Descriptor) : Prop := defs.opens type = true ∧ defs.Unfolds type next

def Refers (type body : Descriptor) : Prop := ∃ i, type = .reference i ∧ defs.body? i = some body

def IsEnd : Descriptor → Prop
  | .union _ => False
  | .reference i => defs.body? i = none
  | _ => True

def Around (step : Descriptor → Descriptor → Prop) (seen : List Nat) (type next : Descriptor) :
    Prop :=
  (∀ i ∈ seen, type ≠ .reference i) ∧ step type next

variable {defs} {seen : List Nat} {pending rest : List Descriptor}
  {type next last member body : Descriptor} {i : Nat}

theorem around_or_leaves {step : Descriptor → Descriptor → Prop} (i : Nat)
    (h : ReflTransGen (Around step seen) type last) :
    ReflTransGen (Around step (i :: seen)) type last ∨
      ∃ next, step (.reference i) next ∧ ReflTransGen (Around step (i :: seen)) next last := by
  have hmono : ∀ {a b}, ReflTransGen (fun type next =>
      ¬ type = .reference i ∧ Around step seen type next) a b →
        ReflTransGen (Around step (i :: seen)) a b := by
    intro a b hab
    refine hab.lift id fun type next ⟨hi, hseen, hstep⟩ => ⟨?_, hstep⟩
    exact List.forall_mem_cons.mpr ⟨hi, hseen⟩
  rcases avoids_or_leaves (fun type => type = .reference i) h with
    hpath | ⟨out, next, rfl, ⟨-, hstep⟩, hpath⟩
  · exact Or.inl (hmono hpath)
  · exact Or.inr ⟨next, hstep, hmono hpath⟩

theorem eq_of_seen {step : Descriptor → Descriptor → Prop} (hi : i ∈ seen)
    (h : ReflTransGen (Around step seen) (.reference i) last) : last = .reference i := by
  rcases ReflTransGen.cases_head h with rfl | ⟨next, ⟨hseen, -⟩, -⟩
  · rfl
  · exact absurd rfl (hseen i hi)

theorem opens_reference (hb : defs.body? i = some body) :
    defs.opens (.reference i) = expands body := by
  simp [opens, hb]

theorem opens_of_isEnd (h : defs.IsEnd last) : defs.opens last = false := by
  cases last with
  | union members => cases h
  | reference i =>
    rw [IsEnd] at h
    simp [opens, h]
  | _ => rfl

theorem not_unfolds_of_isEnd (h : defs.IsEnd last) : ¬ defs.Unfolds last next := by
  intro hu
  cases hu with
  | member hm => cases h
  | body hb =>
    rw [IsEnd, hb] at h
    cases h

theorem eq_of_closed (h : defs.opens type = false) (hp : ReflTransGen defs.Enters type last) :
    last = type := by
  rcases ReflTransGen.cases_head hp with rfl | ⟨next, ⟨ho, -⟩, -⟩
  · rfl
  · rw [h] at ho
    cases ho

section Flattening

theorem sound_of_mem_membersFrom (h : member ∈ defs.membersFrom seen pending) :
    defs.opens member = false ∧ ∃ type ∈ pending, ReflTransGen defs.Enters type member := by
  induction seen, pending using defs.flattening_induction with
  | nil seen =>
    rw [membersFrom] at h
    cases h
  | union seen members rest ih =>
    rw [membersFrom] at h
    obtain ⟨hc, start, hs, hp⟩ := ih h
    refine ⟨hc, ?_⟩
    rcases List.mem_append.mp hs with hs | hs
    · exact ⟨.union members, List.mem_cons_self, hp.head ⟨rfl, .member hs⟩⟩
    · exact ⟨start, List.mem_cons_of_mem _ hs, hp⟩
  | closed seen type rest hc ih =>
    rw [membersFrom_closed hc] at h
    rcases List.mem_cons.mp h with rfl | h
    · exact ⟨hc, member, List.mem_cons_self, .refl⟩
    · obtain ⟨hc, start, hs, hp⟩ := ih h
      exact ⟨hc, start, List.mem_cons_of_mem _ hs, hp⟩
  | again seen i rest body hb he hs ih =>
    rw [membersFrom_again hb he hs] at h
    obtain ⟨hc, start, hs, hp⟩ := ih h
    exact ⟨hc, start, List.mem_cons_of_mem _ hs, hp⟩
  | expand seen i rest body hb he hs ih =>
    rw [membersFrom_expand hb he hs] at h
    obtain ⟨hc, start, hs, hp⟩ := ih h
    refine ⟨hc, ?_⟩
    rcases List.mem_cons.mp hs with rfl | hs
    · exact ⟨.reference i, List.mem_cons_self, hp.head ⟨(opens_reference hb).trans he, .body hb⟩⟩
    · exact ⟨start, List.mem_cons_of_mem _ hs, hp⟩

theorem mem_membersFrom (hc : defs.opens member = false) (hs : type ∈ pending)
    (h : ReflTransGen (Around defs.Enters seen) type member) :
    member ∈ defs.membersFrom seen pending := by
  induction seen, pending using defs.flattening_induction generalizing type with
  | nil seen => cases hs
  | union seen members rest ih =>
    rw [membersFrom]
    rcases List.mem_cons.mp hs with rfl | hs
    · rcases ReflTransGen.cases_head h with rfl | ⟨next, ⟨-, -, hn⟩, hp⟩
      · cases hc
      · cases hn with
        | member hm => exact ih (List.mem_append_left rest hm) hp
    · exact ih (List.mem_append_right members hs) h
  | closed seen first rest hf ih =>
    rw [membersFrom_closed hf]
    rcases List.mem_cons.mp hs with rfl | hs
    · have hpath : ReflTransGen defs.Enters type member := h.lift id fun _ _ hn => hn.2
      exact eq_of_closed hf hpath ▸ List.mem_cons_self
    · exact List.mem_cons_of_mem first (ih hs h)
  | again seen i rest body hb he hi ih =>
    rw [membersFrom_again hb he hi]
    have hopen : defs.opens (.reference i) ≠ false := by simp [opens_reference hb, he]
    rcases List.mem_cons.mp hs with rfl | hs
    · obtain rfl := eq_of_seen hi h
      exact absurd hc hopen
    · exact ih hs h
  | expand seen i rest body hb he hi ih =>
    rw [membersFrom_expand hb he hi]
    have hopen : defs.opens (.reference i) ≠ false := by simp [opens_reference hb, he]
    -- from its last step out of the reference on, the path starts at the body, which is pending now
    rcases around_or_leaves i h with h | ⟨next, ⟨-, hn⟩, h⟩
    · rcases List.mem_cons.mp hs with rfl | hs
      · obtain rfl := eq_of_seen List.mem_cons_self h
        exact absurd hc hopen
      · exact ih (List.mem_cons_of_mem body hs) h
    · cases hn with
      | body hb' =>
        obtain rfl := Option.some.inj (hb.symm.trans hb')
        exact ih List.mem_cons_self h

theorem mem_unionMembers_iff : member ∈ defs.unionMembers type ↔
    defs.opens member = false ∧ ReflTransGen defs.Enters type member := by
  constructor
  · intro h
    obtain ⟨hc, start, hs, hp⟩ := sound_of_mem_membersFrom h
    obtain rfl := List.mem_singleton.mp hs
    exact ⟨hc, hp⟩
  · rintro ⟨hc, hp⟩
    apply mem_membersFrom hc List.mem_cons_self
    exact hp.lift id fun type next hn => ⟨by simp, hn⟩

theorem membersFrom_all_closed {members : List Descriptor}
    (h : ∀ member ∈ members, defs.opens member = false) :
    defs.membersFrom seen members = members := by
  induction members with
  | nil => rw [membersFrom]
  | cons member members ih =>
    obtain ⟨hm, hrest⟩ := List.forall_mem_cons.mp h
    rw [membersFrom_closed hm, ih hrest]

end Flattening

section Resolution

theorem Refers.unfolds (h : defs.Refers type body) : defs.Unfolds type body := by
  obtain ⟨i, rfl, hb⟩ := h
  exact .body hb

theorem refers_rightUnique : Relator.RightUnique defs.Refers := by
  rintro type body body' ⟨i, rfl, hb⟩ ⟨j, hj, hb'⟩
  cases hj
  exact Option.some.inj (hb.symm.trans hb')

theorem not_refers_of_isEnd (h : defs.IsEnd last) : ¬ defs.Refers last next :=
  fun hr => not_unfolds_of_isEnd h hr.unfolds

variable (defs) in
theorem exists_run_resolveFrom (seen : List Nat) (type : Descriptor) :
    ∃ left, ReflTransGen (Trail.Step defs.Refers)
        ⟨seen.map .reference, type⟩ ⟨left, defs.resolveFrom seen type⟩ ∧
      Trail.Stops defs.Refers ⟨left, defs.resolveFrom seen type⟩ := by
  fun_induction defs.resolveFrom seen type with
  | case1 seen i hb =>
    have hend : defs.IsEnd (.reference i) := hb
    exact ⟨_, .refl, Trail.stops_iff.mpr (Or.inl fun _ => not_refers_of_isEnd hend)⟩
  | case2 seen i body hb hs =>
    exact ⟨_, .refl, Trail.stops_iff.mpr (Or.inr (List.mem_map_of_mem hs))⟩
  | case3 seen i body hb hs _ ih =>
    obtain ⟨left, hrun, hstops⟩ := ih
    have hnew : Descriptor.reference i ∉ seen.map .reference := by simpa using hs
    exact ⟨left, hrun.head (.on ⟨i, rfl, hb⟩ hnew), hstops⟩
  | case4 seen type hr =>
    refine ⟨_, .refl, Trail.stops_iff.mpr (Or.inl ?_)⟩
    rintro next ⟨i, rfl, -⟩
    exact hr i rfl

theorem mem_references (h : defs.Refers type body) : type ∈ defs.indices.map .reference := by
  obtain ⟨i, rfl, hb⟩ := h
  exact List.mem_map_of_mem (mem_indices_of_body hb)

variable (defs) in
theorem resolve_returns (type : Descriptor) :
    Trail.Returns defs.Refers defs.length type (defs.resolve type) := by
  obtain ⟨left, hrun, hstops⟩ := defs.exists_run_resolveFrom [] type
  have hreturns := Trail.returns_of_stops refers_rightUnique (fun _ _ => mem_references) hrun hstops
  rwa [List.length_map, indices, List.length_range] at hreturns

theorem reflTransGen_refers_resolve (type : Descriptor) :
    ReflTransGen defs.Refers type (defs.resolve type) :=
  (defs.resolve_returns type).path

theorem reflTransGen_unfolds_resolve (type : Descriptor) :
    ReflTransGen defs.Unfolds type (defs.resolve type) :=
  (reflTransGen_refers_resolve type).lift id fun _ _ => Refers.unfolds

theorem resolve_of_ends (h : ReflTransGen defs.Refers type last)
    (hl : ∀ next, ¬ defs.Refers last next) : defs.resolve type = last :=
  (defs.resolve_returns type).eq_of_ends refers_rightUnique h hl

theorem resolve_of_refers (h : defs.Refers type body)
    (hl : ∀ next, ¬ defs.Refers (defs.resolve body) next) :
    defs.resolve type = defs.resolve body :=
  resolve_of_ends ((reflTransGen_refers_resolve body).head h) hl

theorem resolve_of_isEnd (h : defs.IsEnd last) : defs.resolve last = last :=
  resolve_of_ends .refl fun _ => not_refers_of_isEnd h

theorem not_refers_union {members : List Descriptor} : ¬ defs.Refers (.union members) next := by
  rintro ⟨i, hi, -⟩
  cases hi

theorem resolve_union (members : List Descriptor) :
    defs.resolve (.union members) = .union members :=
  resolve_of_ends .refl fun _ => not_refers_union

theorem isEnd_of_expands_false (h : expands last = false) : defs.IsEnd last := by
  cases last with
  | union | reference => cases h
  | _ => trivial

theorem resolve_closed_reference (hb : defs.body? i = some body) (he : expands body = false) :
    defs.resolve (.reference i) = body := by
  have hend : defs.IsEnd body := isEnd_of_expands_false he
  exact resolve_of_ends (.single ⟨i, rfl, hb⟩) fun _ => not_refers_of_isEnd hend

theorem isEnd_resolve_of_closed (h : defs.opens member = false) :
    defs.IsEnd (defs.resolve member) := by
  cases he : expands member with
  | false =>
    have hend : defs.IsEnd member := isEnd_of_expands_false he
    rwa [resolve_of_isEnd hend]
  | true =>
    cases member with
    | union members => cases h
    | reference i =>
      cases hb : defs.body? i with
      | none =>
        have hend : defs.IsEnd (.reference i) := hb
        rwa [resolve_of_isEnd hend]
      | some body =>
        rw [opens_reference hb] at h
        rw [resolve_closed_reference hb h]
        exact isEnd_of_expands_false h
    | _ => cases he

end Resolution

theorem exists_member_resolve_iff :
    (∃ member ∈ defs.unionMembers type, defs.resolve member = last) ↔
      defs.IsEnd last ∧ ReflTransGen defs.Unfolds type last := by
  constructor
  · rintro ⟨member, hm, rfl⟩
    obtain ⟨hc, hp⟩ := mem_unionMembers_iff.mp hm
    refine ⟨isEnd_resolve_of_closed hc, ?_⟩
    have hunfolds : ReflTransGen defs.Unfolds type member := hp.lift id fun _ _ hn => hn.2
    exact hunfolds.trans (reflTransGen_unfolds_resolve member)
  · rintro ⟨hend, hp⟩
    simp only [mem_unionMembers_iff]
    induction hp using ReflTransGen.head_induction_on with
    | refl => exact ⟨last, ⟨opens_of_isEnd hend, .refl⟩, resolve_of_isEnd hend⟩
    | @head first next hstep _ ih =>
      obtain ⟨member, ⟨hc, hp⟩, hr⟩ := ih
      cases ho : defs.opens first with
      | true => exact ⟨member, ⟨hc, hp.head ⟨ho, hstep⟩⟩, hr⟩
      | false =>
        -- a reference to what is no union is a member itself
        cases hstep with
        | member hm => cases ho
        | body hb =>
          have he : expands next = false := (opens_reference hb).symm.trans ho
          have hnext : defs.IsEnd next := isEnd_of_expands_false he
          obtain rfl : member = next := eq_of_closed (opens_of_isEnd hnext) hp
          refine ⟨_, ⟨ho, .refl⟩, ?_⟩
          rw [resolve_closed_reference hb he, ← hr, resolve_of_isEnd hnext]

end NaturalFunctions.Definitions
