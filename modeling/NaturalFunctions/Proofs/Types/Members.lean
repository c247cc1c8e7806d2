import NaturalFunctions.Proofs.Chains
import NaturalFunctions.Types.Walk

namespace NaturalFunctions.SemanticModel

open Relation

variable (model : SemanticModel) {ty next last member : TypeId} {entered rest : List TypeId}

def LeadsTo (ty next : TypeId) : Prop := next ∈ (model.shape ty).next

def Bears (name : String) (ty : TypeId) : Prop := ∃ target, model.shape ty = .reference name target

def Refers (ty target : TypeId) : Prop := (model.shape ty).target? = some target

def HasMember (ty member : TypeId) : Prop :=
  ∃ members, model.shape (model.resolve ty) = .union members ∧ member ∈ members

def Single (ty : TypeId) : Prop := ∀ members, model.shape (model.resolve ty) ≠ .union members

def Opens (ty next : TypeId) : Prop :=
  model.Refers ty next ∨ ∃ members, model.shape ty = .union members ∧ next ∈ members

def Loops (ty : TypeId) : Prop :=
  ∃ back, ReflTransGen model.Opens ty back ∧ TransGen model.Opens back back

variable {model}

theorem Refers.unique (h : model.Refers ty next) (h' : model.Refers ty last) : next = last :=
  Option.some.inj (h.symm.trans h')

theorem refers_rightUnique : Relator.RightUnique model.Refers := fun _ _ _ => Refers.unique

theorem not_refers_of_none (hl : (model.shape last).target? = none) : ¬ model.Refers last next := by
  intro h
  rw [Refers, hl] at h
  cases h

variable (model) in
theorem exists_run_resolveFrom (seen : List TypeId) (ty : TypeId) :
    ∃ left, ReflTransGen (Trail.Step model.Refers) ⟨seen, ty⟩ ⟨left, model.resolveFrom seen ty⟩ ∧
      Trail.Stops model.Refers ⟨left, model.resolveFrom seen ty⟩ := by
  fun_induction model.resolveFrom seen ty with
  | case1 seen ty h =>
    exact ⟨seen, .refl, Trail.stops_iff.mpr (Or.inl fun next => not_refers_of_none h)⟩
  | case2 seen ty target h hs => exact ⟨seen, .refl, Trail.stops_iff.mpr (Or.inr hs)⟩
  | case3 seen ty target h hs _ ih =>
    obtain ⟨left, hrun, hstops⟩ := ih
    exact ⟨left, hrun.head (.on h hs), hstops⟩

variable (model) in
theorem resolve_returns (ty : TypeId) :
    Trail.Returns model.Refers model.inner.length ty (model.resolve ty) := by
  obtain ⟨left, hrun, hstops⟩ := model.exists_run_resolveFrom [] ty
  exact Trail.returns_of_stops refers_rightUnique (fun _ _ => model.mem_inner_of_target) hrun hstops

theorem reflTransGen_refers_resolve (ty : TypeId) :
    ReflTransGen model.Refers ty (model.resolve ty) :=
  (model.resolve_returns ty).path

theorem resolve_of_ends (h : ReflTransGen model.Refers ty last)
    (hl : (model.shape last).target? = none) : model.resolve ty = last :=
  (model.resolve_returns ty).eq_of_ends refers_rightUnique h fun _ => not_refers_of_none hl

theorem resolve_of_refers (h : model.Refers ty next)
    (hl : (model.shape (model.resolve next)).target? = none) :
    model.resolve ty = model.resolve next :=
  resolve_of_ends ((reflTransGen_refers_resolve next).head h) hl

theorem resolve_of_target_none (h : (model.shape ty).target? = none) : model.resolve ty = ty :=
  resolve_of_ends .refl h

theorem membersFrom_single (h : model.Single ty) :
    model.membersFrom entered (ty :: rest) = ty :: model.membersFrom entered rest := by
  rw [membersFrom]
  split
  · exact absurd ‹_› (h _)
  · rfl

theorem membersFrom_again {members : List TypeId}
    (h : model.shape (model.resolve ty) = .union members) (he : model.resolve ty ∈ entered) :
    model.membersFrom entered (ty :: rest) = model.membersFrom entered rest := by
  rw [membersFrom]
  split
  · rw [dif_pos he]
  · rename_i hnot
    exact (hnot members h).elim

theorem membersFrom_enter {members : List TypeId}
    (h : model.shape (model.resolve ty) = .union members) (he : model.resolve ty ∉ entered) :
    model.membersFrom entered (ty :: rest) =
      model.membersFrom (model.resolve ty :: entered) (members ++ rest) := by
  rw [membersFrom]
  split
  · rename_i members' h'
    obtain rfl : members = members' := TypeShape.union.inj (h.symm.trans h')
    rw [dif_neg he]
  · rename_i hnot
    exact (hnot members h).elim

theorem membersFrom_singles {members : List TypeId} (h : ∀ member ∈ members, model.Single member) :
    model.membersFrom entered members = members := by
  induction members with
  | nil => rw [membersFrom]
  | cons member members ih =>
    obtain ⟨hm, hrest⟩ := List.forall_mem_cons.mp h
    rw [membersFrom_single hm, ih hrest]

theorem unionMembers_of_singles {members : List TypeId}
    (h : model.shape (model.resolve ty) = .union members)
    (hm : ∀ member ∈ members, model.Single member) : model.unionMembers ty = members := by
  rw [unionMembers, membersFrom_enter h List.not_mem_nil, List.append_nil, membersFrom_singles hm]

theorem sound_of_mem_membersFrom {pending : List TypeId}
    (h : member ∈ model.membersFrom entered pending) :
    model.Single member ∧ ∃ ty ∈ pending, ReflTransGen model.HasMember ty member := by
  fun_induction model.membersFrom entered pending with
  | case1 => cases h
  | case2 entered ty rest members hm he ih =>
    obtain ⟨hs, start, hp, hr⟩ := ih h
    exact ⟨hs, start, List.mem_cons_of_mem ty hp, hr⟩
  | case3 entered ty rest members hm he ih =>
    obtain ⟨hs, start, hp, hr⟩ := ih h
    rcases List.mem_append.mp hp with hp | hp
    · exact ⟨hs, ty, List.mem_cons_self, hr.head ⟨members, hm, hp⟩⟩
    · exact ⟨hs, start, List.mem_cons_of_mem ty hp, hr⟩
  | case4 entered ty rest hm ih =>
    rcases List.mem_cons.mp h with rfl | h
    · exact ⟨hm, member, List.mem_cons_self, .refl⟩
    · obtain ⟨hs, start, hp, hr⟩ := ih h
      exact ⟨hs, start, List.mem_cons_of_mem ty hp, hr⟩

variable (model) in
def HasMemberAround (entered : List TypeId) (ty member : TypeId) : Prop :=
  model.resolve ty ∉ entered ∧ model.HasMember ty member

theorem around_or_leaves (union : TypeId)
    (h : ReflTransGen (model.HasMemberAround entered) ty last) :
    ReflTransGen (model.HasMemberAround (union :: entered)) ty last ∨
      ∃ members, model.shape union = .union members ∧ ∃ member ∈ members,
        ReflTransGen (model.HasMemberAround (union :: entered)) member last := by
  have hmono : ∀ {a b}, ReflTransGen (fun ty next =>
      ¬ model.resolve ty = union ∧ model.HasMemberAround entered ty next) a b →
        ReflTransGen (model.HasMemberAround (union :: entered)) a b := by
    intro a b hab
    refine hab.lift id fun ty next ⟨hne, hentered, hm⟩ => ⟨?_, hm⟩
    simp [hne, hentered]
  rcases avoids_or_leaves (fun ty => model.resolve ty = union) h with
    hpath | ⟨out, next, rfl, ⟨-, members, hm, hn⟩, hpath⟩
  · exact Or.inl (hmono hpath)
  · exact Or.inr ⟨members, hm, next, hn, hmono hpath⟩

theorem mem_membersFrom {pending : List TypeId} (hs : model.Single member) (hp : ty ∈ pending)
    (h : ReflTransGen (model.HasMemberAround entered) ty member) :
    member ∈ model.membersFrom entered pending := by
  fun_induction model.membersFrom entered pending generalizing ty with
  | case1 => cases hp
  | case2 entered start rest members hm he ih =>
    rcases List.mem_cons.mp hp with rfl | hp
    · rcases ReflTransGen.cases_head h with rfl | ⟨next, hn, -⟩
      · exact absurd hm (hs members)
      · exact absurd he hn.1
    · exact ih hp h
  | case3 entered start rest members hm he ih =>
    -- the path may go through the union that is entered here; from its last step out of it on, it
    -- starts at one of the members, which are pending now
    rcases around_or_leaves (model.resolve start) h with h | ⟨members', hm', inner, hi, hr⟩
    · rcases List.mem_cons.mp hp with rfl | hp
      · rcases ReflTransGen.cases_head h with rfl | ⟨next, hn, -⟩
        · exact absurd hm (hs members)
        · exact absurd List.mem_cons_self hn.1
      · exact ih (List.mem_append_right members hp) h
    · obtain rfl : members = members' := TypeShape.union.inj (hm.symm.trans hm')
      exact ih (List.mem_append_left rest hi) hr
  | case4 entered start rest hm ih =>
    rcases List.mem_cons.mp hp with rfl | hp
    · rcases ReflTransGen.cases_head h with rfl | ⟨next, hn, -⟩
      · exact List.mem_cons_self
      · obtain ⟨-, members, hu, -⟩ := hn
        exact absurd hu (hm members)
    · exact List.mem_cons_of_mem start (ih hp h)

theorem mem_unionMembers_iff :
    member ∈ model.unionMembers ty ↔
      model.Single member ∧ ReflTransGen model.HasMember ty member := by
  constructor
  · intro h
    obtain ⟨hs, start, hp, hr⟩ := sound_of_mem_membersFrom h
    obtain rfl := List.mem_singleton.mp hp
    exact ⟨hs, hr⟩
  · rintro ⟨hs, hr⟩
    have haround : ReflTransGen (model.HasMemberAround []) ty member :=
      hr.lift id fun _ _ hab => ⟨List.not_mem_nil, hab⟩
    exact mem_membersFrom hs List.mem_cons_self haround

theorem Refers.opens (h : model.Refers ty next) : model.Opens ty next := Or.inl h

theorem reflTransGen_opens_resolve (ty : TypeId) :
    ReflTransGen model.Opens ty (model.resolve ty) :=
  (reflTransGen_refers_resolve ty).lift id fun _ _ => Refers.opens

theorem reflTransGen_opens_of_hasMember (h : ReflTransGen model.HasMember ty member) :
    ReflTransGen model.Opens ty member := by
  induction h with
  | refl => exact .refl
  | tail _ hm ih =>
    obtain ⟨members, hu, hi⟩ := hm
    exact (ih.trans (reflTransGen_opens_resolve _)).tail (Or.inr ⟨members, hu, hi⟩)

theorem target_resolve_of_opens (h : ReflTransGen model.Opens ty last)
    (hl : (model.shape last).target? = none) :
    (model.shape (model.resolve ty)).target? = none := by
  induction h using ReflTransGen.head_induction_on with
  | refl => rwa [resolve_of_target_none hl]
  | @head a c hac _ ih =>
    rcases hac with hr | ⟨members, hu, -⟩
    · rwa [resolve_of_refers hr ih]
    · have hn : (model.shape a).target? = none := by rw [hu]; rfl
      rwa [resolve_of_target_none hn]

theorem exists_member_resolve_iff (hl : (model.shape last).target? = none)
    (hu : ∀ members, model.shape last ≠ .union members) :
    (∃ member ∈ model.unionMembers ty, model.resolve member = last) ↔
      ReflTransGen model.Opens ty last := by
  constructor
  · rintro ⟨member, hm, rfl⟩
    exact (reflTransGen_opens_of_hasMember (mem_unionMembers_iff.mp hm).2).trans
      (reflTransGen_opens_resolve member)
  · intro h
    simp only [mem_unionMembers_iff]
    induction h using ReflTransGen.head_induction_on with
    | refl =>
      have hself := resolve_of_target_none hl
      refine ⟨last, ⟨fun members hm => hu members ?_, .refl⟩, hself⟩
      rwa [hself] at hm
    | @head a c hac hrest ih =>
      obtain ⟨member, ⟨hs, hr⟩, hres⟩ := ih
      rcases hac with href | ⟨members, hmem, hi⟩
      · have hsame := resolve_of_refers href (target_resolve_of_opens hrest hl)
        rcases ReflTransGen.cases_head hr with rfl | ⟨next, ⟨members, hmem, hi⟩, hrest'⟩
        · refine ⟨a, ⟨fun members => ?_, .refl⟩, hsame.trans hres⟩
          rw [hsame]
          exact hs members
        · exact ⟨member, ⟨hs, hrest'.head ⟨members, hsame ▸ hmem, hi⟩⟩, hres⟩
      · have hself : model.resolve a = a := resolve_of_target_none (by rw [hmem]; rfl)
        exact ⟨member, ⟨hs, hr.head ⟨members, by rwa [hself], hi⟩⟩, hres⟩

theorem Opens.leadsTo (h : model.Opens ty next) : model.LeadsTo ty next := by
  rcases h with h | ⟨members, hm, hi⟩
  · rw [Refers] at h
    simp [LeadsTo, TypeShape.next, h]
  · rw [LeadsTo, hm]
    exact List.mem_append_left _ hi

theorem mem_inner_of_opens (h : model.Opens ty next) : ty ∈ model.inner :=
  model.mem_inner ty (List.ne_nil_of_mem h.leadsTo)

theorem Loops.opens (h : model.Loops ty) : ∃ next, model.Opens ty next ∧ model.Loops next := by
  obtain ⟨back, hb, hc⟩ := h
  rcases ReflTransGen.cases_head hb with rfl | ⟨next, hn, hrest⟩
  · obtain ⟨next, hn, hrest⟩ := TransGen.head'_iff.mp hc
    exact ⟨next, hn, ty, hrest, hc⟩
  · exact ⟨next, hn, back, hrest, hc⟩

theorem acc_iff_not_loops : Acc (Function.swap model.Opens) ty ↔ ¬ model.Loops ty :=
  acc_iff_no_cycle fun _ _ => mem_inner_of_opens

theorem acc_of_not_loops (h : ¬ model.Loops ty) : Acc (Function.swap model.Opens) ty :=
  acc_iff_not_loops.mpr h

end NaturalFunctions.SemanticModel
