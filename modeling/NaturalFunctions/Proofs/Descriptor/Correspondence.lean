import NaturalFunctions.Proofs.Derivation.Agreement
import NaturalFunctions.Proofs.Descriptor.Members
import NaturalFunctions.Proofs.Types.Members

/-!
The members of a type at compile time and at run time. Both flattenings lose nothing that is reached
through unions, so types of the same shape have members that correspond, however the unions lead
back into one another.
-/

namespace NaturalFunctions

open Relation

namespace Definitions

variable (defs : Definitions)

def bare : Definitions := defs.map fun definition => { definition with schema := none }

def HasMember (type member : Descriptor) : Prop :=
  ∃ members, defs.resolve type = .union members ∧ member ∈ members

def Single (type : Descriptor) : Prop := ∀ members, defs.resolve type ≠ .union members

def Endless (i : Nat) : Prop :=
  ∃ chain : Nat → Nat, chain 0 = i ∧ ∀ n, defs.body? (chain n) = some (.reference (chain (n + 1)))

def Grounded (type : Descriptor) : Prop :=
  ∀ i, ReflTransGen defs.Unfolds type (.reference i) → ¬ defs.Endless i

variable {defs} {type next last member : Descriptor}

theorem body?_bare (i : Nat) : defs.bare.body? i = defs.body? i := by
  simp only [body?, bare, List.getElem?_map]
  cases defs[i]? <;> rfl

theorem Grounded.trans (h : defs.Grounded type) (hp : ReflTransGen defs.Unfolds type next) :
    defs.Grounded next :=
  fun i hi => h i (hp.trans hi)

theorem Grounded.acc (h : defs.Grounded type) : Acc (Function.swap defs.Refers) type := by
  by_contra hnot
  obtain ⟨types, hfirst, hrefers⟩ := unending_iff_not_acc.mpr hnot
  choose chain hchain using hrefers
  apply h (chain 0)
  · rw [← hfirst, (hchain 0).1]
  · refine ⟨chain, rfl, fun n => ?_⟩
    rw [(hchain n).2, (hchain (n + 1)).1]

theorem not_refers_resolve_of_acc (h : Acc (Function.swap defs.Refers) type) :
    ¬ defs.Refers (defs.resolve type) next := by
  have hends : ¬ Unending defs.Refers type := by rwa [unending_iff_not_acc, not_not]
  exact ((defs.resolve_returns type).not_unending_iff refers_rightUnique).mp hends next

theorem acc_of_path (hl : defs.IsEnd last) (h : ReflTransGen defs.Unfolds type last) :
    Acc (Function.swap defs.Refers) type := by
  induction h using ReflTransGen.head_induction_on with
  | refl => exact ⟨last, fun next hn => absurd hn (not_refers_of_isEnd hl)⟩
  | head hstep _ ih =>
    refine ⟨_, fun body hr => ?_⟩
    obtain ⟨i, rfl, hb⟩ := hr
    cases hstep with
    | body hb' => exact Option.some.inj (hb'.symm.trans hb) ▸ ih

theorem isEnd_resolve_of_single (h : defs.Single type)
    (hn : ∀ next, ¬ defs.Refers (defs.resolve type) next) : defs.IsEnd (defs.resolve type) := by
  cases hr : defs.resolve type with
  | union members => exact absurd hr (h members)
  | reference i =>
    rw [hr] at hn
    cases hb : defs.body? i with
    | none => exact hb
    | some body => exact absurd ⟨i, rfl, hb⟩ (hn body)
  | _ => trivial

theorem reflTransGen_unfolds_of_hasMember (h : ReflTransGen defs.HasMember type member) :
    ReflTransGen defs.Unfolds type member := by
  induction h with
  | refl => exact .refl
  | @tail holder member _ hm ih =>
    obtain ⟨members, hu, hi⟩ := hm
    have hunion : ReflTransGen defs.Unfolds holder (.union members) :=
      hu ▸ reflTransGen_unfolds_resolve holder
    exact (ih.trans hunion).tail (.member hi)

theorem exists_single_of_path (hl : defs.IsEnd last) (h : ReflTransGen defs.Unfolds type last) :
    ∃ member, defs.Single member ∧ ReflTransGen defs.HasMember type member ∧
      defs.resolve member = last := by
  induction h using ReflTransGen.head_induction_on with
  | refl =>
    have hself := resolve_of_isEnd hl
    refine ⟨last, fun members hm => ?_, .refl, hself⟩
    obtain rfl := hself.symm.trans hm
    exact hl
  | @head first next hstep hrest ih =>
    obtain ⟨member, hs, hp, hr⟩ := ih
    cases hstep with
    | member hm => exact ⟨member, hs, hp.head ⟨_, resolve_union _, hm⟩, hr⟩
    | @body i _ hb =>
      have hsame : defs.resolve (.reference i) = defs.resolve next :=
        resolve_of_refers ⟨i, rfl, hb⟩ fun _ => not_refers_resolve_of_acc (acc_of_path hl hrest)
      rcases ReflTransGen.cases_head hp with rfl | ⟨inner, hm, hp⟩
      · refine ⟨.reference i, ?_, .refl, hsame.trans hr⟩
        rwa [Single, hsame]
      · refine ⟨member, hs, hp.head ?_, hr⟩
        rwa [HasMember, hsame]

theorem exists_single_iff (h : defs.Grounded type) :
    (∃ member, defs.Single member ∧ ReflTransGen defs.HasMember type member ∧
      defs.resolve member = last) ↔ defs.IsEnd last ∧ ReflTransGen defs.Unfolds type last := by
  constructor
  · rintro ⟨member, hs, hp, rfl⟩
    have hpath := reflTransGen_unfolds_of_hasMember hp
    have hacc := (h.trans hpath).acc
    refine ⟨isEnd_resolve_of_single hs fun _ => not_refers_resolve_of_acc hacc, ?_⟩
    exact hpath.trans (reflTransGen_unfolds_resolve member)
  · rintro ⟨hl, hp⟩
    exact exists_single_of_path hl hp

end Definitions

section Shapes

variable {model : SemanticModel} {defs : Definitions} {R : TypeId → Descriptor → Prop}
  {ty next : TypeId} {type next' : Descriptor}

theorem Alike.refers (h : Alike defs.bare [] R (model.shape ty) type) (hr : model.Refers ty next) :
    ∃ body, defs.Refers type body ∧ R next body := by
  rw [SemanticModel.Refers] at hr
  generalize model.shape ty = shape at h hr
  cases h with
  | @reference name target i body _ hb hbody _ =>
    obtain rfl : target = next := Option.some.inj hr
    rw [Definitions.body?_bare] at hb
    exact ⟨body, ⟨i, rfl, hb⟩, hbody⟩
  | _ => cases hr

theorem Alike.unfolds (h : Alike defs.bare [] R (model.shape ty) type)
    (ho : model.Opens ty next) : ∃ next', defs.Unfolds type next' ∧ R next next' := by
  rcases ho with hr | ⟨members, hu, hm⟩
  · obtain ⟨body, hb, hbody⟩ := h.refers hr
    exact ⟨body, hb.unfolds, hbody⟩
  · rw [hu] at h
    cases h with
    | union h =>
      obtain ⟨member', hm', hr⟩ := exists_mem_of_forall₂ h hm
      exact ⟨member', .member hm', hr⟩

theorem Alike.opens (h : Alike defs.bare [] R (model.shape ty) type)
    (hu : defs.Unfolds type next') : ∃ next, model.Opens ty next ∧ R next next' := by
  generalize hs : model.shape ty = shape at h
  cases hu with
  | member hm =>
    cases h with
    | union h =>
      obtain ⟨member, hm', hr⟩ := exists_mem_of_forall₂ h.flip hm
      exact ⟨member, Or.inr ⟨_, hs, hm'⟩, hr⟩
  | body hb =>
    cases h with
    | reference _ hb' hr _ =>
      rw [Definitions.body?_bare, hb] at hb'
      obtain rfl := Option.some.inj hb'
      have href : model.Refers ty _ := congrArg TypeShape.target? hs
      exact ⟨_, href.opens, hr⟩

theorem Alike.isEnd_iff (h : Alike defs.bare [] R (model.shape ty) type) : defs.IsEnd type ↔
    (model.shape ty).target? = none ∧ ∀ members, model.shape ty ≠ .union members := by
  generalize model.shape ty = shape at h
  cases h with
  | reference _ hb _ _ =>
    rw [Definitions.body?_bare] at hb
    simp [Definitions.IsEnd, hb, TypeShape.target?]
  | _ => simp [Definitions.IsEnd, TypeShape.target?]

variable (hR : ∀ t r, R t r → Alike defs.bare [] R (model.shape t) r)

include hR

theorem target_resolve_of_acc (hr : R ty type) (h : Acc (Function.swap defs.Refers) type) :
    (model.shape (model.resolve ty)).target? = none := by
  induction h generalizing ty with
  | intro type _ ih =>
    cases ht : (model.shape ty).target? with
    | none => rwa [SemanticModel.resolve_of_target_none ht]
    | some target =>
      obtain ⟨body, hb, hbody⟩ := (hR ty type hr).refers ht
      have htarget := ih body hb hbody
      rwa [SemanticModel.resolve_of_refers ht htarget]

theorem exists_runtime_member (hr : R ty type) (hg : defs.Grounded type) {member : TypeId}
    (hm : member ∈ model.unionMembers ty) :
    ∃ member' ∈ defs.unionMembers type, R (model.resolve member) (defs.resolve member') := by
  obtain ⟨hs, hp⟩ := SemanticModel.mem_unionMembers_iff.mp hm
  have hopens := SemanticModel.reflTransGen_opens_of_hasMember hp
  have hstep : ∀ t r, R t r → ∀ next, model.Opens t next →
      ∃ next', defs.Unfolds r next' ∧ R next next' := fun t r h next => (hR t r h).unfolds
  obtain ⟨other, hother, hro⟩ := exists_path_of_matched hstep hr hopens
  obtain ⟨last, hlast, hrl⟩ :=
    exists_path_of_matched hstep hro (SemanticModel.reflTransGen_opens_resolve member)
  have htarget := target_resolve_of_acc hR hro (hg.trans hother).acc
  have hend : defs.IsEnd last := (hR _ _ hrl).isEnd_iff.mpr ⟨htarget, hs⟩
  obtain ⟨member', hm', rfl⟩ :=
    Definitions.exists_member_resolve_iff.mpr ⟨hend, hother.trans hlast⟩
  exact ⟨member', hm', hrl⟩

theorem exists_static_member (hr : R ty type) {member' : Descriptor}
    (hm : member' ∈ defs.unionMembers type) :
    ∃ member ∈ model.unionMembers ty, R (model.resolve member) (defs.resolve member') := by
  obtain ⟨hend, hp⟩ := Definitions.exists_member_resolve_iff.mp ⟨member', hm, rfl⟩
  have hstep : ∀ r t, R t r → ∀ next', defs.Unfolds r next' →
      ∃ next, model.Opens t next ∧ R next next' := fun r t h next' => (hR t r h).opens
  obtain ⟨last, hopens, hrl⟩ := exists_path_of_matched hstep hr hp
  obtain ⟨htarget, hu⟩ := (hR _ _ hrl).isEnd_iff.mp hend
  obtain ⟨member, hm, rfl⟩ := (SemanticModel.exists_member_resolve_iff htarget hu).mpr hopens
  exact ⟨member, hm, hrl⟩

end Shapes

/-- At compile time the members are the types reached through unions that resolve to no union
themselves. At run time they resolve to the same as those types, where no chain of references is
endless, and types of the same shape resolve to members of the same shape on both sides. -/
theorem members_exactly (arena : TypeArena) (defs : Definitions) :
    (∀ ty member, member ∈ arena.model.unionMembers ty ↔
      arena.model.Single member ∧ ReflTransGen arena.model.HasMember ty member) ∧
    ∀ type, defs.Grounded type →
      (∀ last, (∃ member ∈ defs.unionMembers type, defs.resolve member = last) ↔
        ∃ member, defs.Single member ∧ ReflTransGen defs.HasMember type member ∧
          defs.resolve member = last) ∧
      ∀ ty, SameShape defs.bare [] arena.model ty type →
        (∀ member ∈ arena.model.unionMembers ty, ∃ member' ∈ defs.unionMembers type,
          SameShape defs.bare [] arena.model (arena.model.resolve member) (defs.resolve member')) ∧
        ∀ member' ∈ defs.unionMembers type, ∃ member ∈ arena.model.unionMembers ty,
          SameShape defs.bare [] arena.model
            (arena.model.resolve member) (defs.resolve member') := by
  refine ⟨fun ty member => SemanticModel.mem_unionMembers_iff, fun type hg => ⟨fun last => ?_, ?_⟩⟩
  · exact Definitions.exists_member_resolve_iff.trans (Definitions.exists_single_iff hg).symm
  · rintro ty ⟨R, hR, hr⟩
    constructor
    · intro member hm
      obtain ⟨member', hm', hrm⟩ := exists_runtime_member hR hr hg hm
      exact ⟨member', hm', R, hR, hrm⟩
    · intro member' hm'
      obtain ⟨member, hm, hrm⟩ := exists_static_member hR hr hm'
      exact ⟨member, hm, R, hR, hrm⟩

def ringBody (other : Nat) (kind : PrimitiveKind) : Descriptor :=
  .union [.reference other, .primitive kind]

def ringDefinitions : Definitions :=
  [⟨"Left", some (ringBody 1 .int), none⟩, ⟨"Right", some (ringBody 0 .string), some .null⟩]

def ringArena : TypeArena :=
  (((((TypeArena.empty.add (.named "Left" none) (by decide)).add (.named "Right" none)
    (by decide)).add (.primitive .int) (by decide)).add (.primitive .string) (by decide)).add
    (.union [3, 4]) (by decide)).add (.union [2, 5]) (by decide) |>.define 2 6 (by decide)
    |>.define 3 7 (by decide)

theorem members_exactly_ring :
    ringDefinitions.Grounded (.reference 0) ∧
    SameShape ringDefinitions.bare [] ringArena.model 2 (.reference 0) ∧
    (∃ member ∈ ringDefinitions.unionMembers (.reference 0),
      ringDefinitions.resolve member = .primitive .string) ∧
    ∃ member ∈ ringArena.model.unionMembers 2,
      ringArena.model.shape (ringArena.model.resolve member) = .primitive .string := by
  have hleft : ringDefinitions.body? 0 = some (ringBody 1 .int) := rfl
  have hright : ringDefinitions.body? 1 = some (ringBody 0 .string) := rfl
  have hground : ringDefinitions.Grounded (.reference 0) := by
    have hno : ∀ i j, ringDefinitions.body? i ≠ some (.reference j) := by
      intro i j h
      match i with
      | 0 | 1 | _ + 2 => cases h
    rintro i - ⟨chain, -, hchain⟩
    exact hno _ _ (hchain 0)
  have hshape : SameShape ringDefinitions.bare [] ringArena.model 2 (.reference 0) := by
    refine ⟨fun t r => (t, r) ∈ [(2, .reference 0), (3, .reference 1), (4, .primitive .int),
      (5, .primitive .string), (6, ringBody 1 .int), (7, ringBody 0 .string)], ?_, by simp⟩
    intro t r hr
    simp only [List.mem_cons, List.not_mem_nil, Prod.mk.injEq, or_false] at hr
    rcases hr with ⟨rfl, rfl⟩ | ⟨rfl, rfl⟩ | ⟨rfl, rfl⟩ | ⟨rfl, rfl⟩ | ⟨rfl, rfl⟩ | ⟨rfl, rfl⟩
    · exact @Alike.reference _ _ _ "Left" 6 0 (ringBody 1 .int) rfl rfl (by simp) rfl
    · exact @Alike.reference _ _ _ "Right" 7 1 (ringBody 0 .string) rfl rfl (by simp) rfl
    · exact .primitive .int
    · exact .primitive .string
    · exact .union (.cons (by simp) (.cons (by simp) .nil))
    · exact .union (.cons (by simp) (.cons (by simp) .nil))
  obtain ⟨-, hruntime⟩ := members_exactly ringArena ringDefinitions
  obtain ⟨hmembers, hcorrespond⟩ := hruntime (.reference 0) hground
  have hstring : ∃ member ∈ ringDefinitions.unionMembers (.reference 0),
      ringDefinitions.resolve member = .primitive .string := by
    have hresolve {i other : Nat} {kind : PrimitiveKind}
        (hb : ringDefinitions.body? i = some (ringBody other kind)) :
        ringDefinitions.resolve (.reference i) = ringBody other kind :=
      Definitions.resolve_of_ends (.single ⟨i, rfl, hb⟩) fun _ => Definitions.not_refers_union
    have hself : ringDefinitions.resolve (.primitive .string) = .primitive .string :=
      Definitions.resolve_of_isEnd (Definitions.isEnd_of_expands_false rfl)
    apply (hmembers _).mpr
    refine ⟨.primitive .string, fun members hm => ?_, ?_, hself⟩
    · cases hself.symm.trans hm
    · exact .tail (.single ⟨_, hresolve hleft, by simp⟩) ⟨_, hresolve hright, by simp⟩
  refine ⟨hground, hshape, hstring, ?_⟩
  obtain ⟨member', hm', hr⟩ := hstring
  obtain ⟨member, hm, R, hR, hrm⟩ := (hcorrespond 2 hshape).2 member' hm'
  refine ⟨member, hm, ?_⟩
  have halike := hR _ _ hrm
  rw [hr] at halike
  generalize ringArena.model.shape (ringArena.model.resolve member) = shape at halike
  cases halike
  rfl

end NaturalFunctions
