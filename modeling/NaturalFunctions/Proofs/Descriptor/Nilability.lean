import NaturalFunctions.Proofs.Descriptor.Members

namespace NaturalFunctions.Definitions

open Relation

def AllowsNil (type : Descriptor) : Prop := type = .primitive .nil ∨ type = .json

variable {defs : Definitions} {seen : List Nat} {pending : List Descriptor} {type last : Descriptor}

theorem isEnd_of_allowsNil (h : AllowsNil last) : defs.IsEnd last := by
  rcases h with rfl | rfl <;> trivial

theorem not_allowsNil_reference (i : Nat) : ¬ AllowsNil (.reference i) := by
  rintro (h | h) <;> cases h

theorem exists_path_of_nilFrom (h : defs.nilFrom seen pending = true) :
    ∃ type ∈ pending, ∃ last, AllowsNil last ∧ ReflTransGen defs.Unfolds type last := by
  fun_induction defs.nilFrom seen pending with
  | case1 seen => cases h
  | case2 seen rest => exact ⟨_, List.mem_cons_self, _, .inl rfl, .refl⟩
  | case3 seen rest => exact ⟨_, List.mem_cons_self, _, .inr rfl, .refl⟩
  | case4 seen members rest ih =>
    obtain ⟨start, hs, last, hl, hp⟩ := ih h
    rcases List.mem_append.mp hs with hs | hs
    · exact ⟨.union members, List.mem_cons_self, last, hl, hp.head (.member hs)⟩
    · exact ⟨start, List.mem_cons_of_mem _ hs, last, hl, hp⟩
  | case5 seen i rest hb ih =>
    obtain ⟨start, hs, hp⟩ := ih h
    exact ⟨start, List.mem_cons_of_mem _ hs, hp⟩
  | case6 seen i rest body hb hi ih =>
    obtain ⟨start, hs, hp⟩ := ih h
    exact ⟨start, List.mem_cons_of_mem _ hs, hp⟩
  | case7 seen i rest body hb hi ih =>
    obtain ⟨start, hs, last, hl, hp⟩ := ih h
    rcases List.mem_cons.mp hs with rfl | hs
    · exact ⟨.reference i, List.mem_cons_self, last, hl, hp.head (.body hb)⟩
    · exact ⟨start, List.mem_cons_of_mem _ hs, last, hl, hp⟩
  | case8 seen first rest hn hj hu hr ih =>
    obtain ⟨start, hs, hp⟩ := ih h
    exact ⟨start, List.mem_cons_of_mem _ hs, hp⟩

theorem nilFrom_of_path (hl : AllowsNil last) (hs : type ∈ pending)
    (h : ReflTransGen (Around defs.Unfolds seen) type last) : defs.nilFrom seen pending = true := by
  fun_induction defs.nilFrom seen pending generalizing type with
  | case1 seen => cases hs
  | case2 seen rest => rfl
  | case3 seen rest => rfl
  | case4 seen members rest ih =>
    rcases List.mem_cons.mp hs with rfl | hs
    · rcases ReflTransGen.cases_head h with rfl | ⟨next, ⟨-, hn⟩, hp⟩
      · have hend : defs.IsEnd (.union members) := isEnd_of_allowsNil hl
        cases hend
      · cases hn with
        | member hm => exact ih (List.mem_append_left rest hm) hp
    · exact ih (List.mem_append_right members hs) h
  | case5 seen i rest hb ih =>
    rcases List.mem_cons.mp hs with rfl | hs
    · have hend : defs.IsEnd (.reference i) := hb
      rcases ReflTransGen.cases_head h with rfl | ⟨next, ⟨-, hn⟩, -⟩
      · exact absurd hl (not_allowsNil_reference i)
      · exact absurd hn (not_unfolds_of_isEnd hend)
    · exact ih hs h
  | case6 seen i rest body hb hi ih =>
    rcases List.mem_cons.mp hs with rfl | hs
    · obtain rfl := eq_of_seen hi h
      exact absurd hl (not_allowsNil_reference i)
    · exact ih hs h
  | case7 seen i rest body hb hi ih =>
    rcases around_or_leaves i h with h | ⟨next, hn, h⟩
    · rcases List.mem_cons.mp hs with rfl | hs
      · obtain rfl := eq_of_seen List.mem_cons_self h
        exact absurd hl (not_allowsNil_reference i)
      · exact ih (List.mem_cons_of_mem body hs) h
    · cases hn with
      | body hb' =>
        obtain rfl := Option.some.inj (hb.symm.trans hb')
        exact ih List.mem_cons_self h
  | case8 seen first rest hn hj hu hr ih =>
    rcases List.mem_cons.mp hs with rfl | hs
    · rcases ReflTransGen.cases_head h with rfl | ⟨next, ⟨-, hstep⟩, -⟩
      · exact (hl.elim hn hj).elim
      · cases hstep with
        | member hm => exact (hu _ rfl).elim
        | body hb => exact (hr _ rfl).elim
    · exact ih hs h

theorem containsNil_iff_path : defs.containsNil type = true ↔
    ∃ last, AllowsNil last ∧ ReflTransGen defs.Unfolds type last := by
  constructor
  · intro h
    obtain ⟨start, hs, hp⟩ := exists_path_of_nilFrom h
    exact List.mem_singleton.mp hs ▸ hp
  · rintro ⟨last, hl, hp⟩
    apply nilFrom_of_path hl List.mem_cons_self
    exact hp.lift id fun type next hn => ⟨by simp, hn⟩

theorem containsNil_iff_member (defs : Definitions) (type : Descriptor) :
    defs.containsNil type = true ↔ ∃ member ∈ defs.unionMembers type,
      defs.resolve member = .primitive .nil ∨ defs.resolve member = .json := by
  rw [containsNil_iff_path]
  constructor
  · rintro ⟨last, hl, hp⟩
    obtain ⟨member, hm, rfl⟩ := exists_member_resolve_iff.mpr ⟨isEnd_of_allowsNil hl, hp⟩
    exact ⟨member, hm, hl⟩
  · rintro ⟨member, hm, hl⟩
    obtain ⟨-, hp⟩ := exists_member_resolve_iff.mp ⟨member, hm, rfl⟩
    exact ⟨defs.resolve member, hl, hp⟩

end NaturalFunctions.Definitions
