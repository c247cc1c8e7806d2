import Mathlib.Data.Set.Basic
import NaturalFunctions.Descriptor.Listing
import NaturalFunctions.Proofs.Descriptor.Correspondence

namespace NaturalFunctions.Definitions

open Relation

def alternatives (defs : Definitions) (type : Descriptor) : Set Descriptor :=
  {last | last ≠ .nil ∧ ∃ member ∈ defs.unionMembers type, defs.resolve member = last}

def Leads (defs : Definitions) (type first : Descriptor) : Prop :=
  ∃ nils rest, defs.resolve type = .union (nils ++ first :: rest) ∧
    (∀ member ∈ nils, defs.resolve member = .nil) ∧ defs.resolve first ≠ .nil

variable {defs : Definitions} {type body member first last : Descriptor}
  {members rest : List Descriptor}

theorem mem_alternatives_iff : last ∈ defs.alternatives type ↔
    last ≠ .nil ∧ defs.IsEnd last ∧ ReflTransGen defs.Unfolds type last :=
  and_congr_right' exists_member_resolve_iff

theorem isNil_iff : defs.isNil type = true ↔ defs.resolve type = .nil := by
  unfold isNil Descriptor.nil
  split <;> simp_all

section Alternatives

theorem path_iff_of_refers (hr : defs.Refers type body) (hl : defs.IsEnd last) :
    ReflTransGen defs.Unfolds type last ↔ ReflTransGen defs.Unfolds body last := by
  constructor
  · intro h
    rcases ReflTransGen.cases_head h with rfl | ⟨next, hstep, hrest⟩
    · exact absurd hr (not_refers_of_isEnd hl)
    · obtain ⟨i, rfl, hb⟩ := hr
      cases hstep with
      | body hb' => exact Option.some.inj (hb'.symm.trans hb) ▸ hrest
  · exact fun h => h.head hr.unfolds

theorem alternatives_resolve (type : Descriptor) :
    defs.alternatives (defs.resolve type) = defs.alternatives type := by
  have hsame : ∀ body, ReflTransGen defs.Refers type body →
      defs.alternatives body = defs.alternatives type := by
    intro body h
    induction h with
    | refl => rfl
    | tail _ hr ih =>
      rw [← ih]
      apply Set.ext
      intro last
      rw [mem_alternatives_iff, mem_alternatives_iff]
      apply and_congr_right'
      apply and_congr_right
      exact fun hl => (path_iff_of_refers hr hl).symm
  exact hsame _ (reflTransGen_refers_resolve type)

theorem mem_alternatives_union_iff : last ∈ defs.alternatives (.union members) ↔
    ∃ member ∈ members, last ∈ defs.alternatives member := by
  simp only [mem_alternatives_iff]
  constructor
  · rintro ⟨hn, hl, hp⟩
    rcases ReflTransGen.cases_head hp with rfl | ⟨next, hstep, hrest⟩
    · cases hl
    · cases hstep with
      | member hm => exact ⟨next, hm, hn, hl, hrest⟩
  · rintro ⟨member, hm, hn, hl, hp⟩
    exact ⟨hn, hl, hp.head (.member hm)⟩

theorem mem_alternatives_of_isEnd (h : defs.IsEnd type) :
    last ∈ defs.alternatives type ↔ last ≠ .nil ∧ last = type := by
  rw [mem_alternatives_iff]
  apply and_congr_right'
  constructor
  · rintro ⟨-, hp⟩
    rcases ReflTransGen.cases_head hp with rfl | ⟨next, hstep, -⟩
    · rfl
    · exact absurd hstep (not_unfolds_of_isEnd h)
  · rintro rfl
    exact ⟨h, .refl⟩

theorem alternatives_subset_of_hasMember (h : defs.HasMember type member) :
    defs.alternatives member ⊆ defs.alternatives type := by
  obtain ⟨members, hu, hm⟩ := h
  rw [← alternatives_resolve type, hu]
  exact fun last hl => mem_alternatives_union_iff.mpr ⟨member, hm, hl⟩

end Alternatives

section Unwrapping

theorem leads_iff (hu : defs.resolve type = .union members) : defs.Leads type first ↔
    members.find? (fun member => !defs.isNil member) = some first := by
  simp only [List.find?_eq_some_iff_append, Bool.not_not, Bool.not_eq_true', ← Bool.not_eq_true,
    isNil_iff, Leads, hu, Descriptor.union.injEq]
  constructor
  · rintro ⟨nils, rest, rfl, hnils, hfirst⟩
    exact ⟨hfirst, nils, rest, rfl, hnils⟩
  · rintro ⟨hfirst, nils, rest, rfl, hnils⟩
    exact ⟨nils, rest, rfl, hnils, hfirst⟩

theorem leads_union_cons (h : defs.resolve first ≠ .nil) :
    defs.Leads (.union (first :: rest)) first :=
  ⟨[], rest, resolve_union _, by simp, h⟩

theorem nonNilMember_of_leads (h : defs.Leads type first) : defs.nonNilMember type = first := by
  obtain ⟨nils, rest, hu, -⟩ := id h
  simp [nonNilMember, hu, (leads_iff hu).mp h]

theorem nonNilMember_of_not_leads (h : ∀ first, ¬ defs.Leads type first) :
    defs.nonNilMember type = type := by
  unfold nonNilMember
  split
  · rename_i members hu
    cases hf : members.find? (fun member => !defs.isNil member) with
    | none => rfl
    | some first => exact absurd ((leads_iff hu).mpr hf) (h first)
  · rfl

theorem Leads.unique {other : Descriptor} (h : defs.Leads type first) (ho : defs.Leads type other) :
    other = first :=
  (nonNilMember_of_leads ho).symm.trans (nonNilMember_of_leads h)

theorem Leads.hasMember (h : defs.Leads type first) : defs.HasMember type first := by
  obtain ⟨nils, rest, hu, -⟩ := h
  exact ⟨_, hu, by simp⟩

theorem Leads.alternatives_eq_iff (h : defs.Leads type first) :
    defs.alternatives first = defs.alternatives type ↔
      ∀ member, defs.HasMember type member → defs.alternatives member ⊆ defs.alternatives first := by
  constructor
  · intro heq member hm
    rw [heq]
    exact alternatives_subset_of_hasMember hm
  · intro hall
    apply Set.Subset.antisymm (alternatives_subset_of_hasMember h.hasMember)
    obtain ⟨nils, rest, hu, -⟩ := h
    rw [← alternatives_resolve type, hu]
    intro last hl
    obtain ⟨member, hm, hlast⟩ := mem_alternatives_union_iff.mp hl
    exact hall member ⟨_, hu, hm⟩ hlast

end Unwrapping

structure Lists (defs : Definitions) (field : RecordField Descriptor) (entry : ListedField) :
    Prop where
  name : entry.name = field.name
  gains_nothing : defs.alternatives entry.type ⊆ defs.alternatives field.type
  keeps_all_iff : defs.alternatives entry.type = defs.alternatives field.type ↔
    ∀ first, defs.Leads field.type first → ∀ member, defs.HasMember field.type member →
      defs.alternatives member ⊆ defs.alternatives first
  whole_iff : entry.type = field.type ↔ ∀ first, defs.Leads field.type first → first = field.type

theorem lists_field {field : RecordField Descriptor} {entry : ListedField}
    (hname : entry.name = field.name) (htype : entry.type = defs.nonNilMember field.type) :
    defs.Lists field entry := by
  by_cases h : ∃ first, defs.Leads field.type first
  · obtain ⟨first, hf⟩ := h
    rw [nonNilMember_of_leads hf] at htype
    refine ⟨hname, ?_, ?_, ?_⟩
    · exact htype ▸ alternatives_subset_of_hasMember hf.hasMember
    · rw [htype, hf.alternatives_eq_iff]
      exact ⟨fun hall other ho => hf.unique ho ▸ hall, fun hall => hall first hf⟩
    · rw [htype]
      exact ⟨fun heq other ho => (hf.unique ho).trans heq, fun hall => hall first hf⟩
  · rw [not_exists] at h
    rw [nonNilMember_of_not_leads h] at htype
    refine ⟨hname, ?_, ?_, ?_⟩
    · rw [htype]
    · exact iff_of_true (by rw [htype]) fun first hf => absurd hf (h first)
    · exact iff_of_true htype fun first hf => absurd hf (h first)

theorem listed_fields_keep {fields : List (RecordField Descriptor)}
    (h : defs.resolve type = .record fields) :
    ∃ listed, defs.recordFields? type = some listed ∧
      List.Forall₂ (defs.Lists) fields listed := by
  refine ⟨_, by rw [recordFields?, h], ?_⟩
  apply List.forall₂_map_right_iff.mpr
  exact List.forall₂_same.mpr fun field _ => lists_field rfl rfl

def livesField : RecordField Descriptor := ⟨"lives", .optional (.primitive .int), true⟩

def catDefinitions : Definitions := [⟨"Cat", some (.record [livesField]), none⟩]

theorem listed_fields_keep_lives :
    catDefinitions.resolve (.reference 0) = .record [livesField] ∧
      ∃ entry, catDefinitions.recordFields? (.reference 0) = some [entry] ∧
        entry.type ≠ livesField.type ∧
        catDefinitions.alternatives entry.type = catDefinitions.alternatives livesField.type := by
  have hresolve : catDefinitions.resolve (.reference 0) = .record [livesField] :=
    resolve_closed_reference rfl rfl
  have hint : catDefinitions.Leads livesField.type (.primitive .int) := by
    apply leads_union_cons
    rw [resolve_of_isEnd (isEnd_of_expands_false rfl)]
    simp [Descriptor.nil]
  obtain ⟨listed, hlisted, hforall⟩ := listed_fields_keep hresolve
  obtain ⟨entry, rest, hentry, hrest, rfl⟩ := List.forall₂_cons_left_iff.mp hforall
  obtain rfl := List.forall₂_nil_left_iff.mp hrest
  refine ⟨hresolve, entry, hlisted, ?_, ?_⟩
  · intro hwhole
    cases hentry.whole_iff.mp hwhole _ hint
  · apply hentry.keeps_all_iff.mpr
    rintro first hf member ⟨members, hu, hm⟩
    obtain rfl := hint.unique hf
    cases (resolve_union _).symm.trans hu
    rcases List.mem_pair.mp hm with rfl | rfl
    · exact Set.Subset.rfl
    · intro last hl
      obtain ⟨hn, rfl⟩ := (mem_alternatives_of_isEnd (isEnd_of_expands_false rfl)).mp hl
      exact absurd rfl hn

def choiceFields : List (RecordField Descriptor) :=
  [⟨"free", .union [.primitive .string, .primitive .int, .nil], false⟩,
    ⟨"fixed", .union [.primitive .string, .primitive .int], false⟩]

theorem listed_fields_lose_choice :
    ∃ listed, recordFields? [] (.record choiceFields) = some listed ∧
      List.Forall₂ (fun field entry => entry.type = .primitive .string ∧
        .primitive .int ∈ alternatives [] field.type ∧
        .primitive .int ∉ alternatives [] entry.type) choiceFields listed := by
  have hend (kind : PrimitiveKind) : IsEnd [] (.primitive kind) := isEnd_of_expands_false rfl
  have hint : .primitive .int ∈ alternatives [] (.primitive .int) :=
    (mem_alternatives_of_isEnd (hend .int)).mpr ⟨by simp [Descriptor.nil], rfl⟩
  have hlost : .primitive .int ∉ alternatives [] (.primitive .string) := by
    rw [mem_alternatives_of_isEnd (hend .string)]
    rintro ⟨-, heq⟩
    cases heq
  have hfirst : resolve [] (.primitive .string) ≠ .nil := by
    rw [resolve_of_isEnd (hend .string)]
    simp [Descriptor.nil]
  have hchoice : ∀ field ∈ choiceFields, ∃ rest,
      field.type = .union (.primitive .string :: rest) ∧ .primitive .int ∈ rest := by
    intro field hf
    rcases List.mem_pair.mp hf with rfl | rfl
    · exact ⟨_, rfl, by simp⟩
    · exact ⟨_, rfl, by simp⟩
  refine ⟨_, by rw [recordFields?, resolve_of_isEnd (isEnd_of_expands_false rfl)], ?_⟩
  apply List.forall₂_map_right_iff.mpr
  apply List.forall₂_same.mpr
  intro field hf
  obtain ⟨rest, htype, hm⟩ := hchoice field hf
  dsimp only
  rw [htype, nonNilMember_of_leads (leads_union_cons hfirst)]
  refine ⟨rfl, mem_alternatives_union_iff.mpr ⟨_, List.mem_cons_of_mem _ hm, hint⟩, hlost⟩

end NaturalFunctions.Definitions
