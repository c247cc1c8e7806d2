import NaturalFunctions.Proofs.Answer.ErrorMember
import NaturalFunctions.Proofs.Descriptor.Members

namespace NaturalFunctions.Definitions

variable {defs : Definitions} {type : Descriptor}

def dataMembers (defs : Definitions) (type : Descriptor) : List Descriptor :=
  (defs.unionMembers type).filter fun member => !defs.isError member

theorem isError_iff : defs.isError type = true ↔ defs.resolve type = .error := by
  unfold isError
  split <;> simp_all

theorem unionMembers_of_closed (h : defs.opens type = false) : defs.unionMembers type = [type] := by
  rw [unionMembers, membersFrom_closed h, membersFrom]

theorem unionMembers_union_of_closed {members : List Descriptor}
    (h : ∀ member ∈ members, defs.opens member = false) :
    defs.unionMembers (.union members) = members := by
  rw [unionMembers, membersFrom, List.append_nil, membersFrom_all_closed h]

theorem opens_of_mem_dataMembers {member : Descriptor} (h : member ∈ defs.dataMembers type) :
    defs.opens member = false :=
  (mem_unionMembers_iff.mp (List.mem_of_mem_filter h)).1

theorem isError_of_mem_dataMembers {member : Descriptor} (h : member ∈ defs.dataMembers type) :
    defs.isError member = false := by
  simpa using List.of_mem_filter h

theorem withoutError_of_no_data (h : defs.dataMembers type = []) :
    defs.withoutError type = type := by
  rw [dataMembers] at h
  simp [withoutError, withoutError?, h]

section Removal

variable (he : (defs.unionMembers type).any defs.isError = true)

include he

theorem withoutError_of_single {single : Descriptor} (hd : defs.dataMembers type = [single]) :
    defs.withoutError type = single := by
  rw [dataMembers] at hd
  simp [withoutError, withoutError?, he, hd]

theorem withoutError_of_several {first second : Descriptor} {rest : List Descriptor}
    (hd : defs.dataMembers type = first :: second :: rest) :
    defs.withoutError type = .union (first :: second :: rest) := by
  rw [dataMembers] at hd
  simp [withoutError, withoutError?, he, hd]

end Removal

theorem unionMembers_withoutError (h : defs.dataMembers type ≠ []) :
    defs.unionMembers (defs.withoutError type) = defs.dataMembers type := by
  have hclosed : ∀ member ∈ defs.dataMembers type, defs.opens member = false :=
    fun member => opens_of_mem_dataMembers
  by_cases he : (defs.unionMembers type).any defs.isError = true
  · match hd : defs.dataMembers type with
    | [] => exact absurd hd h
    | [single] =>
      rw [withoutError_of_single he hd]
      exact unionMembers_of_closed (hclosed single (hd ▸ List.mem_cons_self))
    | first :: second :: rest =>
      rw [withoutError_of_several he hd]
      exact unionMembers_union_of_closed (hd ▸ hclosed)
  · have hnone : ∀ member ∈ defs.unionMembers type, defs.isError member = false := by
      simpa using he
    rw [withoutError_of_no_error hnone, dataMembers, eq_comm, List.filter_eq_self]
    intro member hm
    rw [hnone member hm, Bool.not_false]

theorem withoutError_removes (defs : Definitions) (type : Descriptor) :
    ((∃ member ∈ defs.unionMembers type, defs.resolve member ≠ .error) →
      defs.unionMembers (defs.withoutError type) =
        (defs.unionMembers type).filter fun member => !defs.isError member) ∧
    defs.withoutError (defs.withoutError type) = defs.withoutError type := by
  constructor
  · rintro ⟨member, hm, hr⟩
    have hdata : member ∈ defs.dataMembers type := by
      rw [dataMembers, List.mem_filter, Bool.not_eq_true', ← Bool.not_eq_true, isError_iff]
      exact ⟨hm, hr⟩
    exact unionMembers_withoutError (List.ne_nil_of_mem hdata)
  · by_cases h : defs.dataMembers type = []
    · rw [withoutError_of_no_data h, withoutError_of_no_data h]
    · apply withoutError_of_no_error
      rw [unionMembers_withoutError h]
      exact fun member => isError_of_mem_dataMembers

def loopBody : Descriptor :=
  .union [.reference 1, .primitive .int, .reference 0, .primitive .string]

def loopDefinitions : Definitions := [⟨"Fault", some .error, none⟩, ⟨"Loop", some loopBody, none⟩]

theorem withoutError_removes_loop :
    (∃ member ∈ loopDefinitions.unionMembers (.reference 1),
      loopDefinitions.resolve member ≠ .error) ∧
    loopDefinitions.unionMembers (loopDefinitions.withoutError (.reference 1)) =
      [.primitive .int, .primitive .string] := by
  have hfault : loopDefinitions.body? 0 = some .error := rfl
  have hloop : loopDefinitions.body? 1 = some loopBody := rfl
  have hmembers : loopDefinitions.unionMembers (.reference 1) =
      [.primitive .int, .reference 0, .primitive .string] := by
    rw [unionMembers, membersFrom_expand hloop rfl List.not_mem_nil, loopBody, membersFrom,
      List.cons_append, membersFrom_again hloop rfl List.mem_cons_self]
    apply membersFrom_all_closed
    simp [opens, hfault, expands]
  have hdata (kind : PrimitiveKind) : loopDefinitions.isError (.primitive kind) = false := by
    rw [isError, resolve_of_isEnd (isEnd_of_expands_false rfl)]
  have herror : loopDefinitions.isError (.reference 0) = true :=
    isError_iff.mpr (resolve_closed_reference hfault rfl)
  have hsome : ∃ member ∈ loopDefinitions.unionMembers (.reference 1),
      loopDefinitions.resolve member ≠ .error := by
    refine ⟨.primitive .int, by simp [hmembers], fun hr => ?_⟩
    rw [← isError_iff, hdata] at hr
    cases hr
  obtain ⟨hremoved, -⟩ := withoutError_removes loopDefinitions (.reference 1)
  refine ⟨hsome, ?_⟩
  rw [hremoved hsome, hmembers]
  simp [hdata, herror]

end NaturalFunctions.Definitions
