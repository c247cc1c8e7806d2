import NaturalFunctions.Proofs.Derivation.Agreement
import NaturalFunctions.Proofs.Derivation.Components
import NaturalFunctions.Proofs.Subtyping.JsonType

namespace NaturalFunctions

open Relation

namespace SemanticModel

variable {model : SemanticModel} {mapper : StructuralMapper} {attached : List (String × Schema)}
  {ty part a b : TypeId}

variable (model attached) in
def Reads (ty part : TypeId) : Prop := part ∈ model.reads attached ty

variable (model mapper attached) in
theorem parts_outline (ty : TypeId) :
    (model.outline mapper attached ty).parts = model.reads attached ty := by
  unfold outline reads
  cases model.shape ty with
  | reference name target =>
    cases hl : attached.lookup name <;> simp [Outline.parts, hl]
  | _ => rfl

variable (model mapper attached) in
theorem below_outline :
    Below (model.outline mapper attached) = Function.swap (model.Reads attached) := by
  funext part ty
  simp only [Below, parts_outline, Function.swap, Reads]

theorem Reads.leadsTo (h : model.Reads attached ty part) : model.LeadsTo ty part := by
  unfold Reads reads at h
  unfold LeadsTo
  cases hs : model.shape ty with
  | reference name target =>
    simp only [hs] at h
    split at h
    · simpa [TypeShape.next, TypeShape.parts, TypeShape.target?] using h
    · cases h
  | array | tuple | union =>
    simp only [hs] at h
    exact List.mem_append_left _ h
  | _ => simp [hs] at h

theorem Reads.mem_inner (h : model.Reads attached ty part) : ty ∈ model.inner :=
  model.mem_inner ty (List.ne_nil_of_mem h.leadsTo)

theorem Reads.bears_or_rank_lt (h : model.Reads attached ty part) :
    (∃ name, model.Bears name ty) ∨ model.rank part < model.rank ty := by
  by_cases hb : ∃ name, model.Bears name ty
  · exact Or.inl hb
  · right
    apply model.rank_part
    have hnext := h.leadsTo
    unfold LeadsTo at hnext
    cases hs : model.shape ty with
    | reference name target => exact absurd ⟨name, target, hs⟩ hb
    | _ => simpa [hs, TypeShape.next, TypeShape.target?] using hnext

theorem bears_or_rank_lt_of_path (h : TransGen (model.Reads attached) a b) :
    (∃ name ty, model.Bears name ty ∧ ReflTransGen (model.Reads attached) a ty ∧
      TransGen (model.Reads attached) ty b) ∨ model.rank b < model.rank a := by
  induction h with
  | single hstep =>
    rcases hstep.bears_or_rank_lt with ⟨name, hb⟩ | hlt
    · exact Or.inl ⟨name, a, hb, .refl, .single hstep⟩
    · exact Or.inr hlt
  | @tail b c hpath hstep ih =>
    rcases ih with ⟨name, ty, hb, hr, hrest⟩ | hlt
    · exact Or.inl ⟨name, ty, hb, hr, hrest.tail hstep⟩
    · rcases hstep.bears_or_rank_lt with ⟨name, hb⟩ | hlt'
      · exact Or.inl ⟨name, b, hb, hpath.to_reflTransGen, .single hstep⟩
      · exact Or.inr (hlt'.trans hlt)

variable (model attached) in
/-- A name is reached that is reached again from itself. -/
def ReadsCycle (ty : TypeId) : Prop :=
  ∃ name bearer, ReflTransGen (model.Reads attached) ty bearer ∧ model.Bears name bearer ∧
    TransGen (model.Reads attached) bearer bearer

theorem not_readsCycle_of_height_lt (height : TypeId → Nat)
    (h : ∀ ty part, model.Reads attached ty part → height part < height ty) :
    ¬ model.ReadsCycle attached ty := by
  rintro ⟨name, bearer, -, -, hc⟩
  have hself : TransGen (fun a b => b < a) (height bearer) (height bearer) := hc.lift height h
  rw [transGen_eq_self] at hself
  exact Nat.lt_irrefl _ hself

theorem acc_below_iff :
    Acc (Below (model.outline mapper attached)) ty ↔ ¬ model.ReadsCycle attached ty := by
  rw [below_outline, acc_iff_no_cycle fun _ _ => Reads.mem_inner, not_iff_not]
  constructor
  · rintro ⟨back, hb, hc⟩
    rcases bears_or_rank_lt_of_path hc with ⟨name, bearer, hn, hr, hrest⟩ | hlt
    · exact ⟨name, bearer, hb.trans hr, hn, hrest.trans_left hr⟩
    · exact absurd hlt (Nat.lt_irrefl _)
  · rintro ⟨name, bearer, hr, -, hc⟩
    exact ⟨bearer, hr, hc⟩

theorem derive_eq_none_iff :
    model.derive mapper attached ty = none ↔
      model.ReadsCycle attached ty ∨ ∃ part, ReflTransGen (model.Reads attached) ty part ∧
        model.outline mapper attached part = .known none := by
  have hsome : model.derive mapper attached ty = none ↔
      ¬ ∃ schema, Describes (model.outline mapper attached) ty schema := by
    rw [Option.eq_none_iff_forall_ne_some, not_exists]
    simp only [derive_eq_some_iff, ne_eq]
  rw [hsome, exists_describes_iff, acc_below_iff, below_outline]
  change ¬ (_ ∧ ∀ part, ReflTransGen (model.Reads attached) ty part → _) ↔ _
  simp only [not_and_or, not_not, not_forall, exists_prop, ne_eq]

end SemanticModel

namespace TypeArena

variable {arena : TypeArena} {attached : List (String × Schema)} {ty part : TypeId}

theorem node_of_shape_record {fields : List (RecordField TypeId)}
    (h : arena.model.shape ty = .record fields) : arena.node ty = .record fields := by
  rw [model_shape] at h
  generalize arena.node ty = node at h ⊢
  rcases node with _ | _ | _ | _ | _ | ⟨name, _ | target⟩ | _ | _ | _ <;> cases h
  rfl

theorem outline_ne_known_none (hn : ¬ arena.Foreign ty)
    (h : ∀ fields, arena.node ty = .record fields → arena.Countable ty) :
    arena.model.outline arena.openApiMapper attached ty ≠ .known none := by
  rw [foreign_iff_shape] at hn
  unfold SemanticModel.outline
  split
  case h_6 fields hs =>
    have hnode := node_of_shape_record hs
    obtain ⟨raw, hr⟩ := exists_openApiMapper hnode (h fields hnode)
    simp [hr]
  case h_7 => split <;> simp
  case h_8 hs => exact absurd (Or.inl hs) hn
  case h_9 name hs => exact absurd (Or.inr ⟨name, hs⟩) hn
  all_goals simp

theorem derive_eq_none_iff_cycle (arena : TypeArena) (attached : List (String × Schema)) :
    (∀ record fields, arena.node record = .record fields → arena.Countable record →
      ∃ raw, arena.openApiMapper record = some raw) ∧
    ∀ ty, arena.isSubtype ty jsonId = true →
      (∀ record fields, ReflTransGen (arena.model.Reads attached) ty record →
        arena.node record = .record fields → arena.Countable record) →
      (arena.model.derive arena.openApiMapper attached ty = none ↔
        arena.model.ReadsCycle attached ty) := by
  refine ⟨fun record fields => exists_openApiMapper, fun ty hsub hcount => ?_⟩
  rw [SemanticModel.derive_eq_none_iff]
  refine or_iff_left ?_
  rintro ⟨part, hr, hknown⟩
  have hleads := hr.lift id fun _ _ => SemanticModel.Reads.leadsTo
  have hpart := subtype_jsonId_iff.mp (subtype_jsonId_of_isSubtype hsub) part hleads
  exact outline_ne_known_none hpart (fun fields => hcount part fields hr) hknown

def chainArena : TypeArena :=
  (((((((empty.add (.named "Chain" none) (by decide)).add (.primitive .int) (by decide)).add
    (.tuple [3, 2]) (by decide)).add (.record [⟨"next", 4, true⟩]) (by decide)).add
    (.named "Nest" none) (by decide)).add (.array 6) (by decide)).add
    (.union [2, 6]) (by decide)).define 2 5 (by decide) |>.define 6 7 (by decide)

theorem derive_eq_none_iff_cycle_chain :
    (∀ ty, chainArena.Countable ty) ∧ (∃ raw, chainArena.openApiMapper 5 = some raw) ∧
    chainArena.isSubtype 8 jsonId = true ∧
    chainArena.model.derive chainArena.openApiMapper [] 8 = none ∧
    chainArena.model.derive chainArena.openApiMapper [("Nest", Schema.anyJson)] 8 ≠ none := by
  have hcount : ∀ ty, chainArena.Countable ty := by
    apply countable_of_tuples
    intro ty members hn
    match ty with
    | 4 => cases hn; decide
    | 0 | 1 | 2 | 3 | 5 | 6 | 7 | 8 | _ + 9 => cases hn
  have hsub : chainArena.isSubtype 8 jsonId = true := by decide
  obtain ⟨hrecords, hnone⟩ := derive_eq_none_iff_cycle chainArena []
  obtain ⟨-, hattached⟩ := derive_eq_none_iff_cycle chainArena [("Nest", Schema.anyJson)]
  refine ⟨hcount, hrecords 5 _ rfl (hcount 5), hsub,
    (hnone 8 hsub fun record _ _ _ => hcount record).mpr ?_,
    (hattached 8 hsub fun record _ _ _ => hcount record).not.mpr ?_⟩
  · have hunion : chainArena.model.Reads [] 8 6 :=
      List.mem_cons_of_mem 2 (List.mem_singleton_self 6)
    have hname : chainArena.model.Reads [] 6 7 := List.mem_singleton_self 7
    have hlist : chainArena.model.Reads [] 7 6 := List.mem_singleton_self 6
    exact ⟨"Nest", 6, .single hunion, ⟨7, rfl⟩, .tail (.single hname) hlist⟩
  · apply SemanticModel.not_readsCycle_of_height_lt fun ty => if ty = 5 then 0 else ty
    intro ty part hr
    match ty with
    | 2 | 7 => rw [List.mem_singleton.mp hr]; decide
    | 4 | 8 => rcases List.mem_pair.mp hr with rfl | rfl <;> decide
    | 0 | 1 | 3 | 5 | 6 | _ + 9 => cases hr

end TypeArena

end NaturalFunctions
