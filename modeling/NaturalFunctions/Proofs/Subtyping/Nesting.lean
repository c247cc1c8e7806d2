import NaturalFunctions.Proofs.Subtyping.Calls

namespace NaturalFunctions.TypeArena

open Relation

variable {arena : TypeArena} {sub sup : TypeId} {n : Nat}

theorem asks_square (hn : arena.size ≤ n) :
    ∀ pair ∈ Finset.range n ×ˢ Finset.range n, ∀ part, arena.Asks pair part →
      part ∈ Finset.range n ×ˢ Finset.range n := by
  intro pair hp part hpart
  have hjson : jsonId < arena.size := arena.two_le_size
  have hlt : ∀ {ty next : TypeId}, next ∈ arena.nextTypes ty → next < n :=
    fun h => (arena.nextTypes_lt h).trans_le hn
  obtain ⟨hfst, hsnd⟩ := arena.asks_sides hpart
  simp only [Finset.mem_product, Finset.mem_range] at hp ⊢
  constructor
  · rcases hfst with heq | hnext
    · exact heq ▸ hp.1
    · exact hlt hnext
  · rcases hsnd with heq | hnext | heq
    · exact heq ▸ hp.2
    · exact hlt hnext
    · exact heq ▸ hjson.trans_le hn

theorem inside_square (hsub : sub < n) (hsup : sup < n) :
    Call.Inside (Finset.range n ×ˢ Finset.range n) ⟨(sub, sup), []⟩ :=
  ⟨by simp [hsub, hsup], List.nodup_nil, by simp⟩

theorem length_lt_of_isChain {calls : List Call} (hsub : sub < arena.size) (hsup : sup < arena.size)
    (h : (⟨(sub, sup), []⟩ :: calls).IsChain arena.Calls) :
    calls.length < arena.size * arena.size := by
  have hle := length_le_of_isChain (asks_square (Nat.le_refl _)) (inside_square hsub hsup) h
  have hpairs : ((Finset.range arena.size ×ˢ Finset.range arena.size).filter
      fun pair => pair.1 ≠ pair.2) = (Finset.range arena.size).offDiag := by
    ext pair
    simp [Finset.mem_offDiag, and_assoc]
  rw [hpairs, List.toFinset_nil, Finset.sdiff_empty, Finset.offDiag_card, Finset.card_range] at hle
  have hpos : 0 < arena.size := Nat.zero_lt_of_lt hsub
  have hsize : arena.size ≤ arena.size * arena.size := Nat.le_mul_self _
  omega

theorem exists_bound (assumed : Assumed) :
    ∃ n : Nat, ∀ pair ∈ assumed, pair.1 < n ∧ pair.2 < n := by
  induction assumed with
  | nil => exact ⟨0, by simp⟩
  | cons pair rest ih =>
    obtain ⟨n, hn⟩ := ih
    refine ⟨n + (pair.1 + pair.2 + 1), List.forall_mem_cons.mpr ⟨?_, fun other ho => ?_⟩⟩
    · exact ⟨Nat.lt_add_left n (Nat.lt_succ_of_le (Nat.le_add_right _ _)),
        Nat.lt_add_left n (Nat.lt_succ_of_le (Nat.le_add_left _ _))⟩
    · have hother := hn other ho
      exact ⟨Nat.lt_add_right _ hother.1, Nat.lt_add_right _ hother.2⟩

variable (arena) in
theorem exists_square (pair : TypeId × TypeId) {assumed : Assumed} (hn : assumed.Nodup) :
    ∃ n, arena.size ≤ n ∧ Call.Inside (Finset.range n ×ˢ Finset.range n) ⟨pair, assumed⟩ := by
  obtain ⟨n, hbound⟩ := exists_bound (pair :: assumed)
  obtain ⟨hpair, hassumed⟩ := List.forall_mem_cons.mp hbound
  have hmem : ∀ other : TypeId × TypeId, other.1 < n ∧ other.2 < n →
      other ∈ Finset.range (n + arena.size) ×ˢ Finset.range (n + arena.size) := by
    intro other ⟨hfst, hsnd⟩
    simp only [Finset.mem_product, Finset.mem_range]
    exact ⟨Nat.lt_add_right _ hfst, Nat.lt_add_right _ hsnd⟩
  exact ⟨n + arena.size, Nat.le_add_left _ _, hmem pair hpair, hn,
    fun other ho => hmem other (hassumed other ho)⟩

theorem examination_bounded (hsub : sub < arena.size) (hsup : sup < arena.size) :
    (∃ holds left, arena.check (arena.size * arena.size) sub sup [] = some (holds, left) ∧
      arena.isSubtype sub sup = holds) ∧
    (∀ call, ReflTransGen arena.Calls ⟨(sub, sup), []⟩ call →
      (∃ holds left, arena.Returns call holds left) ∧
      (∀ holds left, arena.Returns call holds left → call.assumed ⊆ left) ∧
      (call.assumed.settles call.pair.1 call.pair.2 = false → call.pair ∉ call.assumed) ∧
      ∀ inner, arena.Calls call inner →
        call.assumed.settles call.pair.1 call.pair.2 = false ∧
          call.pair :: call.assumed ⊆ inner.assumed) ∧
    ∀ calls, (⟨(sub, sup), []⟩ :: calls).IsChain arena.Calls →
      calls.length + 1 ≤ arena.size * arena.size := by
  have hclosed := @asks_square arena _ (Nat.le_refl _)
  have hroot : Call.Inside _ ⟨(sub, sup), []⟩ := inside_square hsub hsup
  refine ⟨?_, fun call hcall => ?_, fun calls h => length_lt_of_isChain hsub hsup h⟩
  · have hends : arena.ask (arena.size * arena.size) (sub, sup) [] ≠ none := by
      intro hnone
      obtain ⟨calls, hchain, hlen⟩ := ask_eq_none_iff.mp hnone
      exact absurd (length_lt_of_isChain hsub hsup hchain) (by omega)
    obtain ⟨⟨holds, left⟩, he⟩ := Option.ne_none_iff_exists'.mp hends
    obtain ⟨holds', left', he', -⟩ := arena.check_depthBound sub sup
    have hreturns : arena.Returns ⟨(sub, sup), []⟩ holds left := ⟨_, he⟩
    obtain ⟨rfl, -⟩ := hreturns.unique ⟨_, he'⟩
    exact ⟨holds, left, he, by simp [isSubtype, he']⟩
  · have hin := hroot.nested hclosed hcall
    refine ⟨exists_returns hclosed hin, fun holds left h => (h.outcome hclosed hin).grown.kept,
      fun hs hm => ?_, fun inner hcalls => ⟨?_, (hcalls.grown hclosed hin).2.kept⟩⟩
    · exact Bool.false_ne_true (hs.symm.trans (Assumed.settles_iff.mpr (Or.inr hm)))
    · rw [Bool.eq_false_iff, ne_eq, Assumed.settles_iff]
      exact hcalls.1

def labelledArena : TypeArena :=
  ((((((((((((TypeArena.empty.add (.named "Noted" none) (by decide)).add
    (.primitive .byte) (by decide)).add (.array 2) (by decide)).add
    (.record [⟨"label", 3, false⟩, ⟨"note", 0, false⟩, ⟨"parts", 4, false⟩]) (by decide)).add
    (.named "Counted" none) (by decide)).add (.primitive .int) (by decide)).add
    (.array 6) (by decide)).add
    (.record [⟨"label", 7, false⟩, ⟨"parts", 8, false⟩]) (by decide)).add
    (.named "Labelled" none) (by decide)).add (.union [0, 1]) (by decide)).add
    (.array 10) (by decide)).add
    (.record [⟨"parts", 12, false⟩, ⟨"label", 11, true⟩]) (by decide)).define 2 5 (by decide)
    |>.define 6 9 (by decide) |>.define 10 13 (by decide)

theorem examination_bounded_trees :
    (2 < labelledArena.size ∧ 10 < labelledArena.size) ∧ labelledArena.isSubtype 2 10 = true ∧
      ∀ calls, (⟨(2, 10), []⟩ :: calls).IsChain labelledArena.Calls → calls.length + 1 ≤ 196 := by
  have hlt : 2 < labelledArena.size ∧ 10 < labelledArena.size := by decide
  exact ⟨hlt, by decide, (examination_bounded hlt.1 hlt.2).2.2⟩

theorem confirms_consistent {R : TypeId → TypeId → Prop} (hR : arena.Consistent R)
    (h : R sub sup) :
    arena.isSubtype sub sup = true ∧ ∀ assumed : Assumed, assumed.Nodup →
      (∃ left, arena.Returns ⟨(sub, sup), assumed⟩ true left) ∧
        ∀ left, ¬ arena.Returns ⟨(sub, sup), assumed⟩ false left := by
  have hsub : arena.Subtype sub sup := ⟨R, hR, h⟩
  refine ⟨isSubtype_of_subtype hsub, fun assumed hn => ?_⟩
  obtain ⟨n, hsize, hin⟩ := arena.exists_square (sub, sup) hn
  have htrue : ∀ holds left, arena.Returns ⟨(sub, sup), assumed⟩ holds left → holds = true :=
    fun holds left hr => (hr.outcome (asks_square hsize) hin).confirmed hsub
  constructor
  · obtain ⟨holds, left, hr⟩ := exists_returns (asks_square hsize) hin
    obtain rfl := htrue holds left hr
    exact ⟨left, hr⟩
  · exact fun left hr => Bool.false_ne_true (htrue false left hr)

theorem consistent_assumes {pairs : Assumed}
    (h : ∀ pair ∈ pairs, Satisfied (Assumes pairs) (arena.clauses pair.1 pair.2)) :
    arena.Consistent (Assumes pairs) :=
  fun sub sup hs => hs.imp_right fun hm => (arena.obeys_iff _ _ _).mpr (h (sub, sup) hm)

def treePairs : List (TypeId × TypeId) :=
  [(2, 6), (5, 6), (5, 9), (3, 7), (4, 8), (6, 10), (9, 10), (9, 13), (8, 12), (7, 11), (7, 1)]

theorem consistent_treePairs : labelledArena.Consistent (Assumes treePairs) := by
  apply consistent_assumes
  unfold Satisfied Assumes
  decide

theorem confirms_consistent_trees :
    (labelledArena.Consistent (Assumes treePairs) ∧ Assumes treePairs 6 10) ∧
      labelledArena.isSubtype 6 10 = true ∧
        ∃ left, labelledArena.Returns ⟨(6, 10), [(7, 0), (9, 2)]⟩ true left := by
  have hpair : Assumes treePairs 6 10 := by
    unfold Assumes
    decide
  obtain ⟨hfresh, hany⟩ := confirms_consistent consistent_treePairs hpair
  exact ⟨⟨consistent_treePairs, hpair⟩, hfresh, (hany [(7, 0), (9, 2)] (by decide)).1⟩

end NaturalFunctions.TypeArena
