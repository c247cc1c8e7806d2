import Mathlib.Data.List.Perm.Subperm
import Mathlib.Order.WellFounded
import NaturalFunctions.Proofs.Cycles

/-!
Chains in a graph where a node has one successor at most. A trail follows a chain and remembers what
it leaves behind, so it stops at the end of the chain or at the first node that it comes to again.
That node is where the chain enters its cycle, and a trail that starts there comes back to it.
-/

namespace NaturalFunctions

open Relation

variable {α : Type} {r : α → α → Prop} {a b last : α} {behind : List α}

def Unending (r : α → α → Prop) (a : α) : Prop :=
  ∃ chain : Nat → α, chain 0 = a ∧ ∀ n, r (chain n) (chain (n + 1))

/-- The first node of a cycle on the chain from `a`. -/
structure EntersAt (r : α → α → Prop) (a entry : α) : Prop where
  path : ReflTransGen r a entry
  cycle : TransGen r entry entry
  first : a = entry ∨
    ∃ before, ReflTransGen r a before ∧ r before entry ∧ ¬ TransGen r before before

theorem unending_iff_not_acc : Unending r a ↔ ¬ Acc (Function.swap r) a :=
  (not_acc_iff_exists_descending_chain (r := Function.swap r)).symm

theorem unending_of_cycle (hp : ReflTransGen r a b) (hc : TransGen r b b) : Unending r a :=
  unending_iff_not_acc.mpr fun hacc => not_cycle_of_acc hacc ⟨b, hp, hc⟩

/-- The nodes left on the way, the last one first, and the node that the way has come to. -/
structure Trail (α : Type) where
  behind : List α
  place : α

namespace Trail

variable {trail next : Trail α}

inductive Step (r : α → α → Prop) : Trail α → Trail α → Prop
  | on {behind : List α} {b next : α} (hnext : r b next) (hnew : b ∉ behind) :
      Step r ⟨behind, b⟩ ⟨b :: behind, next⟩

def Stops (r : α → α → Prop) (trail : Trail α) : Prop := ∀ next, ¬ Step r trail next

structure Returns (r : α → α → Prop) (bound : Nat) (a last : α) : Prop where
  ends : Acc (Function.swap (Step r)) ⟨[], a⟩
  length_le : ∀ trail, ReflTransGen (Step r) ⟨[], a⟩ trail → trail.behind.length ≤ bound
  place_eq : ∀ trail, ReflTransGen (Step r) ⟨[], a⟩ trail → trail.Stops r → trail.place = last

structure Resolves (r : α → α → Prop) (bound : Nat) (resolve : α → α) (a : α) : Prop where
  returns : Returns r bound a (resolve a)
  path : ReflTransGen r a (resolve a)
  enters : Unending r a → EntersAt r a (resolve a)
  again : resolve (resolve a) = resolve a

theorem stops_iff :
    trail.Stops r ↔ (∀ next, ¬ r trail.place next) ∨ trail.place ∈ trail.behind := by
  constructor
  · intro h
    by_cases hm : trail.place ∈ trail.behind
    · exact Or.inr hm
    · exact Or.inl fun next hnext => h _ (.on hnext hm)
  · rintro h next ⟨hnext, hnew⟩
    exact h.elim (fun hl => hl _ hnext) hnew

theorem step_rightUnique (hu : Relator.RightUnique r) : Relator.RightUnique (Step r) := by
  rintro trail next other ⟨hnext, -⟩ ⟨hother, -⟩
  rw [hu hnext hother]

section Runs

structure Follows (r : α → α → Prop) (a : α) (trail : Trail α) : Prop where
  nodup : trail.behind.Nodup
  path : ReflTransGen r a trail.place
  goes_on : ∀ b ∈ trail.behind, ∃ next, r b next ∧ (next ∈ trail.behind ∨ next = trail.place)
  leads : ∀ b ∈ trail.behind, TransGen r b trail.place

theorem Follows.step (h : Follows r a trail) (hs : Step r trail next) : Follows r a next := by
  cases hs with
  | @on behind b next hnext hnew =>
    refine ⟨List.nodup_cons.mpr ⟨hnew, h.nodup⟩, h.path.tail hnext, ?_, ?_⟩
    · refine List.forall_mem_cons.mpr ⟨⟨next, hnext, Or.inr rfl⟩, fun c hc => ?_⟩
      obtain ⟨d, hd, hm⟩ := h.goes_on c hc
      exact ⟨d, hd, Or.inl (List.mem_cons.mpr hm.symm)⟩
    · exact List.forall_mem_cons.mpr ⟨.single hnext, fun c hc => (h.leads c hc).tail hnext⟩

theorem follows_of_run (h : ReflTransGen (Step r) ⟨[], a⟩ trail) : Follows r a trail := by
  induction h with
  | refl => exact ⟨List.nodup_nil, .refl, by simp, by simp⟩
  | tail _ hs ih => exact ih.step hs

theorem exists_visit (h : ReflTransGen (Step r) ⟨[], a⟩ trail) (hb : b ∈ trail.behind) :
    ∃ before, b ∉ before ∧ ReflTransGen (Step r) ⟨[], a⟩ ⟨before, b⟩ ∧
      ReflTransGen (Step r) ⟨before, b⟩ trail := by
  induction h with
  | refl => cases hb
  | tail hrun hs ih =>
    cases hs with
    | on hnext hnew =>
      rcases List.mem_cons.mp hb with rfl | hb
      · exact ⟨_, hnew, hrun, .single (.on hnext hnew)⟩
      · obtain ⟨before, hnot, hto, hfrom⟩ := ih hb
        exact ⟨before, hnot, hto, hfrom.tail (.on hnext hnew)⟩

theorem exists_run_from {before : List α} (h : ReflTransGen (Step r) ⟨before, b⟩ trail) :
    ∃ after, trail.behind = after ++ before ∧
      ReflTransGen (Step r) ⟨[], b⟩ ⟨after, trail.place⟩ := by
  induction h with
  | refl => exact ⟨[], rfl, .refl⟩
  | tail _ hs ih =>
    obtain ⟨after, heq, hrun⟩ := ih
    cases hs with
    | @on behind c next hnext hnew =>
      obtain rfl : behind = after ++ before := heq
      have hfresh : c ∉ after := fun hm => hnew (List.mem_append_left before hm)
      exact ⟨c :: after, rfl, hrun.tail (.on hnext hfresh)⟩

theorem exists_round (h : ReflTransGen (Step r) ⟨[], a⟩ ⟨behind, last⟩) (hl : last ∈ behind) :
    ∃ before after, behind = after ++ before ∧ last ∈ after ∧
      ReflTransGen (Step r) ⟨[], a⟩ ⟨before, last⟩ ∧
      ReflTransGen (Step r) ⟨[], last⟩ ⟨after, last⟩ := by
  obtain ⟨before, hnot, hto, hfrom⟩ := exists_visit h hl
  obtain ⟨after, rfl, hround⟩ := exists_run_from hfrom
  have hafter : last ∈ after := (List.mem_append.mp hl).resolve_right hnot
  exact ⟨before, after, rfl, hafter, hto, hround⟩

theorem exists_stop (h : ReflTransGen (Step r) ⟨[], a⟩ ⟨behind, last⟩)
    (hs : Stops r ⟨behind, last⟩) :
    ∃ around, ReflTransGen (Step r) ⟨[], last⟩ ⟨around, last⟩ ∧ Stops r ⟨around, last⟩ := by
  rcases stops_iff.mp hs with hl | hl
  · exact ⟨[], .refl, stops_iff.mpr (Or.inl hl)⟩
  · obtain ⟨before, after, -, hafter, -, hround⟩ := exists_round h hl
    exact ⟨after, hround, stops_iff.mpr (Or.inr hafter)⟩

theorem mem_of_round {around : List α} (hu : Relator.RightUnique r)
    (h : ReflTransGen (Step r) ⟨[], last⟩ ⟨around, last⟩) (hl : last ∈ around)
    (hb : ReflTransGen r last b) : b ∈ around := by
  have hclosed : ∀ c ∈ around, ∀ next, r c next → next ∈ around := by
    intro c hc next hnext
    obtain ⟨other, hother, hm⟩ := (follows_of_run h).goes_on c hc
    obtain rfl := hu hnext hother
    rcases hm with hm | rfl
    · exact hm
    · exact hl
  exact mem_of_closed hclosed hl hb

theorem entersAt_of_again (hu : Relator.RightUnique r)
    (h : ReflTransGen (Step r) ⟨[], a⟩ ⟨behind, last⟩) (hl : last ∈ behind) :
    EntersAt r a last := by
  have hfollows := follows_of_run h
  refine ⟨hfollows.path, hfollows.leads last hl, ?_⟩
  obtain ⟨before, after, rfl, hafter, hto, hround⟩ := exists_round h hl
  rcases ReflTransGen.cases_tail hto with heq | ⟨mid, hmid, hstep⟩
  · injection heq with _ heq
    exact Or.inl heq.symm
  · cases hstep with
    | @on behind b _ hnext hnew =>
      refine Or.inr ⟨b, (follows_of_run hmid).path, hnext, fun hc => ?_⟩
      -- on a cycle it would lie on the way around too, and so be left twice
      obtain ⟨next, hn, hback⟩ := TransGen.head'_iff.mp hc
      obtain rfl := hu hnext hn
      have hb : b ∈ after := mem_of_round hu hround hafter hback
      exact (List.nodup_append.mp hfollows.nodup).2.2 b hb b List.mem_cons_self rfl

end Runs

section Finite

variable {all : List α} {bound : Nat} {other : α}

theorem length_behind_le (hall : ∀ b next, r b next → b ∈ all)
    (h : ReflTransGen (Step r) ⟨[], a⟩ trail) : trail.behind.length ≤ all.length := by
  have hfollows := follows_of_run h
  have hsub : trail.behind ⊆ all := by
    intro b hb
    obtain ⟨next, hnext, -⟩ := hfollows.goes_on b hb
    exact hall b next hnext
  exact (hfollows.nodup.subperm hsub).length_le

theorem acc_of_run (hall : ∀ b next, r b next → b ∈ all)
    (h : ReflTransGen (Step r) ⟨[], a⟩ trail) : Acc (Function.swap (Step r)) trail := by
  -- each step leaves one node more behind, of those that can be left
  induction hn : all.length - trail.behind.length using Nat.strongRecOn generalizing trail with
  | _ n ih =>
    refine ⟨trail, fun next hs => ih _ ?_ (h.tail hs) rfl⟩
    have hle := length_behind_le hall (h.tail hs)
    cases hs with
    | on hnext hnew =>
      simp only [List.length_cons] at hle hn ⊢
      omega

theorem returns_of_stops (hu : Relator.RightUnique r) (hall : ∀ b next, r b next → b ∈ all)
    (h : ReflTransGen (Step r) ⟨[], a⟩ ⟨behind, last⟩) (hs : Stops r ⟨behind, last⟩) :
    Returns r all.length a last where
  ends := acc_of_run hall .refl
  length_le _ hrun := length_behind_le hall hrun
  place_eq _ hrun hstops :=
    congrArg place (eq_of_ends (step_rightUnique hu) hrun hstops h hs)

theorem Returns.exists_run (h : Returns r bound a last) :
    ∃ behind, ReflTransGen (Step r) ⟨[], a⟩ ⟨behind, last⟩ ∧ Stops r ⟨behind, last⟩ := by
  obtain ⟨⟨behind, place⟩, hrun, hs⟩ := exists_end_of_acc h.ends
  obtain rfl : place = last := h.place_eq _ hrun hs
  exact ⟨behind, hrun, hs⟩

theorem Returns.path (h : Returns r bound a last) : ReflTransGen r a last := by
  obtain ⟨behind, hrun, -⟩ := h.exists_run
  exact (follows_of_run hrun).path

theorem exists_returns (hu : Relator.RightUnique r) (hall : ∀ b next, r b next → b ∈ all) (a : α) :
    ∃ last, Returns r all.length a last := by
  have hacc : Acc (Function.swap (Step r)) ⟨[], a⟩ := acc_of_run hall .refl
  obtain ⟨⟨behind, last⟩, hrun, hs⟩ := exists_end_of_acc hacc
  exact ⟨last, returns_of_stops hu hall hrun hs⟩

theorem Returns.entersAt_iff (hu : Relator.RightUnique r) (h : Returns r bound a last) :
    Unending r a ↔ EntersAt r a last := by
  constructor
  · intro hinf
    obtain ⟨behind, hrun, hs⟩ := h.exists_run
    rcases stops_iff.mp hs with hl | hl
    · exact absurd (acc_of_ends hu h.path hl) (unending_iff_not_acc.mp hinf)
    · exact entersAt_of_again hu hrun hl
  · exact fun he => unending_of_cycle he.path he.cycle

theorem Returns.not_unending_iff (hu : Relator.RightUnique r) (h : Returns r bound a last) :
    ¬ Unending r a ↔ ∀ next, ¬ r last next := by
  rw [h.entersAt_iff hu]
  constructor
  · intro hnot
    obtain ⟨behind, hrun, hs⟩ := h.exists_run
    exact (stops_iff.mp hs).resolve_right fun hl => hnot (entersAt_of_again hu hrun hl)
  · intro hl he
    obtain ⟨next, hnext, -⟩ := TransGen.head'_iff.mp he.cycle
    exact hl next hnext

theorem Returns.eq_of_ends (hu : Relator.RightUnique r) (h : Returns r bound a last)
    (hp : ReflTransGen r a other) (hl : ∀ next, ¬ r other next) : last = other := by
  have hends : ¬ Unending r a := by
    rw [unending_iff_not_acc, not_not]
    exact acc_of_ends hu hp hl
  exact NaturalFunctions.eq_of_ends hu h.path ((h.not_unending_iff hu).mp hends) hp hl

theorem resolves_of_returns {resolve : α → α} (hu : Relator.RightUnique r)
    (h : ∀ a, Returns r bound a (resolve a)) (a : α) : Resolves r bound resolve a where
  returns := h a
  path := (h a).path
  enters := ((h a).entersAt_iff hu).mp
  again := by
    obtain ⟨behind, hrun, hs⟩ := (h a).exists_run
    obtain ⟨around, hround, hs⟩ := exists_stop hrun hs
    exact ((h (resolve a)).place_eq _ hround hs).symm

end Finite

end Trail

end NaturalFunctions
