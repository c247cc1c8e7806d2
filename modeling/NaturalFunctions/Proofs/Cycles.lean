import Mathlib.Logic.Relation
import NaturalFunctions.Unseen

namespace NaturalFunctions

open Relation

section Paths

variable {α β : Type} {r : α → α → Prop} {s : β → β → Prop} {a last : α}

theorem avoids_or_leaves (P : α → Prop) (h : ReflTransGen r a last) :
    ReflTransGen (fun b next => ¬ P b ∧ r b next) a last ∨
      ∃ out next, P out ∧ r out next ∧ ReflTransGen (fun b next => ¬ P b ∧ r b next) next last := by
  induction h using ReflTransGen.head_induction_on with
  | refl => exact Or.inl .refl
  | @head b next hstep _ ih =>
    rcases ih with ih | ih
    · by_cases hb : P b
      · exact Or.inr ⟨b, next, hb, hstep, ih⟩
      · exact Or.inl (ih.head ⟨hb, hstep⟩)
    · exact Or.inr ih

theorem exists_path_of_matched {R : α → β → Prop}
    (hstep : ∀ a b, R a b → ∀ next, r a next → ∃ next', s b next' ∧ R next next') {b : β}
    (hr : R a b) (h : ReflTransGen r a last) : ∃ last', ReflTransGen s b last' ∧ R last last' := by
  induction h with
  | refl => exact ⟨b, .refl, hr⟩
  | tail _ hlast ih =>
    obtain ⟨mid, hpath, hmid⟩ := ih
    obtain ⟨next', hnext, hn⟩ := hstep _ _ hmid _ hlast
    exact ⟨next', hpath.tail hnext, hn⟩

theorem acc_of_ends (hu : Relator.RightUnique r) (h : ReflTransGen r a last)
    (hl : ∀ next, ¬ r last next) : Acc (Function.swap r) a := by
  induction h using ReflTransGen.head_induction_on with
  | refl => exact ⟨last, fun next hn => absurd hn (hl next)⟩
  | @head b next hstep _ ih => exact ⟨b, fun other ho => hu hstep ho ▸ ih⟩

theorem exists_end_of_acc (h : Acc (Function.swap r) a) :
    ∃ last, ReflTransGen r a last ∧ ∀ next, ¬ r last next := by
  induction h with
  | intro a _ ih =>
    by_cases ha : ∃ next, r a next
    · obtain ⟨next, hstep⟩ := ha
      obtain ⟨last, hpath, hl⟩ := ih next hstep
      exact ⟨last, hpath.head hstep, hl⟩
    · exact ⟨a, .refl, not_exists.mp ha⟩

theorem eq_of_ends {other : α} (hu : Relator.RightUnique r) (h : ReflTransGen r a last)
    (hl : ∀ next, ¬ r last next) (h' : ReflTransGen r a other) (ho : ∀ next, ¬ r other next) :
    last = other := by
  rcases ReflTransGen.total_of_right_unique hu h h' with hpath | hpath
  · exact (ReflTransGen.cases_head hpath).resolve_right fun ⟨next, hn, _⟩ => hl next hn
  · exact ((ReflTransGen.cases_head hpath).resolve_right fun ⟨next, hn, _⟩ => ho next hn).symm

end Paths

theorem not_transGen_self_of_acc {α : Type} {r : α → α → Prop} {a : α} (h : Acc r a) :
    ¬ TransGen r a a := by
  have hacc := h.transGen
  clear h
  induction hacc with
  | intro a _ ih => exact fun hc => ih a hc hc

theorem not_cycle_of_acc {α : Type} {r : α → α → Prop} {a : α} (h : Acc (Function.swap r) a) :
    ¬ ∃ back, ReflTransGen r a back ∧ TransGen r back back := by
  rintro ⟨back, hb, hc⟩
  have hback : Acc (Function.swap r) back := by
    clear hc
    induction hb with
    | refl => exact h
    | tail _ hstep ih => exact ih.inv hstep
  exact not_transGen_self_of_acc hback (transGen_swap.mpr hc)

theorem mem_of_closed {α : Type} {r : α → α → Prop} {a b : α} {all : List α}
    (hclosed : ∀ a ∈ all, ∀ b, r a b → b ∈ all) (ha : a ∈ all) (h : ReflTransGen r a b) :
    b ∈ all := by
  induction h with
  | refl => exact ha
  | tail _ hstep ih => exact hclosed _ ih _ hstep

variable {r : Nat → Nat → Prop} {a : Nat} {all : List Nat}

theorem acc_of_no_cycle_from (hall : ∀ a b, r a b → a ∈ all) (seen : List Nat)
    (h : ¬ ∃ back, ReflTransGen r a back ∧ TransGen r back back)
    (hs : ∀ s ∈ seen, TransGen r s a) : Acc (Function.swap r) a := by
  -- the nodes seen are above this one, so it is a new one, and there are only finitely many
  induction hn : unseen all seen using Nat.strongRecOn generalizing seen a with
  | _ n ih =>
    refine ⟨a, fun next hnext => ?_⟩
    have hfresh : a ∉ seen := fun hm => h ⟨a, .refl, hs a hm⟩
    have hlt := unseen_cons_lt (hall a next hnext) hfresh
    refine ih _ (hn ▸ hlt) (a :: seen) ?_ ?_ rfl
    · rintro ⟨back, hb, hc⟩
      exact h ⟨back, hb.head hnext, hc⟩
    · intro s hm
      rcases List.mem_cons.mp hm with rfl | hm
      · exact .single hnext
      · exact (hs s hm).tail hnext

theorem acc_iff_no_cycle (hall : ∀ a b, r a b → a ∈ all) :
    Acc (Function.swap r) a ↔ ¬ ∃ back, ReflTransGen r a back ∧ TransGen r back back :=
  ⟨not_cycle_of_acc, fun h => acc_of_no_cycle_from hall [] h (by simp)⟩

end NaturalFunctions
