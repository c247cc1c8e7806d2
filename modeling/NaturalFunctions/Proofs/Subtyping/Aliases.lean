import Mathlib.Tactic.IntervalCases
import NaturalFunctions.Proofs.Subtyping.Calls
import NaturalFunctions.Proofs.Subtyping.Nominal

namespace NaturalFunctions.TypeArena

open Relation

namespace Check

variable {α : Type} {check check' : α → Check} {go : Bool} {Alike : Assumed → Assumed → Prop}

def Agrees (Alike : Assumed → Assumed → Prop) (check check' : Check) : Prop :=
  ∀ assumed assumed' holds holds' left left', Alike assumed assumed' →
    check assumed = some (holds, left) → check' assumed' = some (holds', left') →
      holds = holds' ∧ Alike left left'

theorem Agrees.sweep (h : ∀ x, Agrees Alike (check x) (check' x)) (xs : List α) :
    Agrees Alike (sweep go check xs) (sweep go check' xs) := by
  induction xs with
  | nil =>
    intro assumed assumed' holds holds' left left' ha he he'
    obtain ⟨rfl, rfl⟩ : go = holds ∧ assumed = left := by simpa [Check.sweep, answer] using he
    obtain ⟨rfl, rfl⟩ : go = holds' ∧ assumed' = left' := by simpa [Check.sweep, answer] using he'
    exact ⟨rfl, ha⟩
  | cons x rest ih =>
    intro assumed assumed' holds holds' left left' ha he he'
    rcases hx : check x assumed with _ | ⟨first, mid⟩
    · simp [Check.sweep, hx] at he
    rcases hx' : check' x assumed' with _ | ⟨first', mid'⟩
    · simp [Check.sweep, hx'] at he'
    obtain ⟨rfl, hmid⟩ := h x _ _ _ _ _ _ ha hx hx'
    by_cases hg : first = go
    · simp only [Check.sweep, hx, hx', hg, ↓reduceIte] at he he'
      exact ih _ _ _ _ _ _ hmid he he'
    · obtain ⟨rfl, rfl⟩ : first = holds ∧ mid = left := by simpa [Check.sweep, hx, hg] using he
      obtain ⟨rfl, rfl⟩ : first = holds' ∧ mid' = left' := by
        simpa [Check.sweep, hx', hg] using he'
      exact ⟨rfl, hmid⟩

theorem sweep_singleton (check : α → Check) (x : α) : sweep go check [x] = check x := by
  funext assumed
  rcases hx : check x assumed with _ | ⟨holds, left⟩
  · simp [sweep, hx]
  · by_cases hg : holds = go <;> simp [sweep, answer, hx, hg]

end Check

section Questions

variable (arena : TypeArena) {fuel fuel' : Nat} {root pair part : TypeId × TypeId}
  {assumed assumed' left : Assumed} {holds : Bool}

def ComesDownTo (pair part : TypeId × TypeId) : Prop := arena.clauses pair.1 pair.2 = [[part]]

structure AlikeBut (root : TypeId × TypeId) (assumed assumed' : Assumed) : Prop where
  nodup : assumed.Nodup ∧ assumed'.Nodup
  root_mem : root ∈ assumed ∧ root ∈ assumed'
  mem_iff : ∀ pair, ¬ ReflTransGen arena.ComesDownTo pair root →
    (pair ∈ assumed ↔ pair ∈ assumed')

variable {arena}

theorem ask_cases (he : arena.ask fuel pair assumed = some (holds, left)) :
    (Assumes assumed pair.1 pair.2 ∧ holds = true ∧ left = assumed) ∨
      ¬ Assumes assumed pair.1 pair.2 ∧ ∃ less after, fuel = less + 1 ∧
        Check.sweep true (Check.sweep false (arena.ask less)) (arena.clauses pair.1 pair.2)
          (pair :: assumed) = some (holds, after) ∧
        left = if holds then after else after.erase pair := by
  cases fuel with
  | zero => simp [ask, check] at he
  | succ less =>
    rw [ask_succ, Check.assuming] at he
    by_cases hs : Assumes assumed pair.1 pair.2
    · rw [if_pos (Assumed.settles_iff.mpr hs)] at he
      obtain ⟨rfl, rfl⟩ : true = holds ∧ assumed = left := by simpa using he
      exact Or.inl ⟨hs, rfl, rfl⟩
    · rw [if_neg (hs ∘ Assumed.settles_iff.mp)] at he
      refine Or.inr ⟨hs, less, ?_⟩
      split at he
      case h_1 after hr =>
        obtain ⟨rfl, rfl⟩ : true = holds ∧ after = left := by simpa using he
        exact ⟨after, rfl, hr, rfl⟩
      case h_2 after hr =>
        obtain ⟨rfl, rfl⟩ : false = holds ∧ after.erase pair = left := by simpa using he
        exact ⟨after, rfl, hr, rfl⟩
      case h_3 => simp at he

theorem ask_of_comesDown (hd : ReflTransGen arena.ComesDownTo pair root) (hn : assumed.Nodup)
    (hroot : root ∈ assumed) (he : arena.ask fuel pair assumed = some (holds, left)) :
    holds = true ∧ left.Nodup ∧ assumed ⊆ left ∧
      ∀ other ∈ left, other ∈ assumed ∨ ReflTransGen arena.ComesDownTo other root := by
  induction fuel generalizing pair assumed holds left with
  | zero => simp [ask, check] at he
  | succ fuel ih =>
    rcases ask_cases he with ⟨-, rfl, rfl⟩ | ⟨hnew, less, after, hless, hsweep, hleft⟩
    · exact ⟨rfl, hn, List.Subset.refl _, fun _ => Or.inl⟩
    obtain rfl : fuel = less := by omega
    have hfresh : pair ∉ assumed := (not_or.mp hnew).2
    rcases ReflTransGen.cases_head hd with rfl | ⟨part, hpart, hrest⟩
    · exact absurd hroot hfresh
    rw [hpart, Check.sweep_singleton, Check.sweep_singleton] at hsweep
    obtain ⟨rfl, hnodup, hsub, hothers⟩ := ih hrest (List.nodup_cons.mpr ⟨hfresh, hn⟩)
      (List.mem_cons_of_mem pair hroot) hsweep
    obtain rfl : left = after := hleft
    refine ⟨rfl, hnodup, List.Subset.trans (List.subset_cons_self pair assumed) hsub, ?_⟩
    intro other ho
    rcases hothers other ho with hm | hm
    · rcases List.mem_cons.mp hm with rfl | hm
      · exact Or.inr hd
      · exact Or.inl hm
    · exact Or.inr hm

theorem AlikeBut.cons (h : arena.AlikeBut root assumed assumed') (hp : pair ∉ assumed)
    (hp' : pair ∉ assumed') : arena.AlikeBut root (pair :: assumed) (pair :: assumed') where
  nodup := ⟨List.nodup_cons.mpr ⟨hp, h.nodup.1⟩, List.nodup_cons.mpr ⟨hp', h.nodup.2⟩⟩
  root_mem := ⟨List.mem_cons_of_mem pair h.root_mem.1, List.mem_cons_of_mem pair h.root_mem.2⟩
  mem_iff other ho := by rw [List.mem_cons, List.mem_cons, h.mem_iff other ho]

theorem AlikeBut.erase (h : arena.AlikeBut root assumed assumed') (hne : root ≠ pair) :
    arena.AlikeBut root (assumed.erase pair) (assumed'.erase pair) where
  nodup := ⟨h.nodup.1.erase pair, h.nodup.2.erase pair⟩
  root_mem := ⟨(List.mem_erase_of_ne hne).mpr h.root_mem.1,
    (List.mem_erase_of_ne hne).mpr h.root_mem.2⟩
  mem_iff other ho := by
    rw [h.nodup.1.mem_erase_iff, h.nodup.2.mem_erase_iff, h.mem_iff other ho]

theorem ask_agrees (fuel fuel' : Nat) (pair : TypeId × TypeId) :
    Check.Agrees (arena.AlikeBut root) (arena.ask fuel pair) (arena.ask fuel' pair) := by
  induction fuel generalizing fuel' pair with
  | zero =>
    intro _ _ _ _ _ _ _ he
    simp [ask, check] at he
  | succ fuel ih =>
    intro assumed assumed' holds holds' left left' ha he he'
    by_cases hd : ReflTransGen arena.ComesDownTo pair root
    · obtain ⟨rfl, hn, hsub, hothers⟩ := ask_of_comesDown hd ha.nodup.1 ha.root_mem.1 he
      obtain ⟨rfl, hn', hsub', hothers'⟩ := ask_of_comesDown hd ha.nodup.2 ha.root_mem.2 he'
      refine ⟨rfl, ⟨hn, hn'⟩, ⟨hsub ha.root_mem.1, hsub' ha.root_mem.2⟩, fun other ho => ?_⟩
      have hkept : other ∈ left ↔ other ∈ assumed :=
        ⟨fun hm => (hothers other hm).resolve_right ho, fun hm => hsub hm⟩
      have hkept' : other ∈ left' ↔ other ∈ assumed' :=
        ⟨fun hm => (hothers' other hm).resolve_right ho, fun hm => hsub' hm⟩
      rw [hkept, hkept', ha.mem_iff other ho]
    · -- the pair is assumed on both sides or on none, so the searches go on in step
      have hsame : Assumes assumed pair.1 pair.2 ↔ Assumes assumed' pair.1 pair.2 :=
        or_congr_right (ha.mem_iff pair hd)
      have hne : root ≠ pair := by
        rintro rfl
        exact hd .refl
      rcases ask_cases he with ⟨hs, rfl, rfl⟩ | ⟨hnew, less, after, hless, hsweep, rfl⟩ <;>
        rcases ask_cases he' with ⟨hs', rfl, rfl⟩ | ⟨hnew', less', after', hless', hsweep', rfl⟩
      · exact ⟨rfl, ha⟩
      · exact absurd (hsame.mp hs) hnew'
      · exact absurd (hsame.mpr hs') hnew
      · obtain rfl : fuel = less := by omega
        have hcons := ha.cons (not_or.mp hnew).2 (not_or.mp hnew').2
        obtain ⟨rfl, hafter⟩ := Check.Agrees.sweep
          (fun clause => Check.Agrees.sweep (fun part => ih less' part) clause) _
          _ _ _ _ _ _ hcons hsweep hsweep'
        cases holds with
        | true => exact ⟨rfl, hafter⟩
        | false => exact ⟨rfl, hafter.erase hne⟩

theorem isSubtype_eq_of_ask (he : arena.ask fuel pair [] = some (holds, left)) :
    arena.isSubtype pair.1 pair.2 = holds := by
  obtain ⟨holds', left', he', -⟩ := arena.check_depthBound pair.1 pair.2
  have hr : arena.Returns ⟨pair, []⟩ holds left := ⟨fuel, he⟩
  obtain ⟨rfl, -⟩ := hr.unique ⟨_, he'⟩
  simp [isSubtype, he']

theorem isSubtype_of_comesDown (h : arena.ComesDownTo pair part) (hne : pair.1 ≠ pair.2) :
    arena.isSubtype pair.1 pair.2 = arena.isSubtype part.1 part.2 := by
  by_cases hself : part = pair
  · rw [hself]
  obtain ⟨holds, left, he, -⟩ := arena.check_depthBound pair.1 pair.2
  obtain ⟨holds', left', he', -⟩ := arena.check_depthBound part.1 part.2
  rw [isSubtype_eq_of_ask he, isSubtype_eq_of_ask he']
  rcases ask_cases he with ⟨hs, -⟩ | ⟨-, less, after, -, hsweep, -⟩
  · exact absurd hs (by simp [Assumes, hne])
  rw [h, Check.sweep_singleton, Check.sweep_singleton] at hsweep
  -- the pair itself is the one assumption that the other search does not make
  have hpart : Assumes [pair] part.1 part.2 ↔ Assumes [] part.1 part.2 := by
    simp [Assumes, hself]
  rcases ask_cases hsweep with ⟨hs, rfl, -⟩ | ⟨hnew, less, after, -, hsweep, -⟩ <;>
    rcases ask_cases he' with ⟨hs', rfl, -⟩ | ⟨hnew', less', after', -, hsweep', -⟩
  · rfl
  · exact absurd (hpart.mp hs) hnew'
  · exact absurd (hpart.mpr hs') hnew
  · have halike : arena.AlikeBut part [part, pair] [part] := by
      refine ⟨by simp [hself], by simp, fun other ho => ?_⟩
      have hother : other ≠ pair := by
        rintro rfl
        exact ho (.single h)
      simp [hother]
    exact (Check.Agrees.sweep
      (fun clause => Check.Agrees.sweep (fun part => ask_agrees less less' part) clause) _
      _ _ _ _ _ _ halike hsweep hsweep').1

end Questions

variable {arena : TypeArena} {ty target other last : TypeId} {name : String}

theorem isSubtype_of_reference (h : arena.node ty = .named name (some target)) (hne : ty ≠ other) :
    arena.isSubtype ty other = arena.isSubtype target other := by
  have hc : arena.ComesDownTo (ty, other) (target, other) := by
    simp [ComesDownTo, clauses, h]
  exact isSubtype_of_comesDown hc hne

theorem isSubtype_reference (hother : ∀ name target, arena.node other ≠ .named name target)
    (h : arena.node ty = .named name (some target)) :
    arena.isSubtype other ty = arena.isSubtype other target := by
  have hne : other ≠ ty := fun heq => hother name (some target) (heq ▸ h)
  have hc : arena.ComesDownTo (other, ty) (other, target) := by
    simp only [ComesDownTo, clauses, h]
    rcases hs : arena.node other with _ | _ | _ | _ | _ | ⟨name, target⟩ | _ | _ | _
    case named => exact absurd hs (hother name target)
    all_goals rfl
  exact isSubtype_of_comesDown hc hne

theorem subtype_of_reaches (h : ReflTransGen arena.model.Refers ty last)
    (hs : arena.Subtype last other) : arena.Subtype ty other := by
  induction h using ReflTransGen.head_induction_on with
  | refl => exact hs
  | head hstep _ ih =>
    obtain ⟨name, hn⟩ := refers_iff.mp hstep
    exact .of_obeys ((obeys_of_reference hn).mpr ih)

theorem subtype_of_reached (hlast : ∀ name target, arena.node last ≠ .named name target)
    (h : ReflTransGen arena.model.Refers other last) : arena.Subtype last other := by
  induction h using ReflTransGen.head_induction_on with
  | refl => exact .refl last
  | head hstep _ ih =>
    obtain ⟨name, hn⟩ := refers_iff.mp hstep
    exact .of_obeys ((obeys_reference hlast hn).mpr ih)

theorem subtype_of_endless (h : ¬ Acc (Function.swap arena.model.Refers) ty) :
    arena.Subtype ty other := by
  refine ⟨fun sub _ => ¬ Acc (Function.swap arena.model.Refers) sub, fun sub sup hs => ?_, h⟩
  obtain ⟨next, hstep, hnext⟩ : ∃ next, arena.model.Refers sub next ∧
      ¬ Acc (Function.swap arena.model.Refers) next := by
    by_contra hall
    push Not at hall
    exact hs ⟨sub, hall⟩
  obtain ⟨name, hn⟩ := refers_iff.mp hstep
  exact Or.inr ((obeys_of_reference hn).mpr hnext)

theorem exists_end (hdefined : ∀ ty name, arena.node ty ≠ .named name none)
    (h : Acc (Function.swap arena.model.Refers) ty) :
    ∃ last, ReflTransGen arena.model.Refers ty last ∧
      ∀ name target, arena.node last ≠ .named name target := by
  obtain ⟨last, hr, hl⟩ := exists_end_of_acc h
  refine ⟨last, hr, fun name target hn => ?_⟩
  cases target with
  | none => exact hdefined last name hn
  | some target => exact hl target (refers_iff.mpr ⟨name, hn⟩)

theorem subtype_of_target (hdefined : ∀ ty name, arena.node ty ≠ .named name none)
    (h : arena.node ty = .named name (some target)) : arena.Subtype target ty := by
  have hstep : arena.model.Refers ty target := refers_iff.mpr ⟨name, h⟩
  by_cases hacc : Acc (Function.swap arena.model.Refers) target
  · obtain ⟨last, hr, hlast⟩ := exists_end hdefined hacc
    exact subtype_of_reaches hr (subtype_of_reached hlast (hr.head hstep))
  · exact subtype_of_endless hacc

theorem isSubtype_reference_of_acc (hdefined : ∀ ty name, arena.node ty ≠ .named name none)
    (h : arena.node ty = .named name (some target))
    (hacc : Acc (Function.swap arena.model.Refers) other) :
    arena.isSubtype other ty = arena.isSubtype other target := by
  induction hacc with
  | intro other _ ih =>
    by_cases hother : ∃ name next, arena.node other = .named name next
    · obtain ⟨name', _ | next, hn⟩ := hother
      · exact absurd hn (hdefined other name')
      by_cases hty : other = ty
      · subst hty
        rw [isSubtype_of_subtype (.refl other), isSubtype_of_subtype]
        exact .of_obeys ((obeys_of_reference h).mpr (.refl target))
      by_cases htarget : other = target
      · subst htarget
        rw [isSubtype_of_subtype (.refl other), isSubtype_of_subtype (subtype_of_target hdefined h)]
      · rw [isSubtype_of_reference hn hty, isSubtype_of_reference hn htarget]
        exact ih next (refers_iff.mpr ⟨name', hn⟩)
    · push Not at hother
      exact isSubtype_reference hother h

theorem isSubtype_alias (hdefined : ∀ ty name, arena.node ty ≠ .named name none)
    (h : arena.node ty = .named name (some target)) (other : TypeId) :
    arena.isSubtype ty other = arena.isSubtype target other ∧
      arena.isSubtype other ty = arena.isSubtype other target := by
  constructor
  · by_cases hne : ty = other
    · subst hne
      rw [isSubtype_of_subtype (.refl ty), isSubtype_of_subtype (subtype_of_target hdefined h)]
    · exact isSubtype_of_reference h hne
  · by_cases hacc : Acc (Function.swap arena.model.Refers) other
    · exact isSubtype_reference_of_acc hdefined h hacc
    · rw [isSubtype_of_subtype (subtype_of_endless hacc),
        isSubtype_of_subtype (subtype_of_endless hacc)]

theorem isSubtype_alias_ints :
    (∀ ty name, nestedListArena.node ty ≠ .named name none) ∧
      nestedListArena.node 2 = .named "Ints" (some 5) ∧
      nestedListArena.isSubtype 2 11 = true ∧ nestedListArena.isSubtype 5 11 = true ∧
      nestedListArena.isSubtype 12 2 = false ∧ nestedListArena.isSubtype 12 5 = false ∧
      nestedListArena.isSubtype 6 2 = nestedListArena.isSubtype 6 5 := by
  have hdefined : ∀ ty name, nestedListArena.node ty ≠ .named name none := by
    intro ty name h
    by_cases hty : ty < 13
    · interval_cases ty <;> cases h
    · rw [node, List.getElem?_eq_none (Nat.le_of_not_lt hty)] at h
      cases h
  have hints : nestedListArena.node 2 = .named "Ints" (some 5) := by decide
  have halias := isSubtype_alias hdefined hints
  have hleft : nestedListArena.isSubtype 2 11 = true := by decide
  have hright : nestedListArena.isSubtype 12 2 = false := by decide
  refine ⟨hdefined, hints, hleft, ?_, hright, ?_, (halias 6).2⟩
  · rw [← (halias 11).1, hleft]
  · rw [← (halias 12).2, hright]

end NaturalFunctions.TypeArena
