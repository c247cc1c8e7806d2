import NaturalFunctions.Proofs.Subtyping.Soundness

namespace NaturalFunctions.TypeArena

namespace Check

variable {α : Type} {check other : α → Check} {go : Bool} {xs : List α} {x : α}
  {start now : Assumed} {outcome : Bool × Assumed}

def sweep (go : Bool) (check : α → Check) : List α → Check
  | [] => answer go
  | x :: rest => fun assumed =>
    match check x assumed with
    | some (holds, left) => if holds = go then sweep go check rest left else some (holds, left)
    | none => none

theorem every_eq_sweep (check : α → Check) (xs : List α) :
    every check xs = sweep true check xs := by
  induction xs with
  | nil => rfl
  | cons x rest ih =>
    funext assumed
    rcases h : check x assumed with _ | ⟨_ | _, left⟩ <;> simp [every, sweep, h, ih]

theorem any_eq_sweep (check : α → Check) (xs : List α) : any check xs = sweep false check xs := by
  induction xs with
  | nil => rfl
  | cons x rest ih =>
    funext assumed
    rcases h : check x assumed with _ | ⟨_ | _, left⟩ <;> simp [any, sweep, h, ih]

inductive Reaches (check : α → Check) (go : Bool) : List α → Assumed → α → Assumed → Prop
  | here {x : α} {rest : List α} {assumed : Assumed} :
      Reaches check go (x :: rest) assumed x assumed
  | later {x y : α} {rest : List α} {assumed left now : Assumed}
      (h : check x assumed = some (go, left)) (hr : Reaches check go rest left y now) :
      Reaches check go (x :: rest) assumed y now

theorem sweep_eq_none_iff :
    sweep go check xs start = none ↔
      ∃ x now, Reaches check go xs start x now ∧ check x now = none := by
  induction xs generalizing start with
  | nil =>
    refine ⟨fun h => by simp [sweep, answer] at h, ?_⟩
    rintro ⟨x, now, hr, -⟩
    cases hr
  | cons y rest ih =>
    constructor
    · intro h
      rcases hy : check y start with _ | ⟨holds, left⟩
      · exact ⟨y, start, .here, hy⟩
      · by_cases hg : holds = go
        · subst hg
          obtain ⟨x, now, hr, hx⟩ := ih.mp (by simpa [sweep, hy] using h)
          exact ⟨x, now, .later hy hr, hx⟩
        · simp [sweep, hy, hg] at h
    · rintro ⟨x, now, hr, hx⟩
      cases hr with
      | here => simp [sweep, hx]
      | later hy hr => simpa [sweep, hy] using ih.mpr ⟨x, now, hr, hx⟩

def Extends (other check : α → Check) : Prop :=
  ∀ x start outcome, check x start = some outcome → other x start = some outcome

theorem Extends.sweep (h : Extends other check) :
    Extends (Check.sweep go other) (Check.sweep go check) := by
  intro ys
  induction ys with
  | nil => exact fun _ _ he => he
  | cons y rest ih =>
    intro start outcome he
    rcases hy : check y start with _ | ⟨holds, left⟩
    · simp [Check.sweep, hy] at he
    · have hother := h y start _ hy
      by_cases hg : holds = go
      · simp only [Check.sweep, hy, hother, hg, ↓reduceIte] at he ⊢
        exact ih left outcome he
      · simpa [Check.sweep, hy, hother, hg] using he

theorem Reaches.transfer (hagree : Extends other check ∨ Extends check other)
    (hends : sweep go check xs start ≠ none) (h : Reaches other go xs start x now) :
    Reaches check go xs start x now := by
  induction h with
  | here => exact .here
  | @later y x rest start left now hy _ ih =>
    rcases hc : check y start with _ | outcome
    · simp [Check.sweep, hc] at hends
    · obtain rfl : outcome = (go, left) := by
        rcases hagree with hext | hext
        · exact Option.some.inj ((hext y start _ hc).symm.trans hy)
        · exact Option.some.inj (hc.symm.trans (hext y start _ hy))
      exact .later hc (ih (by simpa [Check.sweep, hc] using hends))

theorem Reaches.mem (h : Reaches check go xs start x now) : x ∈ xs := by
  induction h with
  | here => exact List.mem_cons_self
  | later _ _ ih => exact List.mem_cons_of_mem _ ih

variable {U : Finset (TypeId × TypeId)} {before : Assumed}

def Keeps (U : Finset (TypeId × TypeId)) (before : Assumed) (check : Check) : Prop :=
  ∀ assumed holds left, Grown U before assumed → check assumed = some (holds, left) →
    Grown U before left

theorem keeps_sweep (h : ∀ x ∈ xs, Keeps U before (check x)) :
    Keeps U before (sweep go check xs) := by
  induction xs with
  | nil =>
    intro assumed holds left hg he
    obtain ⟨-, rfl⟩ : go = holds ∧ assumed = left := by simpa [sweep, answer] using he
    exact hg
  | cons x rest ih =>
    intro assumed holds left hg he
    obtain ⟨hx, hrest⟩ := List.forall_mem_cons.mp h
    rcases hc : check x assumed with _ | ⟨answer, left'⟩
    · simp [sweep, hc] at he
    · have hg' := hx assumed answer left' hg hc
      by_cases hgo : answer = go
      · exact ih hrest left' holds left hg' (by simpa [sweep, hc, hgo] using he)
      · obtain ⟨-, rfl⟩ : answer = holds ∧ left' = left := by simpa [sweep, hc, hgo] using he
        exact hg'

theorem Reaches.grown (h : ∀ x ∈ xs, Keeps U before (check x)) (hg : Grown U before start)
    (hr : Reaches check go xs start x now) : Grown U before now := by
  induction hr with
  | here => exact hg
  | later hc _ ih =>
    obtain ⟨hx, hrest⟩ := List.forall_mem_cons.mp h
    exact ih hrest (hx _ _ _ hg hc)

theorem assuming_mono {rules rules' : Check} {sub sup : TypeId}
    (h : ∀ assumed outcome, rules assumed = some outcome → rules' assumed = some outcome)
    (he : assuming sub sup rules start = some outcome) :
    assuming sub sup rules' start = some outcome := by
  unfold assuming at he ⊢
  split
  · rwa [if_pos ‹_›] at he
  · rw [if_neg ‹_›] at he
    rcases hr : rules ((sub, sup) :: start) with _ | ⟨_ | _, left⟩
    · simp [hr] at he
    all_goals simpa [hr, h _ _ hr] using he

end Check

structure Call where
  pair : TypeId × TypeId
  assumed : Assumed

variable (arena : TypeArena)

abbrev ask (fuel : Nat) (pair : TypeId × TypeId) : Check := arena.check fuel pair.1 pair.2

def Returns (call : Call) (holds : Bool) (left : Assumed) : Prop :=
  ∃ fuel, arena.ask fuel call.pair call.assumed = some (holds, left)

def Calls (outer inner : Call) : Prop :=
  ¬ Assumes outer.assumed outer.pair.1 outer.pair.2 ∧ ∃ fuel clause start,
    Check.Reaches (Check.sweep false (arena.ask fuel)) true
      (arena.clauses outer.pair.1 outer.pair.2) (outer.pair :: outer.assumed) clause start ∧
    Check.Reaches (arena.ask fuel) false clause start inner.pair inner.assumed

theorem rules_eq_sweep (fuel : Nat) (pair : TypeId × TypeId) :
    arena.rules (arena.check fuel) pair.1 pair.2 =
      Check.sweep true (Check.sweep false (arena.ask fuel)) (arena.clauses pair.1 pair.2) := by
  rw [rules_eq, Check.every_eq_sweep]
  congr
  funext clause
  exact Check.any_eq_sweep _ clause

theorem ask_succ (fuel : Nat) (pair : TypeId × TypeId) :
    arena.ask (fuel + 1) pair = Check.assuming pair.1 pair.2
      (Check.sweep true (Check.sweep false (arena.ask fuel)) (arena.clauses pair.1 pair.2)) := by
  rw [← rules_eq_sweep]
  rfl

variable {arena} {fuel fuel' : Nat} {pair : TypeId × TypeId} {assumed left : Assumed}
  {call outer inner : Call} {holds : Bool}

theorem ask_extends (h : fuel ≤ fuel') : Check.Extends (arena.ask fuel') (arena.ask fuel) := by
  induction fuel generalizing fuel' with
  | zero => exact fun _ _ _ he => by simp [ask, check] at he
  | succ fuel ih =>
    obtain ⟨more, rfl⟩ : ∃ more, fuel' = more + 1 := ⟨fuel' - 1, by omega⟩
    intro pair start outcome he
    rw [ask_succ] at he ⊢
    have hmore : Check.Extends (arena.ask more) (arena.ask fuel) := ih (by omega)
    exact Check.assuming_mono (hmore.sweep.sweep _) he

variable (arena) in
theorem ask_agree (fuel fuel' : Nat) :
    Check.Extends (arena.ask fuel') (arena.ask fuel) ∨
      Check.Extends (arena.ask fuel) (arena.ask fuel') :=
  (Nat.le_total fuel fuel').imp ask_extends ask_extends

theorem Returns.unique {holds' : Bool} {left' : Assumed} (h : arena.Returns call holds left)
    (h' : arena.Returns call holds' left') : holds = holds' ∧ left = left' := by
  obtain ⟨fuel, he⟩ := h
  obtain ⟨fuel', he'⟩ := h'
  have heq : some (holds, left) = some (holds', left') := by
    rcases arena.ask_agree fuel fuel' with hext | hext
    · exact (hext _ _ _ he).symm.trans he'
    · exact he.symm.trans (hext _ _ _ he')
  simpa using heq

theorem ask_succ_eq_none_iff :
    arena.ask (fuel + 1) pair assumed = none ↔
      ∃ inner, arena.Calls ⟨pair, assumed⟩ inner ∧
        arena.ask fuel inner.pair inner.assumed = none := by
  have hsettles : assumed.settles pair.1 pair.2 = true ↔ Assumes assumed pair.1 pair.2 :=
    Assumed.settles_iff
  rw [ask_succ, Check.assuming]
  by_cases hs : Assumes assumed pair.1 pair.2
  · rw [if_pos (hsettles.mpr hs)]
    simp [Calls, hs]
  · rw [if_neg (hs ∘ hsettles.mp)]
    constructor
    · intro h
      rcases hr : Check.sweep true (Check.sweep false (arena.ask fuel))
          (arena.clauses pair.1 pair.2) (pair :: assumed) with
        _ | ⟨_ | _, left⟩
      · obtain ⟨clause, start, hclause, hn⟩ := Check.sweep_eq_none_iff.mp hr
        obtain ⟨part, now, hpart, hn⟩ := Check.sweep_eq_none_iff.mp hn
        exact ⟨⟨part, now⟩, ⟨hs, fuel, clause, start, hclause, hpart⟩, hn⟩
      all_goals simp [hr] at h
    · rintro ⟨inner, ⟨-, fuel', clause, start, hclause, hpart⟩, hn⟩
      suffices hends : Check.sweep true (Check.sweep false (arena.ask fuel))
          (arena.clauses pair.1 pair.2) (pair :: assumed) = none by
        simp [hends]
      -- with fuel enough for the siblings before it, the sweep would come to the inner call
      by_contra hends
      have hreached := hclause.transfer
        ((arena.ask_agree fuel fuel').imp Check.Extends.sweep Check.Extends.sweep) hends
      have hclause' : Check.sweep false (arena.ask fuel) clause start ≠ none := fun hnone =>
        hends (Check.sweep_eq_none_iff.mpr ⟨clause, start, hreached, hnone⟩)
      have hinner := hpart.transfer (arena.ask_agree fuel fuel') hclause'
      exact hclause' (Check.sweep_eq_none_iff.mpr ⟨inner.pair, inner.assumed, hinner, hn⟩)

theorem ask_eq_none_iff :
    arena.ask fuel pair assumed = none ↔
      ∃ calls : List Call, (⟨pair, assumed⟩ :: calls).IsChain arena.Calls ∧
        calls.length = fuel := by
  induction fuel generalizing pair assumed with
  | zero =>
    refine ⟨fun _ => ⟨[], List.isChain_singleton _, rfl⟩, fun _ => ?_⟩
    simp [ask, check]
  | succ fuel ih =>
    rw [ask_succ_eq_none_iff]
    constructor
    · rintro ⟨inner, hcalls, hn⟩
      obtain ⟨calls, hchain, rfl⟩ := ih.mp hn
      exact ⟨inner :: calls, List.isChain_cons_cons.mpr ⟨hcalls, hchain⟩, rfl⟩
    · rintro ⟨_ | ⟨inner, calls⟩, hchain, hlen⟩
      · simp at hlen
      · obtain ⟨hcalls, hrest⟩ := List.isChain_cons_cons.mp hchain
        exact ⟨inner, hcalls, ih.mpr ⟨calls, hrest, by simpa using hlen⟩⟩

structure Call.Inside (U : Finset (TypeId × TypeId)) (call : Call) : Prop where
  pair : call.pair ∈ U
  nodup : call.assumed.Nodup
  inside : ∀ pair ∈ call.assumed, pair ∈ U

section Inside

variable {U : Finset (TypeId × TypeId)}
  (hclosed : ∀ pair ∈ U, ∀ part, arena.Asks pair part → part ∈ U)

include hclosed

theorem exists_returns (hin : call.Inside U) : ∃ holds left, arena.Returns call holds left := by
  obtain ⟨holds, left, he, -⟩ := check_outcome hclosed _ call.pair call.assumed hin.pair hin.nodup
    hin.inside (Nat.lt_succ_self _)
  exact ⟨holds, left, _, he⟩

theorem Returns.outcome (hin : call.Inside U) (h : arena.Returns call holds left) :
    arena.Outcome U call.pair (arena.Trusted call.pair)
      (fun left => Assumes left call.pair.1 call.pair.2)
      (arena.Subtype call.pair.1 call.pair.2) call.assumed left holds := by
  obtain ⟨holds', left', he, ho⟩ := check_outcome hclosed _ call.pair call.assumed hin.pair
    hin.nodup hin.inside (Nat.lt_succ_self _)
  obtain ⟨rfl, rfl⟩ := h.unique ⟨_, he⟩
  exact ho

theorem keeps_ask (hp : pair ∈ U) (before : Assumed) :
    Check.Keeps U before (arena.ask fuel pair) := by
  intro assumed holds left hg he
  have hin : Call.Inside U ⟨pair, assumed⟩ := ⟨hp, hg.nodup, hg.inside⟩
  exact hg.trans (Returns.outcome hclosed hin ⟨fuel, he⟩).grown

theorem Calls.grown (hin : outer.Inside U) (h : arena.Calls outer inner) :
    inner.pair ∈ U ∧ Grown U (outer.pair :: outer.assumed) inner.assumed := by
  obtain ⟨hnew, fuel, clause, start, hclause, hpair⟩ := h
  have hpart : ∀ clause ∈ arena.clauses outer.pair.1 outer.pair.2, ∀ part ∈ clause, part ∈ U :=
    fun clause hc part hp => hclosed _ hin.pair part ⟨clause, hc, hp⟩
  have hfresh : outer.pair ∉ outer.assumed := (not_or.mp hnew).2
  have hbefore : Grown U (outer.pair :: outer.assumed) (outer.pair :: outer.assumed) :=
    Grown.refl (List.nodup_cons.mpr ⟨hfresh, hin.nodup⟩)
      (List.forall_mem_cons.mpr ⟨hin.pair, hin.inside⟩)
  have hstart : Grown U (outer.pair :: outer.assumed) start :=
    hclause.grown (fun clause hc => Check.keeps_sweep fun part hp =>
      keeps_ask hclosed (hpart clause hc part hp) _) hbefore
  refine ⟨hpart clause hclause.mem inner.pair hpair.mem, ?_⟩
  exact hpair.grown (fun part hp => keeps_ask hclosed (hpart clause hclause.mem part hp) _) hstart

theorem Calls.inside (hin : outer.Inside U) (h : arena.Calls outer inner) : inner.Inside U := by
  obtain ⟨hp, hg⟩ := h.grown hclosed hin
  exact ⟨hp, hg.nodup, hg.inside⟩

theorem Call.Inside.nested (hin : outer.Inside U)
    (h : Relation.ReflTransGen arena.Calls outer inner) : inner.Inside U := by
  induction h with
  | refl => exact hin
  | tail _ hcalls ih => exact hcalls.inside hclosed ih

theorem length_le_of_isChain {calls : List Call} (hin : call.Inside U)
    (h : (call :: calls).IsChain arena.Calls) :
    calls.length ≤ ((U.filter fun pair => pair.1 ≠ pair.2) \ call.assumed.toFinset).card := by
  induction calls generalizing call with
  | nil => exact Nat.zero_le _
  | cons inner calls ih =>
    obtain ⟨hcalls, hrest⟩ := List.isChain_cons_cons.mp h
    obtain ⟨hne, hfresh⟩ := not_or.mp hcalls.1
    have hle := ih (hcalls.inside hclosed hin) hrest
    have hkept := @card_unassumed_le (U.filter fun pair => pair.1 ≠ pair.2) _ _
      (hcalls.grown hclosed hin).2.kept
    have hpair : call.pair ∈ U.filter fun pair => pair.1 ≠ pair.2 :=
      Finset.mem_filter.mpr ⟨hin.pair, hne⟩
    have hlt := card_unassumed_lt hpair hfresh
    rw [List.length_cons]
    omega

end Inside

end NaturalFunctions.TypeArena
