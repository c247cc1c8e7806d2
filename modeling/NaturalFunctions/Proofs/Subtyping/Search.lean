import Mathlib.Data.Finset.Card
import Mathlib.Data.Finset.Prod
import Mathlib.Data.List.Nodup
import Mathlib.Logic.Relation
import NaturalFunctions.Proofs.Subtyping.Rules

/-!
The subtype check as a search through the clauses of the rules. One induction on the fuel says what
every examination of a pair does: it ends, it forgets no pair that was assumed before, and it
confirms every subtype.
-/

namespace NaturalFunctions.TypeArena

namespace Check

variable {α β : Type}

@[simp] theorem every_nil (check : α → Check) : every check [] = answer true := rfl

@[simp] theorem any_nil (check : α → Check) : any check [] = answer false := rfl

@[simp] theorem every_singleton (check : α → Check) (x : α) : every check [x] = check x := by
  funext assumed
  rcases h : check x assumed with _ | ⟨_ | _, assumed'⟩ <;> simp [every, answer, h]

@[simp] theorem any_singleton (check : α → Check) (x : α) : any check [x] = check x := by
  funext assumed
  rcases h : check x assumed with _ | ⟨_ | _, assumed'⟩ <;> simp [any, answer, h]

@[simp] theorem every_map (check : β → Check) (f : α → β) (xs : List α) :
    every check (xs.map f) = every (fun x => check (f x)) xs := by
  induction xs with
  | nil => rfl
  | cons x xs ih => simp only [List.map_cons, every, ih]

@[simp] theorem any_map (check : β → Check) (f : α → β) (xs : List α) :
    any check (xs.map f) = any (fun x => check (f x)) xs := by
  induction xs with
  | nil => rfl
  | cons x xs ih => simp only [List.map_cons, any, ih]

@[simp] theorem any_filter (check : α → Check) (p : α → Bool) (xs : List α) :
    any check (xs.filter p) = any (fun x => if p x then check x else answer false) xs := by
  induction xs with
  | nil => rfl
  | cons x xs ih =>
    by_cases hp : p x
    · simp only [List.filter_cons, hp, ↓reduceIte, any, ih]
    · simp only [List.filter_cons, hp, Bool.false_eq_true, ↓reduceIte, any, answer, ih]

end Check

variable (arena : TypeArena)

theorem jsonRules_eq (subtype : TypeId → TypeId → Check) (ty : TypeId) :
    arena.jsonRules subtype ty =
      Check.every (Check.any fun pair => subtype pair.1 pair.2) (arena.jsonClauses ty) := by
  unfold jsonRules jsonClauses
  rcases arena.node ty with _ | _ | _ | _ | _ | ⟨_, _ | _⟩ | _ | _ | _ <;> simp

theorem rules_eq (subtype : TypeId → TypeId → Check) (sub sup : TypeId) :
    arena.rules subtype sub sup =
      Check.every (Check.any fun pair => subtype pair.1 pair.2) (arena.clauses sub sup) := by
  have hj := arena.jsonRules_eq subtype sub
  unfold rules clauses
  rcases arena.node sub with _ | _ | _ | a | _ | ⟨_, _ | _⟩ | _ | _ | _ <;>
    rcases arena.node sup with _ | _ | _ | b | _ | ⟨_, _ | _⟩ | _ | _ | _ <;>
    simp [hj]
  case primitive.primitive x y =>
    by_cases h : x = y ∨ (x = .byte ∧ y = .int)
    · simp only [h, ↓reduceIte, Check.every_nil, ← Bool.decide_and, ← Bool.decide_or, decide_true]
    · simp only [h, ↓reduceIte, Check.every_singleton, Check.any_nil, ← Bool.decide_and,
        ← Bool.decide_or, decide_false]
  case tuple.tuple =>
    split <;> simp

def Asks (pair part : TypeId × TypeId) : Prop :=
  ∃ clause ∈ arena.clauses pair.1 pair.2, part ∈ clause

def nextTypes (ty : TypeId) : List TypeId :=
  (arena.node ty).parts ++ (arena.node ty).target?.toList

theorem nextTypes_lt {ty next : TypeId} (h : next ∈ arena.nextTypes ty) : next < arena.size := by
  unfold nextTypes node at h
  cases hn : arena.nodes[ty]? with
  | none => simp [hn, TypeNode.parts, TypeNode.target?] at h
  | some node =>
    have hty := (List.getElem?_eq_some_iff.mp hn).1
    simp only [hn, Option.getD_some, List.mem_append, Option.mem_toList] at h
    rcases h with h | h
    · exact (arena.part_lt ty node hn next h).trans hty
    · exact arena.target_lt ty node hn next h

theorem jsonClauses_sides {ty : TypeId} {clause : List (TypeId × TypeId)}
    {part : TypeId × TypeId} (hc : clause ∈ arena.jsonClauses ty) (hp : part ∈ clause) :
    part.1 ∈ arena.nextTypes ty ∧ part.2 = jsonId := by
  unfold jsonClauses at hc
  split at hc <;> rename_i hn <;>
    simp only [nextTypes, hn, TypeNode.parts, TypeNode.target?] <;> grind

theorem asks_sides {pair part : TypeId × TypeId} (h : arena.Asks pair part) :
    (part.1 = pair.1 ∨ part.1 ∈ arena.nextTypes pair.1) ∧
      (part.2 = pair.2 ∨ part.2 ∈ arena.nextTypes pair.2 ∨ part.2 = jsonId) := by
  obtain ⟨sub, sup⟩ := pair
  obtain ⟨clause, hc, hp⟩ := h
  have hj := @jsonClauses_sides arena sub clause part
  simp only [clauses] at hc
  have hz : ∀ a b : List TypeId, part ∈ a.zip b → part.1 ∈ a ∧ part.2 ∈ b :=
    fun _ _ => List.of_mem_zip
  split at hc
  all_goals
    simp only [nextTypes, *, TypeNode.parts, TypeNode.target?] at hj ⊢
    grind

def LoopFree (pair : TypeId × TypeId) : Prop :=
  ∀ part, Relation.ReflTransGen arena.Asks pair part → ¬ Relation.TransGen arena.Asks part part

/-- Below the pair, a choice that another one may follow is right or free of loops. -/
def SafelyChosen (pair : TypeId × TypeId) : Prop :=
  ∀ part, Relation.ReflTransGen arena.Asks pair part →
    ∀ clause ∈ arena.clauses part.1 part.2, ∀ choice ∈ clause.dropLast,
      arena.Subtype choice.1 choice.2 ∨ arena.LoopFree choice

def Trusted (pair : TypeId × TypeId) (holds : Bool) : Prop :=
  arena.LoopFree pair ∨ arena.SafelyChosen pair ∧ holds = true

def Assumes (assumed : Assumed) (sub sup : TypeId) : Prop :=
  sub = sup ∨ (sub, sup) ∈ assumed

def Supported (root : TypeId × TypeId) (before after : Assumed) : Prop :=
  ∀ pair ∈ after, pair ∈ before ∨ Relation.ReflTransGen arena.Asks root pair ∧
    Satisfied (Assumes after) (arena.clauses pair.1 pair.2)

structure Grown (U : Finset (TypeId × TypeId)) (before after : Assumed) : Prop where
  nodup : after.Nodup
  inside : ∀ pair ∈ after, pair ∈ U
  kept : before ⊆ after

structure Outcome (U : Finset (TypeId × TypeId)) (root : TypeId × TypeId) (trusted : Bool → Prop)
    (found : Assumed → Prop) (must : Prop) (before after : Assumed) (holds : Bool) : Prop where
  grown : Grown U before after
  found : holds = true → found after
  confirmed : must → holds = true
  supported : trusted holds → arena.Supported root before after

def Examines (U : Finset (TypeId × TypeId)) (root : TypeId × TypeId) (start : Assumed)
    (check : Check) (trusted : Bool → Prop) (found : Assumed → Prop) (must : Prop) : Prop :=
  ∀ assumed, Grown U start assumed → ∃ holds left, check assumed = some (holds, left) ∧
    arena.Outcome U root trusted found must assumed left holds

variable {arena} {U : Finset (TypeId × TypeId)} {root pair : TypeId × TypeId}
  {assumed left : Assumed}

theorem LoopFree.asks {part : TypeId × TypeId} (h : arena.LoopFree pair)
    (hp : arena.Asks pair part) : arena.LoopFree part :=
  fun other ho => h other (ho.head hp)

theorem SafelyChosen.asks {part : TypeId × TypeId} (h : arena.SafelyChosen pair)
    (hp : arena.Asks pair part) : arena.SafelyChosen part :=
  fun other ho => h other (ho.head hp)

theorem Assumes.mono {before after : Assumed} (h : before ⊆ after) (a b : TypeId)
    (hab : Assumes before a b) : Assumes after a b :=
  hab.imp_right fun hm => h hm

theorem Supported.refl (assumed : Assumed) : arena.Supported root assumed assumed :=
  fun _ => Or.inl

theorem Supported.trans {first second third : Assumed} (h : arena.Supported root first second)
    (h' : arena.Supported root second third) (hk : second ⊆ third) :
    arena.Supported root first third := by
  intro pair hp
  rcases h' pair hp with hp | hp
  · exact (h pair hp).imp_right fun ⟨hr, hs⟩ => ⟨hr, hs.mono (Assumes.mono hk)⟩
  · exact Or.inr hp

theorem Supported.asks (h : arena.Supported pair assumed left) (hp : arena.Asks root pair) :
    arena.Supported root assumed left :=
  fun part hm => (h part hm).imp_right fun ⟨hr, hs⟩ => ⟨hr.head hp, hs⟩

theorem Grown.refl (hn : assumed.Nodup) (hU : ∀ pair ∈ assumed, pair ∈ U) :
    Grown U assumed assumed :=
  ⟨hn, hU, List.Subset.refl _⟩

theorem Grown.trans {first second third : Assumed} (h : Grown U first second)
    (h' : Grown U second third) : Grown U first third :=
  ⟨h'.nodup, h'.inside, List.Subset.trans h.kept h'.kept⟩

theorem Grown.uncons (h : Grown U (pair :: assumed) left) : Grown U assumed left :=
  ⟨h.nodup, h.inside, List.Subset.trans (List.subset_cons_self pair assumed) h.kept⟩

theorem Grown.erase (h : Grown U (pair :: assumed) left) (hp : pair ∉ assumed) :
    Grown U assumed (left.erase pair) where
  nodup := h.nodup.erase pair
  inside part hm := h.inside part (List.mem_of_mem_erase hm)
  kept part hm := by
    have hne : part ≠ pair := fun heq => hp (heq ▸ hm)
    exact (List.mem_erase_of_ne hne).mpr (h.kept (List.mem_cons_of_mem pair hm))

theorem Supported.confirm (h : arena.Supported pair (pair :: assumed) left)
    (hs : Satisfied (Assumes left) (arena.clauses pair.1 pair.2)) :
    arena.Supported pair assumed left := by
  intro part hm
  rcases h part hm with hm | hm
  · rcases List.mem_cons.mp hm with rfl | hm
    · exact Or.inr ⟨Relation.ReflTransGen.refl, hs⟩
    · exact Or.inl hm
  · exact Or.inr hm

theorem Supported.refute (h : arena.Supported pair (pair :: assumed) left)
    (hn : left.Nodup) (hp : arena.LoopFree pair) :
    arena.Supported pair assumed (left.erase pair) := by
  intro part hm
  obtain ⟨hne, hm⟩ := hn.mem_erase_iff.mp hm
  refine (h part hm).imp (fun hm => (List.mem_cons.mp hm).resolve_left hne) ?_
  rintro ⟨hr, hs⟩
  refine ⟨hr, fun clause hc => ?_⟩
  obtain ⟨other, ho, ha⟩ := hs clause hc
  refine ⟨other, ho, ha.imp_right fun hm => (List.mem_erase_of_ne ?_).mpr hm⟩
  -- otherwise the pair would be asked about below itself
  rintro rfl
  exact hp _ Relation.ReflTransGen.refl (Relation.TransGen.tail' hr ⟨clause, hc, ho⟩)

section Lists

variable {α : Type} {check : α → Check} {trusted : α → Bool → Prop} {found : α → Assumed → Prop}
  {must : α → Prop} {start : Assumed}

theorem examines_every {xs : List α}
    (hmono : ∀ x before after, before ⊆ after → found x before → found x after)
    (h : ∀ x ∈ xs, arena.Examines U root start (check x) (trusted x) (found x) (must x)) :
    arena.Examines U root start (Check.every check xs)
      (fun holds => ∀ x ∈ xs, trusted x true ∧ trusted x holds)
      (fun left => ∀ x ∈ xs, found x left) (∀ x ∈ xs, must x) := by
  induction xs with
  | nil =>
    intro assumed hg
    refine ⟨true, assumed, rfl, Grown.refl hg.nodup hg.inside, by simp, by simp, ?_⟩
    exact fun _ => Supported.refl assumed
  | cons x xs ih =>
    intro assumed hg
    rw [List.forall_mem_cons] at h
    obtain ⟨holds, left, he, ho⟩ := h.1 assumed hg
    cases holds with
    | false =>
      refine ⟨false, left, by simp [Check.every, he], ho.grown, by simp, fun hm => ?_, fun ht => ?_⟩
      · exact ho.confirmed (hm x List.mem_cons_self)
      · exact ho.supported (ht x List.mem_cons_self).2
    | true =>
      obtain ⟨holds', left', he', ho'⟩ := ih h.2 left (hg.trans ho.grown)
      refine ⟨holds', left', by simp [Check.every, he, he'], ho.grown.trans ho'.grown,
        fun hh => ?_, fun hm => ?_, fun ht => ?_⟩
      · have hx := hmono x left left' ho'.grown.kept (ho.found rfl)
        exact List.forall_mem_cons.mpr ⟨hx, ho'.found hh⟩
      · exact ho'.confirmed (List.forall_mem_cons.mp hm).2
      · rw [List.forall_mem_cons] at ht
        exact (ho.supported ht.1.1).trans (ho'.supported ht.2) ho'.grown.kept

theorem examines_any {xs : List α}
    (h : ∀ x ∈ xs, arena.Examines U root start (check x) (trusted x) (found x) (must x)) :
    arena.Examines U root start (Check.any check xs)
      (fun holds => (∀ x ∈ xs, trusted x holds) ∧ ∀ x ∈ xs.dropLast, must x ∨ trusted x false)
      (fun left => ∃ x ∈ xs, found x left) (∃ x ∈ xs, must x) := by
  induction xs with
  | nil =>
    intro assumed hg
    refine ⟨false, assumed, rfl, Grown.refl hg.nodup hg.inside, by simp, by simp, ?_⟩
    exact fun _ => Supported.refl assumed
  | cons x xs ih =>
    intro assumed hg
    rw [List.forall_mem_cons] at h
    obtain ⟨holds, left, he, ho⟩ := h.1 assumed hg
    cases holds with
    | true =>
      refine ⟨true, left, by simp [Check.any, he], ho.grown, fun _ => ?_, fun _ => rfl, fun ht => ?_⟩
      · exact ⟨x, List.mem_cons_self, ho.found rfl⟩
      · exact ho.supported (ht.1 x List.mem_cons_self)
    | false =>
      obtain ⟨holds', left', he', ho'⟩ := ih h.2 left (hg.trans ho.grown)
      refine ⟨holds', left', by simp [Check.any, he, he'], ho.grown.trans ho'.grown,
        fun hh => ?_, fun hm => ?_, fun ht => ?_⟩
      · obtain ⟨y, hy, hf⟩ := ho'.found hh
        exact ⟨y, List.mem_cons_of_mem x hy, hf⟩
      · obtain ⟨y, hy, hm⟩ := hm
        rcases List.mem_cons.mp hy with rfl | hy
        · exact absurd (ho.confirmed hm) Bool.false_ne_true
        · exact ho'.confirmed ⟨y, hy, hm⟩
      · obtain ⟨hx, hxs⟩ := List.forall_mem_cons.mp ht.1
        cases xs with
        | nil =>
          obtain ⟨rfl, rfl⟩ : false = holds' ∧ left = left' := by
            simpa [Check.answer] using he'
          exact ho.supported hx
        | cons y ys =>
          rw [List.dropLast_cons_cons] at ht
          obtain ⟨hfirst, hrest⟩ := List.forall_mem_cons.mp ht.2
          have hfalse : trusted x false :=
            hfirst.resolve_left fun hm => Bool.false_ne_true (ho.confirmed hm)
          exact (ho.supported hfalse).trans (ho'.supported ⟨hxs, hrest⟩) ho'.grown.kept

end Lists

theorem card_unassumed_lt (hU : pair ∈ U) (hp : pair ∉ assumed) :
    (U \ (pair :: assumed).toFinset).card < (U \ assumed.toFinset).card := by
  refine Finset.card_lt_card (Finset.ssubset_iff_of_subset ?_ |>.mpr ⟨pair, ?_, ?_⟩)
  · exact Finset.sdiff_subset_sdiff (Finset.Subset.refl U) (by simp)
  · simp [hU, hp]
  · simp

theorem card_unassumed_le (h : assumed ⊆ left) :
    (U \ left.toFinset).card ≤ (U \ assumed.toFinset).card :=
  Finset.card_le_card <| Finset.sdiff_subset_sdiff (Finset.Subset.refl U)
    fun _ hp => List.mem_toFinset.mpr (h (List.mem_toFinset.mp hp))

theorem trusted_clauses {holds : Bool} (h : arena.Trusted pair holds) :
    ∀ clause ∈ arena.clauses pair.1 pair.2,
      (∀ part ∈ clause, arena.Trusted part holds) ∧
        ∀ part ∈ clause.dropLast, arena.Subtype part.1 part.2 ∨ arena.Trusted part false := by
  intro clause hc
  rcases h with h | ⟨h, rfl⟩
  · have hfree : ∀ part ∈ clause, arena.LoopFree part := fun part hp => h.asks ⟨clause, hc, hp⟩
    refine ⟨fun part hp => Or.inl (hfree part hp), fun part hp => ?_⟩
    exact Or.inr (Or.inl (hfree part (List.dropLast_subset clause hp)))
  · refine ⟨fun part hp => Or.inr ⟨h.asks ⟨clause, hc, hp⟩, rfl⟩, fun part hp => ?_⟩
    exact (h pair Relation.ReflTransGen.refl clause hc part hp).imp_right Or.inl

theorem Trusted.confirmed {holds : Bool} (h : arena.Trusted pair holds) :
    arena.Trusted pair true :=
  h.imp_right fun h => ⟨h.1, rfl⟩

theorem assuming_outcome {rules : Check} {holds : Bool} (hnew : ¬ Assumes assumed pair.1 pair.2)
    (he : rules (pair :: assumed) = some (holds, left))
    (ho : arena.Outcome U pair (arena.Trusted pair)
      (fun left => Satisfied (Assumes left) (arena.clauses pair.1 pair.2))
      (Satisfied arena.Subtype (arena.clauses pair.1 pair.2)) (pair :: assumed) left holds) :
    ∃ holds left, Check.assuming pair.1 pair.2 rules assumed = some (holds, left) ∧
      arena.Outcome U pair (arena.Trusted pair) (fun left => Assumes left pair.1 pair.2)
        (arena.Subtype pair.1 pair.2) assumed left holds := by
  have hset : assumed.settles pair.1 pair.2 = false := by
    rw [Bool.eq_false_iff, ne_eq, Assumed.settles_iff]
    exact hnew
  obtain ⟨hne, hfresh⟩ := not_or.mp hnew
  have hconfirmed : arena.Subtype pair.1 pair.2 → holds = true := by
    intro h
    apply ho.confirmed
    exact (arena.obeys_iff _ _ _).mp (h.eq_or_obeys.resolve_left hne)
  cases holds with
  | true =>
    refine ⟨true, left, ?_, ho.grown.uncons, fun _ => ?_, fun _ => rfl, fun ht => ?_⟩
    · simp [Check.assuming, hset, he]
    · exact Or.inr (ho.grown.kept List.mem_cons_self)
    · exact (ho.supported ht).confirm (ho.found rfl)
  | false =>
    refine ⟨false, left.erase pair, ?_, ho.grown.erase hfresh, by simp, hconfirmed, fun ht => ?_⟩
    · simp [Check.assuming, hset, he]
    · rcases ht with ht | ⟨-, hf⟩
      · exact (ho.supported (Or.inl ht)).refute ho.grown.nodup ht
      · exact absurd hf Bool.false_ne_true

theorem check_outcome (hclosed : ∀ pair ∈ U, ∀ part, arena.Asks pair part → part ∈ U)
    (fuel : Nat) : ∀ (pair : TypeId × TypeId) (assumed : Assumed), pair ∈ U → assumed.Nodup →
      (∀ p ∈ assumed, p ∈ U) → (U \ assumed.toFinset).card < fuel →
      ∃ holds left, arena.check fuel pair.1 pair.2 assumed = some (holds, left) ∧
        arena.Outcome U pair (arena.Trusted pair) (fun left => Assumes left pair.1 pair.2)
          (arena.Subtype pair.1 pair.2) assumed left holds := by
  induction fuel with
  | zero => intro _ _ _ _ _ hf; omega
  | succ fuel ih =>
    intro pair assumed hU hn hin hf
    by_cases hs : Assumes assumed pair.1 pair.2
    · refine ⟨true, assumed, ?_, Grown.refl hn hin, fun _ => hs, fun _ => rfl, fun _ => ?_⟩
      · simp [check, Check.assuming, Assumed.settles_iff.mpr hs]
      · exact Supported.refl assumed
    · have hfresh : pair ∉ assumed := (not_or.mp hs).2
      have hstart : Grown U (pair :: assumed) (pair :: assumed) :=
        Grown.refl (List.nodup_cons.mpr ⟨hfresh, hn⟩) (List.forall_mem_cons.mpr ⟨hU, hin⟩)
      have hask : ∀ part, arena.Asks pair part →
          arena.Examines U pair (pair :: assumed) (arena.check fuel part.1 part.2)
            (arena.Trusted part) (fun left => Assumes left part.1 part.2)
            (arena.Subtype part.1 part.2) := by
        intro part hpart assumed' hg
        -- assuming the pair leaves fewer pairs to assume below it
        have hcard : (U \ assumed'.toFinset).card < fuel := by
          have hle := @card_unassumed_le U _ _ hg.kept
          have hlt := card_unassumed_lt hU hfresh
          omega
        obtain ⟨holds, left, he, ho⟩ :=
          ih part assumed' (hclosed pair hU part hpart) hg.nodup hg.inside hcard
        exact ⟨holds, left, he, ho.grown, ho.found, ho.confirmed,
          fun ht => (ho.supported ht).asks hpart⟩
      obtain ⟨holds, left, he, ho⟩ :=
        examines_every (fun _ _ _ hk ⟨part, hp, hf⟩ => ⟨part, hp, hf.mono hk _ _⟩)
          (fun clause hc => examines_any fun part hp => hask part ⟨clause, hc, hp⟩) _ hstart
      rw [← arena.rules_eq (arena.check fuel) pair.1 pair.2] at he
      refine assuming_outcome hs he ⟨ho.grown, ho.found, ho.confirmed, fun ht => ?_⟩
      exact ho.supported fun clause hc =>
        ⟨trusted_clauses ht.confirmed clause hc, trusted_clauses ht clause hc⟩

variable (arena)

def questions (sub sup : TypeId) : Finset (TypeId × TypeId) :=
  insert sub (Finset.range arena.size) ×ˢ insert sup (Finset.range arena.size)

theorem asks_questions {sub sup : TypeId} :
    ∀ pair ∈ arena.questions sub sup, ∀ part, arena.Asks pair part →
      part ∈ arena.questions sub sup := by
  intro pair hp part hpart
  have hjson : jsonId < arena.size := arena.two_le_size
  obtain ⟨hfst, hsnd⟩ := arena.asks_sides hpart
  simp only [questions, Finset.mem_product, Finset.mem_insert, Finset.mem_range] at hp ⊢
  constructor
  · rcases hfst with heq | hnext
    · exact heq ▸ hp.1
    · exact Or.inr (arena.nextTypes_lt hnext)
  · rcases hsnd with heq | hnext | heq
    · exact heq ▸ hp.2
    · exact Or.inr (arena.nextTypes_lt hnext)
    · exact Or.inr (heq ▸ hjson)

theorem card_questions_lt (sub sup : TypeId) :
    (arena.questions sub sup).card < arena.depthBound := by
  have hside : ∀ ty, (insert ty (Finset.range arena.size)).card ≤ arena.size + 1 := by
    intro ty
    exact (Finset.card_insert_le _ _).trans (by simp)
  rw [questions, Finset.card_product, depthBound, Nat.lt_succ_iff]
  exact Nat.mul_le_mul (hside sub) (hside sup)

theorem check_depthBound (sub sup : TypeId) :
    ∃ holds left, arena.check arena.depthBound sub sup [] = some (holds, left) ∧
      arena.Outcome (arena.questions sub sup) (sub, sup) (arena.Trusted (sub, sup))
        (fun left => Assumes left sub sup) (arena.Subtype sub sup) [] left holds := by
  refine check_outcome arena.asks_questions arena.depthBound (sub, sup) [] ?_ List.nodup_nil
    (by simp) ?_
  · simp [questions]
  · simpa using arena.card_questions_lt sub sup

end NaturalFunctions.TypeArena
