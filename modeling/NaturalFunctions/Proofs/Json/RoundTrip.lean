import Mathlib.Data.List.Basic
import Mathlib.Data.List.TakeDrop
import NaturalFunctions.Json.Parser
import NaturalFunctions.Json.Printer
import NaturalFunctions.Proofs.Json.Trees
import NaturalFunctions.Proofs.Tables

namespace NaturalFunctions.Json

theorem hexDigit?_digitChar {n : Nat} (h : n < 16) : hexDigit? n.digitChar = some n := by
  decide +revert

theorem stringBody_of_escaped {c : Char} {cs tail : List Char} (h : escaped cs = .ok (c, tail)) :
    stringBody ('\\' :: cs) = (stringBody tail).map fun (text, left) => (c :: text, left) := by
  rw [stringBody, if_neg (by decide), if_pos rfl]
  split
  · rename_i heq
    cases heq.symm.trans h
  · rename_i heq
    cases heq.symm.trans h
    rfl

theorem codePoint_control {c : Char} (hc : c.toNat < 0x20) (cs : List Char) :
    codePoint ('0' :: '0' :: (c.toNat / 16).digitChar :: (c.toNat % 16).digitChar :: cs) =
      .ok (c, cs) := by
  have hzero : hexDigit? '0' = some 0 := by decide
  have hhigh : hexDigit? (c.toNat / 16).digitChar = some (c.toNat / 16) :=
    hexDigit?_digitChar (by omega)
  have hlow : hexDigit? (c.toNat % 16).digitChar = some (c.toNat % 16) :=
    hexDigit?_digitChar (by omega)
  have hunit : codeUnit ('0' :: '0' :: (c.toNat / 16).digitChar ::
      (c.toNat % 16).digitChar :: cs) = .ok (c.toNat, cs) := by
    have hsum : ((0 * 16 + 0) * 16 + c.toNat / 16) * 16 + c.toNat % 16 = c.toNat := by omega
    simp only [codeUnit, hzero, hhigh, hlow, hsum]
  have hsingle : isLowSurrogate c.toNat = false ∧ isHighSurrogate c.toNat = false := by
    simp only [isLowSurrogate, isHighSurrogate, Bool.and_eq_false_iff, decide_eq_false_iff_not]
    omega
  rw [codePoint, hunit]
  simp [bind, Except.bind, hsingle, pure, Except.pure]

theorem stringBody_escape (c : Char) (cs : List Char) :
    stringBody (escape c ++ cs) =
      (stringBody cs).map fun (text, left) => (c :: text, left) := by
  unfold escape
  split
  case h_8 hquote hslash _ _ _ _ _ =>
    split
    · rename_i hc
      exact stringBody_of_escaped (codePoint_control hc cs)
    · rename_i hc
      have hplain : c ≠ '"' ∧ c ≠ '\\' := ⟨hquote, hslash⟩
      rw [List.singleton_append, stringBody, if_neg hplain.1, if_neg hplain.2, if_neg hc]
  all_goals exact stringBody_of_escaped rfl

theorem stringBody_quoted (text rest : List Char) :
    stringBody (text.flatMap escape ++ '"' :: rest) = .ok (text, rest) := by
  induction text with
  | nil => simp [stringBody]
  | cons c text ih =>
    rw [List.flatMap_cons, List.append_assoc, stringBody_escape, ih]
    rfl

def NumberEnds (rest : List Char) : Prop :=
  ∀ c ∈ rest.head?, c.isDigit = false ∧ c ≠ '.' ∧ c ≠ 'e' ∧ c ≠ 'E'

theorem digits_toDigits (n : Nat) {rest : List Char} (h : NumberEnds rest) :
    digits (Nat.toDigits 10 n ++ rest) = .ok (Nat.toDigits 10 n, rest) := by
  have hdigits : ∀ c ∈ Nat.toDigits 10 n, c.isDigit = true :=
    fun c => Nat.isDigit_of_mem_toDigits (by decide) (by decide)
  have hrest : rest.takeWhile Char.isDigit = [] ∧ rest.dropWhile Char.isDigit = rest := by
    cases rest with
    | nil => simp
    | cons c rest => simp [(h c rfl).1]
  rw [digits, List.span_eq_takeWhile_dropWhile, List.takeWhile_append_of_pos hdigits,
    List.dropWhile_append_of_pos hdigits, hrest.1, hrest.2, List.append_nil]
  cases hn : Nat.toDigits 10 n with
  | nil => exact absurd hn Nat.toDigits_ne_nil
  | cons c cs => rfl

theorem eq_zero_of_leading_zero {n : Nat} (h : (Nat.toDigits 10 n).head? = some '0') : n = 0 := by
  induction n using Nat.strongRecOn with
  | _ n ih =>
    rw [Nat.toDigits_eq_if (by decide)] at h
    split at h
    · rename_i hn
      clear ih
      decide +revert
    · rw [List.head?_append_of_ne_nil _ Nat.toDigits_ne_nil] at h
      have := ih (n / 10) (by omega) h
      omega

theorem le_ofDigitChars (ds : List Char) (kept : Nat) : kept ≤ Nat.ofDigitChars 10 ds kept := by
  induction ds generalizing kept with
  | nil => exact Nat.le_refl _
  | cons d ds ih =>
    rw [Nat.ofDigitChars_cons]
    have := ih (10 * kept + (d.toNat - '0'.toNat))
    omega

theorem keep_of_lt {kept : Nat} {ds : List Char} (h : Nat.ofDigitChars 10 ds kept < Nat.pow 2 64) :
    keep kept ds = (Nat.ofDigitChars 10 ds kept, []) := by
  induction ds generalizing kept with
  | nil => rfl
  | cons d ds ih =>
    have hnext : 10 * kept + digitValue d < Nat.pow 2 64 :=
      Nat.lt_of_le_of_lt (le_ofDigitChars ds _) h
    rw [keep, if_pos hnext]
    exact ih h

theorem ofLiteral?_toDigits {value : Int} (hl : -(Nat.pow 2 63 : Int) ≤ value) (hu : value < Nat.pow 2 64) :
    ofLiteral? (value < 0) (Nat.toDigits 10 value.natAbs) none none = some (.int value) := by
  have hpow : Nat.pow 2 63 < Nat.pow 2 64 := by decide
  have hsmall : value.natAbs < Nat.pow 2 64 := by omega
  have hkeep : keep 0 (Nat.toDigits 10 value.natAbs) = (value.natAbs, []) := by
    rw [keep_of_lt (by rwa [Nat.ofDigitChars_ten_toDigits]), Nat.ofDigitChars_ten_toDigits]
  rw [ofLiteral?, hkeep]
  by_cases hneg : value < 0
  · have hrange : 0 < value.natAbs ∧ value.natAbs ≤ Nat.pow 2 63 := by omega
    have hvalue : -(value.natAbs : Int) = value := by omega
    simp only [hneg, decide_true, Bool.true_eq_false, ↓reduceIte, hrange, and_self, hvalue]
  · have hvalue : (value.natAbs : Int) = value := by omega
    simp only [hneg, decide_false, ↓reduceIte, hvalue]

theorem number_toDigits {value : Int} {rest : List Char} (hl : -(Nat.pow 2 63 : Int) ≤ value)
    (hu : value < Nat.pow 2 64) (h : NumberEnds rest) :
    number (value < 0) (Nat.toDigits 10 value.natAbs ++ rest) = .ok (.num (.int value), rest) := by
  have hzero : ¬ ((Nat.toDigits 10 value.natAbs).head? = some '0' ∧
      (Nat.toDigits 10 value.natAbs).length ≠ 1) := by
    rintro ⟨hhead, hlength⟩
    rw [eq_zero_of_leading_zero hhead] at hlength
    exact hlength rfl
  have hfraction : fraction rest = .ok (none, rest) := by
    unfold fraction
    split
    · exact absurd rfl (h '.' rfl).2.1
    · rfl
  have hexponent : exponent rest = .ok (none, rest) := by
    cases rest with
    | nil => rfl
    | cons c rest =>
      obtain ⟨-, -, he, hE⟩ := h c rfl
      rw [exponent, if_neg (not_or.mpr ⟨he, hE⟩)]
  rw [number, digits_toDigits _ h]
  simp only [bind, Except.bind, hzero, ↓reduceIte, hfraction, hexponent, ofLiteral?_toDigits hl hu,
    pure, Except.pure]

theorem skipBlank_cons {c : Char} (h : isBlank c = false) (cs : List Char) :
    skipBlank (c :: cs) = c :: cs := by
  rw [skipBlank, List.dropWhile_cons_of_neg (by simp [h])]

theorem ne_of_isDigit {c other : Char} (h : c.isDigit = true) (ho : other.isDigit = false) :
    c ≠ other := by
  rintro rfl
  cases h.symm.trans ho

theorem isBlank_of_isDigit {c : Char} (h : c.isDigit = true) : isBlank c = false := by
  simp [isBlank, ne_of_isDigit h]

theorem value_of_isDigit {c : Char} (h : c.isDigit = true) (bound : Nat) (cs : List Char) :
    value bound (c :: cs) = number false (c :: cs) := by
  rw [value.eq_def, skipBlank_cons (isBlank_of_isDigit h)]
  split
  case h_8 => simp [h]
  all_goals
    rename_i heq
    injection heq with hc
    exact absurd hc (ne_of_isDigit h (by decide))

theorem exists_toDigits_eq_cons (n : Nat) :
    ∃ c cs, Nat.toDigits 10 n = c :: cs ∧ c.isDigit = true := by
  obtain ⟨c, cs, h⟩ := List.exists_cons_of_ne_nil (@Nat.toDigits_ne_nil n 10)
  refine ⟨c, cs, h, Nat.isDigit_of_mem_toDigits (b := 10) (n := n) (by decide) (by decide) ?_⟩
  exact h ▸ List.mem_cons_self

theorem value_num {number : Int} (hl : -(Nat.pow 2 63 : Int) ≤ number) (hu : number < Nat.pow 2 64) {rest : List Char}
    (h : NumberEnds rest) (bound : Nat) :
    value bound ((Json.num (.int number)).chars ++ rest) = .ok (.num (.int number), rest) := by
  have hnumber := number_toDigits hl hu h
  by_cases hneg : number < 0
  · simp only [hneg, decide_true] at hnumber
    simp only [chars, Number.chars, hneg, ↓reduceIte, List.cons_append]
    rw [value.eq_def, skipBlank_cons (by decide)]
    exact hnumber
  · simp only [hneg, decide_false] at hnumber
    simp only [chars, Number.chars, hneg, ↓reduceIte, List.nil_append]
    obtain ⟨c, cs, hdigits, hc⟩ := exists_toDigits_eq_cons number.natAbs
    rw [hdigits, List.cons_append] at hnumber ⊢
    rw [value_of_isDigit hc, hnumber]

theorem exists_chars_eq_cons {tree : Json} (hf : tree.FloatFree) :
    ∃ c cs, tree.chars = c :: cs ∧ isBlank c = false ∧ c ≠ ']' := by
  cases tree with
  | null => exact ⟨_, _, rfl, by decide⟩
  | bool value => cases value <;> exact ⟨_, _, rfl, by decide⟩
  | str text => exact ⟨_, _, rfl, by decide⟩
  | arr items => exact ⟨_, _, rfl, by decide⟩
  | obj members => exact ⟨_, _, rfl, by decide⟩
  | num value =>
    cases value with
    | float value => exact absurd hf (not_floatFree_float value)
    | int value =>
      by_cases hneg : value < 0
      · refine ⟨'-', Nat.toDigits 10 value.natAbs, ?_, by decide⟩
        simp [chars, Number.chars, hneg]
      · obtain ⟨c, cs, hdigits, hc⟩ := exists_toDigits_eq_cons value.natAbs
        exact ⟨c, cs, by simp [chars, Number.chars, hneg, hdigits], isBlank_of_isDigit hc,
          ne_of_isDigit hc (by decide)⟩

theorem itemsChars_cons_cons (item next : Json) (rest : List Json) :
    itemsChars (item :: next :: rest) = chars item ++ ',' :: itemsChars (next :: rest) := rfl

theorem membersChars_cons_cons (name : String) (value : Json) (next : String × Json)
    (rest : List (String × Json)) :
    membersChars ((name, value) :: next :: rest) =
      quote name.toList ++ ':' :: chars value ++ ',' :: membersChars (next :: rest) := rfl

section Loops

variable {item : List Char → Except ReadFault (Json × List Char)} {bound fuel : Nat}

theorem elements_itemsChars {items : List Json} (hne : items ≠ [])
    (hitem : ∀ tree ∈ items, ∀ rest, NumberEnds rest → item (tree.chars ++ rest) =
      if tree.depth ≤ bound then .ok (tree, rest) else .error .malformed)
    (hfuel : items.length ≤ fuel) (rest : List Char) :
    elements item fuel (itemsChars items ++ ']' :: rest) =
      if ∀ tree ∈ items, tree.depth ≤ bound then .ok (items, rest) else .error .malformed := by
  induction items generalizing fuel with
  | nil => exact absurd rfl hne
  | cons tree others ih =>
    obtain ⟨fuel, rfl⟩ := Nat.exists_eq_add_of_le' (Nat.le_of_add_left_le hfuel)
    obtain ⟨htree, hothers⟩ := List.forall_mem_cons.mp hitem
    simp only [List.forall_mem_cons]
    cases others with
    | nil =>
      have hends : NumberEnds (']' :: rest) := by simp [NumberEnds]
      rw [itemsChars, elements, htree _ hends]
      by_cases hd : tree.depth ≤ bound
      · simp only [hd, ↓reduceIte, bind, Except.bind,
          skipBlank_cons (show isBlank ']' = false by decide)]
        simp [pure, Except.pure]
      · simp only [hd, ↓reduceIte, false_and]
        rfl
    | cons next others =>
      have hends : ∀ cs, NumberEnds (',' :: cs) := by simp [NumberEnds]
      have hrest := ih (List.cons_ne_nil _ _) hothers (Nat.le_of_succ_le_succ hfuel)
      rw [itemsChars_cons_cons, List.append_assoc, List.cons_append, elements, htree _ (hends _)]
      by_cases hd : tree.depth ≤ bound
      · simp only [hd, ↓reduceIte, true_and, bind, Except.bind,
          skipBlank_cons (show isBlank ',' = false by decide), hrest]
        by_cases hall : ∀ tree ∈ next :: others, tree.depth ≤ bound
        · simp only [if_pos hall]
          rfl
        · simp only [if_neg hall]
      · simp only [hd, ↓reduceIte, false_and]
        rfl

theorem key_quote (name : String) (cs : List Char) :
    key (quote name.toList ++ ':' :: cs) = .ok (name, cs) := by
  have hquote : quote name.toList ++ ':' :: cs =
      '"' :: (name.toList.flatMap escape ++ '"' :: ':' :: cs) := by
    simp [quote]
  rw [hquote, key, skipBlank_cons (by decide)]
  simp only [stringBody_quoted, bind, Except.bind, String.ofList_toList,
    skipBlank_cons (show isBlank ':' = false by decide)]
  rfl

theorem members_membersChars {members : List (String × Json)} (hne : members ≠ [])
    (hitem : ∀ member ∈ members, ∀ rest, NumberEnds rest → item (member.2.chars ++ rest) =
      if member.2.depth ≤ bound then .ok (member.2, rest) else .error .malformed)
    (hfuel : members.length ≤ fuel) (rest : List Char) :
    Json.members item fuel (membersChars members ++ '}' :: rest) =
      if ∀ member ∈ members, member.2.depth ≤ bound then .ok (members, rest)
      else .error .malformed := by
  induction members generalizing fuel with
  | nil => exact absurd rfl hne
  | cons member others ih =>
    obtain ⟨name, tree⟩ := member
    obtain ⟨fuel, rfl⟩ := Nat.exists_eq_add_of_le' (Nat.le_of_add_left_le hfuel)
    obtain ⟨htree, hothers⟩ := List.forall_mem_cons.mp hitem
    simp only [List.forall_mem_cons]
    cases others with
    | nil =>
      have hends : NumberEnds ('}' :: rest) := by simp [NumberEnds]
      rw [membersChars, List.append_assoc, List.cons_append, Json.members]
      simp only [key_quote, bind, Except.bind, htree _ hends]
      by_cases hd : tree.depth ≤ bound
      · simp only [hd, ↓reduceIte, skipBlank_cons (show isBlank '}' = false by decide)]
        simp [pure, Except.pure]
      · simp only [hd, ↓reduceIte, false_and]
    | cons next others =>
      have hends : ∀ cs, NumberEnds (',' :: cs) := by simp [NumberEnds]
      have hrest := ih (List.cons_ne_nil _ _) hothers (Nat.le_of_succ_le_succ hfuel)
      rw [membersChars_cons_cons, List.append_assoc, List.append_assoc, List.cons_append,
        List.cons_append, Json.members]
      simp only [key_quote, bind, Except.bind, htree _ (hends _)]
      by_cases hd : tree.depth ≤ bound
      · simp only [hd, ↓reduceIte, true_and,
          skipBlank_cons (show isBlank ',' = false by decide), hrest]
        by_cases hall : ∀ member ∈ next :: others, member.2.depth ≤ bound
        · simp only [if_pos hall]
          rfl
        · simp only [if_neg hall]
      · simp only [hd, ↓reduceIte, false_and]

end Loops

theorem length_le_itemsChars (items : List Json) :
    items.length ≤ (itemsChars items).length + 1 := by
  induction items with
  | nil => simp
  | cons item rest ih =>
    cases rest with
    | nil => simp
    | cons next rest =>
      simp only [itemsChars_cons_cons, List.length_append, List.length_cons] at ih ⊢
      omega

theorem length_le_membersChars (members : List (String × Json)) :
    members.length ≤ (membersChars members).length + 1 := by
  induction members with
  | nil => simp
  | cons member rest ih =>
    cases rest with
    | nil => simp
    | cons next rest =>
      obtain ⟨name, value⟩ := member
      simp only [membersChars_cons_cons, List.length_append, List.length_cons] at ih ⊢
      omega

theorem value_arr {items : List Json} {bound : Nat} (hfree : ∀ item ∈ items, item.FloatFree)
    (hitem : ∀ item ∈ items, ∀ rest, NumberEnds rest → value bound (item.chars ++ rest) =
      if item.depth ≤ bound then .ok (item, rest) else .error .malformed) (rest : List Char) :
    value (bound + 1) ((Json.arr items).chars ++ rest) =
      if ∀ item ∈ items, item.depth ≤ bound then .ok (.arr items, rest)
      else .error .malformed := by
  have hchars : (Json.arr items).chars ++ rest = '[' :: (itemsChars items ++ ']' :: rest) := by
    simp [chars]
  rw [hchars, value.eq_def, skipBlank_cons (by decide)]
  cases items with
  | nil => simp [itemsChars, skipBlank_cons (show isBlank ']' = false by decide)]
  | cons first others =>
    obtain ⟨c, cs, hfirst, hblank, hend⟩ := exists_chars_eq_cons (hfree first List.mem_cons_self)
    obtain ⟨tail, htail⟩ : ∃ tail, itemsChars (first :: others) ++ ']' :: rest = c :: tail := by
      cases others with
      | nil => exact ⟨_, congrArg (· ++ _) hfirst⟩
      | cons next others =>
        rw [itemsChars_cons_cons, hfirst]
        exact ⟨_, rfl⟩
    have hfuel : (first :: others).length ≤ (c :: tail).length := by
      have hlength := length_le_itemsChars (first :: others)
      rw [← htail]
      simp only [List.length_append, List.length_cons] at hlength ⊢
      omega
    have hitems := elements_itemsChars (List.cons_ne_nil _ _) hitem hfuel rest
    rw [htail] at hitems
    simp only [htail, skipBlank_cons hblank]
    split
    · rename_i heq
      injection heq with hc
      exact absurd hc hend
    · rw [hitems]
      split <;> rfl

theorem value_obj {members : List (String × Json)} {bound : Nat} (hs : Table.Sorted members)
    (hitem : ∀ member ∈ members, ∀ rest, NumberEnds rest → value bound (member.2.chars ++ rest) =
      if member.2.depth ≤ bound then .ok (member.2, rest) else .error .malformed)
    (rest : List Char) :
    value (bound + 1) ((Json.obj members).chars ++ rest) =
      if ∀ member ∈ members, member.2.depth ≤ bound then .ok (.obj members, rest)
      else .error .malformed := by
  have hchars : (Json.obj members).chars ++ rest = '{' :: (membersChars members ++ '}' :: rest) := by
    simp [chars]
  rw [hchars, value.eq_def, skipBlank_cons (by decide)]
  cases members with
  | nil => simp [membersChars, skipBlank_cons (show isBlank '}' = false by decide)]
  | cons first others =>
    obtain ⟨tail, htail⟩ : ∃ tail, membersChars (first :: others) ++ '}' :: rest = '"' :: tail := by
      cases others with
      | nil => exact ⟨_, rfl⟩
      | cons next others => exact ⟨_, rfl⟩
    have hfuel : (first :: others).length ≤ ('"' :: tail).length := by
      have hlength := length_le_membersChars (first :: others)
      rw [← htail]
      simp only [List.length_append, List.length_cons] at hlength ⊢
      omega
    have hmembers := members_membersChars (List.cons_ne_nil _ _) hitem hfuel rest
    rw [htail] at hmembers
    simp only [htail, skipBlank_cons (show isBlank '"' = false by decide)]
    have hvalue : (Json.members (value bound) ('"' :: tail).length ('"' :: tail)).map
        (fun found => (object found.1, found.2)) =
          if ∀ member ∈ first :: others, member.2.depth ≤ bound then
            .ok (.obj (first :: others), rest)
          else .error .malformed := by
      rw [hmembers]
      split
      · rw [Except.map, object, Table.ofList_of_sorted hs]
      · rfl
    exact hvalue

theorem value_str (text : String) (bound : Nat) (rest : List Char) :
    value bound ((Json.str text).chars ++ rest) = .ok (.str text, rest) := by
  have hchars : (Json.str text).chars ++ rest =
      '"' :: (text.toList.flatMap escape ++ '"' :: rest) := by
    simp [chars, quote]
  rw [hchars, value.eq_def, skipBlank_cons (by decide)]
  simp only [stringBody_quoted, Except.map, String.ofList_toList]

theorem value_chars {tree : Json} {bound : Nat} {rest : List Char} (hp : tree.Proper)
    (hf : tree.FloatFree) (h : NumberEnds rest) : value bound (tree.chars ++ rest) =
      if tree.depth ≤ bound then .ok (tree, rest) else .error .malformed := by
  induction bound using Nat.strongRecOn generalizing tree rest with
  | _ bound ih =>
    cases tree with
    | null =>
      rw [depth, if_pos (Nat.zero_le bound), value.eq_def]
      rfl
    | bool flag =>
      rw [depth, if_pos (Nat.zero_le bound), value.eq_def]
      cases flag <;> rfl
    | str text =>
      rw [depth, if_pos (Nat.zero_le bound)]
      exact value_str text bound rest
    | num number =>
      cases number with
      | float number => exact absurd hf (not_floatFree_float number)
      | int number =>
        obtain ⟨hl, hu⟩ := proper_int_iff.mp hp
        rw [depth, if_pos (Nat.zero_le bound)]
        exact value_num hl hu h bound
    | arr items =>
      cases bound with
      | zero =>
        rw [depth, if_neg (Nat.not_succ_le_zero _), value.eq_def]
        rfl
      | succ bound =>
        have hfree := floatFree_arr_iff.mp hf
        rw [value_arr hfree _ rest]
        · simp only [depth_arr_le_succ_iff]
        · intro item hi rest hr
          exact ih bound (Nat.lt_succ_self _) (proper_arr_iff.mp hp item hi) (hfree item hi) hr
    | obj members =>
      cases bound with
      | zero =>
        rw [depth, if_neg (Nat.not_succ_le_zero _), value.eq_def]
        rfl
      | succ bound =>
        obtain ⟨hs, hp⟩ := proper_obj_iff.mp hp
        rw [value_obj hs _ rest]
        · simp only [depth_obj_le_succ_iff]
        · intro member hm rest hr
          exact ih bound (Nat.lt_succ_self _) (hp member hm) (floatFree_obj_iff.mp hf member hm) hr

theorem parse_chars {tree : Json} (hp : tree.Proper) (hf : tree.FloatFree) (bound : Nat) :
    parse bound tree.chars = if tree.depth ≤ bound then .ok tree else .error .malformed := by
  have hvalue := @value_chars tree bound [] hp hf (by simp [NumberEnds])
  rw [List.append_nil] at hvalue
  rw [parse, hvalue]
  split <;> rfl

theorem eq_of_ofText_text {tree read : Json} (hp : tree.Proper) (hf : tree.FloatFree)
    (h : ofText tree.text = .ok read) : read = tree := by
  rw [ofText, text, String.toList_ofList, parse_chars hp hf] at h
  split at h
  · exact (Except.ok.inj h).symm
  · cases h

theorem ofText_text {tree : Json} (hp : tree.Proper) (hf : tree.FloatFree)
    (hd : tree.depth ≤ maxDepth) : ofText tree.text = .ok tree := by
  rw [ofText, text, String.toList_ofList, parse_chars hp hf, if_pos hd]

end NaturalFunctions.Json
