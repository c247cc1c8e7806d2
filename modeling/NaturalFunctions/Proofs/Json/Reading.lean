import NaturalFunctions.Json.Parser
import NaturalFunctions.Proofs.Json.Trees
import NaturalFunctions.Proofs.Tables

namespace NaturalFunctions

theorem bind_eq_ok_iff {ε α β : Type} {x : Except ε α} {f : α → Except ε β} {b : β} :
    x >>= f = .ok b ↔ ∃ a, x = .ok a ∧ f a = .ok b := by
  cases x <;> simp [bind, Except.bind]

theorem map_eq_ok_iff {ε α β : Type} {x : Except ε α} {f : α → β} {b : β} :
    x.map f = .ok b ↔ ∃ a, x = .ok a ∧ f a = b := by
  cases x <;> simp [Except.map]

namespace Json

theorem keep_lt {kept : Nat} (h : kept < Nat.pow 2 64) (ds : List Char) :
    (keep kept ds).1 < Nat.pow 2 64 := by
  induction ds generalizing kept with
  | nil => exact h
  | cons d ds ih =>
    rw [keep]
    split
    · exact ih (by assumption)
    · exact h

theorem proper_of_ofLiteral? {negative : Bool} {whole : List Char} {fraction : Option (List Char)}
    {exponent : Option Int} {value : Number}
    (h : ofLiteral? negative whole fraction exponent = some value) : (Json.num value).Proper := by
  have hkeep := keep_lt (show 0 < Nat.pow 2 64 by decide) whole
  cases value with
  | float value => exact proper_float value
  | int value =>
    apply proper_int_iff.mpr
    simp only [ofLiteral?] at h
    split at h
    · split at h
      · obtain rfl := Number.int.inj (Option.some.inj h)
        omega
      · split at h
        · obtain rfl := Number.int.inj (Option.some.inj h)
          omega
        · simp at h
    · simp at h

variable {cs rest : List Char} {tree : Json}

theorem proper_of_number {negative : Bool} (h : number negative cs = .ok (tree, rest)) :
    tree.Proper := by
  unfold number at h
  obtain ⟨⟨whole, left⟩, -, h⟩ := bind_eq_ok_iff.mp h
  dsimp only at h
  split at h
  · cases h
  · obtain ⟨_, -, h⟩ := bind_eq_ok_iff.mp h
    obtain ⟨_, -, h⟩ := bind_eq_ok_iff.mp h
    split at h
    · rename_i hliteral
      cases h
      exact proper_of_ofLiteral? hliteral
    · cases h

theorem eq_of_word {letters : List Char} {known : Json}
    (h : word letters known cs = .ok (tree, rest)) : tree = known := by
  fun_induction word letters known cs with
  | case1 =>
    cases h
    rfl
  | case2 => cases h
  | case3 _ _ _ _ ih => exact ih h
  | case4 => cases h

section Loops

variable {item : List Char → Except ReadFault (Json × List Char)} {fuel : Nat}

theorem proper_of_elements (hitem : ∀ cs tree rest, item cs = .ok (tree, rest) → tree.Proper)
    {items : List Json} (h : elements item fuel cs = .ok (items, rest)) :
    ∀ tree ∈ items, tree.Proper := by
  induction fuel generalizing cs items rest with
  | zero => cases h
  | succ fuel ih =>
    obtain ⟨⟨first, left⟩, hfirst, h⟩ := bind_eq_ok_iff.mp h
    dsimp only at h
    split at h
    · cases h
      exact List.forall_mem_singleton.mpr (hitem _ _ _ hfirst)
    · obtain ⟨⟨others, left⟩, hothers, h⟩ := bind_eq_ok_iff.mp h
      cases h
      exact List.forall_mem_cons.mpr ⟨hitem _ _ _ hfirst, ih hothers⟩
    · cases h

theorem proper_of_members (hitem : ∀ cs tree rest, item cs = .ok (tree, rest) → tree.Proper)
    {found : List (String × Json)} (h : members item fuel cs = .ok (found, rest)) :
    ∀ member ∈ found, member.2.Proper := by
  induction fuel generalizing cs found rest with
  | zero => cases h
  | succ fuel ih =>
    obtain ⟨⟨name, left⟩, -, h⟩ := bind_eq_ok_iff.mp h
    obtain ⟨⟨first, left⟩, hfirst, h⟩ := bind_eq_ok_iff.mp h
    dsimp only at h
    split at h
    · cases h
      exact List.forall_mem_singleton.mpr (hitem _ _ _ hfirst)
    · obtain ⟨⟨others, left⟩, hothers, h⟩ := bind_eq_ok_iff.mp h
      cases h
      exact List.forall_mem_cons.mpr ⟨hitem _ _ _ hfirst, ih hothers⟩
    · cases h

end Loops

theorem proper_of_value {bound : Nat} (h : value bound cs = .ok (tree, rest)) : tree.Proper := by
  induction bound using Nat.strongRecOn generalizing cs tree rest with
  | _ bound ih =>
    rw [value.eq_def] at h
    split at h
    case h_1 => exact eq_of_word h ▸ proper_null
    case h_2 => exact eq_of_word h ▸ proper_bool true
    case h_3 => exact eq_of_word h ▸ proper_bool false
    case h_4 =>
      obtain ⟨_, -, h⟩ := map_eq_ok_iff.mp h
      cases h
      exact proper_str _
    case h_5 => exact proper_of_number h
    case h_6 =>
      split at h
      · cases h
      · split at h
        · cases h
          simp
        · obtain ⟨⟨items, left⟩, hitems, h⟩ := map_eq_ok_iff.mp h
          cases h
          apply proper_arr_iff.mpr
          exact proper_of_elements (fun _ _ _ => ih _ (Nat.lt_succ_self _)) hitems
    case h_7 =>
      split at h
      · cases h
      · split at h
        · cases h
          exact proper_obj_iff.mpr ⟨List.Pairwise.nil, by simp⟩
        · obtain ⟨⟨found, left⟩, hfound, h⟩ := map_eq_ok_iff.mp h
          cases h
          refine proper_obj_iff.mpr ⟨Table.sorted_ofList found, fun member hm => ?_⟩
          exact proper_of_members (fun _ _ _ => ih _ (Nat.lt_succ_self _)) hfound member
            (Table.mem_of_mem_ofList hm)
    case h_8 =>
      split at h
      · exact proper_of_number h
      · cases h

theorem proper_of_ofText {text : String} (h : ofText text = .ok tree) : tree.Proper := by
  obtain ⟨⟨found, rest⟩, hvalue, h⟩ := bind_eq_ok_iff.mp h
  dsimp only at h
  split at h
  · cases h
    exact proper_of_value hvalue
  · cases h

end Json

end NaturalFunctions
