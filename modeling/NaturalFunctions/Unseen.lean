/-!
The number of entries of a finite list that a walk has not seen yet. It bounds every walk that
enters a node at most once.
-/

namespace NaturalFunctions

def unseen : List Nat → List Nat → Nat
  | [], _ => 0
  | x :: rest, seen => (if x ∈ seen then 0 else 1) + unseen rest seen

theorem unseen_cons_le (all seen : List Nat) (x : Nat) :
    unseen all (x :: seen) ≤ unseen all seen := by
  induction all with
  | nil => simp [unseen]
  | cons y rest ih =>
    simp only [unseen, List.mem_cons]
    by_cases hy : y ∈ seen
    · simp only [hy, or_true, ↓reduceIte]
      omega
    · simp only [hy, or_false, ↓reduceIte]
      split <;> omega

theorem unseen_cons_lt {all seen : List Nat} {x : Nat} (hx : x ∈ all) (h : x ∉ seen) :
    unseen all (x :: seen) < unseen all seen := by
  induction all with
  | nil => cases hx
  | cons y rest ih =>
    have hle := unseen_cons_le rest seen x
    rcases List.mem_cons.mp hx with he | hm
    · subst he
      simp only [unseen, List.mem_cons, true_or, h, ↓reduceIte]
      omega
    · have hlt := ih hm
      simp only [unseen, List.mem_cons]
      by_cases hy : y ∈ seen
      · simp only [hy, or_true, ↓reduceIte]
        omega
      · simp only [hy, or_false, ↓reduceIte]
        split <;> omega

end NaturalFunctions
