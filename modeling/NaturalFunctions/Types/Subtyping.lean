import NaturalFunctions.Types.Arena

/-!
Structural subtyping. A pair under examination counts as true when it is met again, which makes
recursive definitions end; a refuted pair is forgotten.
-/

namespace NaturalFunctions.TypeArena

abbrev Assumed := List (TypeId × TypeId)

def Assumed.settles (assumed : Assumed) (sub sup : TypeId) : Bool :=
  sub == sup || assumed.any fun pair => pair.1 == sub && pair.2 == sup

theorem Assumed.settles_iff {assumed : Assumed} {sub sup : TypeId} :
    assumed.settles sub sup = true ↔ sub = sup ∨ (sub, sup) ∈ assumed := by
  simp only [settles, Bool.or_eq_true, beq_iff_eq, List.any_eq_true, Bool.and_eq_true]
  constructor
  · rintro (h | ⟨⟨a, b⟩, hm, rfl, rfl⟩)
    · exact Or.inl h
    · exact Or.inr hm
  · rintro (h | h)
    · exact Or.inl h
    · exact Or.inr ⟨_, h, rfl, rfl⟩

/-- The outcome with the assumptions it leaves, or `none` where the fuel does not suffice. -/
abbrev Check := Assumed → Option (Bool × Assumed)

namespace Check

def answer (holds : Bool) : Check := fun assumed => some (holds, assumed)

def every {α : Type} (check : α → Check) : List α → Check
  | [] => answer true
  | x :: rest => fun assumed =>
    match check x assumed with
    | some (true, assumed) => every check rest assumed
    | refuted => refuted

def any {α : Type} (check : α → Check) : List α → Check
  | [] => answer false
  | x :: rest => fun assumed =>
    match check x assumed with
    | some (false, assumed) => any check rest assumed
    | confirmed => confirmed

def assuming (sub sup : TypeId) (rules : Check) : Check := fun assumed =>
  if assumed.settles sub sup then some (true, assumed)
  else
    match rules ((sub, sup) :: assumed) with
    | some (true, assumed) => some (true, assumed)
    | some (false, assumed) => some (false, assumed.erase (sub, sup))
    | none => none

end Check

def suits (held wanted : RecordField TypeId) : Bool :=
  held.name = wanted.name && (wanted.optional || !held.optional)

def jsonRules (arena : TypeArena) (subtype : TypeId → TypeId → Check) (ty : TypeId) : Check :=
  match arena.node ty with
  | .primitive _ => Check.answer true
  | .json => Check.answer true
  | .array element => subtype element jsonId
  | .tuple members => Check.every (fun member => subtype member jsonId) members
  | .union members => Check.every (fun member => subtype member jsonId) members
  | .record fields => Check.every (fun field => subtype field.type jsonId) fields
  | .named _ (some target) => subtype target jsonId
  | .named _ none => Check.answer false
  | .error => Check.answer false
  | .nominal _ _ => Check.answer false

def rules (arena : TypeArena) (subtype : TypeId → TypeId → Check) (sub sup : TypeId) : Check :=
  match arena.node sub, arena.node sup with
  | .named _ (some target), _ => subtype target sup
  | .named _ none, _ => Check.answer false
  | _, .named _ (some target) => subtype sub target
  | _, .named _ none => Check.answer false
  | .union members, _ => Check.every (fun member => subtype member sup) members
  | _, .union members => Check.any (fun member => subtype sub member) members
  | _, .json => arena.jsonRules subtype sub
  | .primitive a, .primitive b => Check.answer (a = b || (a = .byte && b = .int))
  | .array a, .array b => subtype a b
  | .tuple members, .array element => Check.every (fun member => subtype member element) members
  | .tuple a, .tuple b =>
    if a.length = b.length then Check.every (fun (x, y) => subtype x y) (a.zip b)
    else Check.answer false
  | .record held, .record wanted =>
    Check.every
      (fun wants => Check.any
        (fun has => if suits has wants then subtype has.type wants.type else Check.answer false)
        held)
      wanted
  | .nominal _ supertypes, _ => Check.any (fun parent => subtype parent sup) supertypes
  | _, _ => Check.answer false

def check (arena : TypeArena) : Nat → TypeId → TypeId → Check
  | 0, _, _ => fun _ => none
  | fuel + 1, sub, sup => Check.assuming sub sup (arena.rules (arena.check fuel) sub sup)

/-- Nested questions are about different pairs, so their number bounds the depth. -/
def depthBound (arena : TypeArena) : Nat := (arena.size + 1) * (arena.size + 1) + 1

def isSubtype (arena : TypeArena) (sub sup : TypeId) : Bool :=
  match arena.check arena.depthBound sub sup [] with
  | some (holds, _) => holds
  | none => false

end NaturalFunctions.TypeArena
