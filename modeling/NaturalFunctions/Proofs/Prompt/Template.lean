import NaturalFunctions.Prompt.Template

namespace NaturalFunctions

theorem Json.text?_eq_some_iff {tree : Json} {text : String} :
    tree.text? = some text ↔ tree = .str text := by
  cases tree <;> simp [Json.text?]

theorem Json.mapM_text?_eq_some_iff {trees : List Json} {texts : List String} :
    trees.mapM Json.text? = some texts ↔ trees = texts.map .str := by
  induction trees generalizing texts with
  | nil => cases texts <;> simp
  | cons tree trees ih =>
    cases texts with
    | nil => simp [Option.bind_eq_some_iff]
    | cons text texts => simp [Option.bind_eq_some_iff, Json.text?_eq_some_iff, ih]

namespace Prompt

def Balanced (prompt : Prompt) : Prop := prompt.strings.length = prompt.insertions.length + 1

structure Alternates (prompt : Prompt) (pieces : List String) : Prop where
  length : pieces.length = 2 * prompt.insertions.length + 1
  string : ∀ k ≤ prompt.insertions.length, pieces[2 * k]? = prompt.strings[k]?
  insertion : ∀ k < prompt.insertions.length,
    pieces[2 * k + 1]? = prompt.insertions[k]?.map Json.plain

inductive Holds (strings : List String) (insertions : List Json) : Json → Prop
  | members {members : List (String × Json)}
      (hs : members.lookup "strings" = some (Json.ofStrings strings))
      (hi : members.lookup "insertions" = some (.arr insertions)) :
      Holds strings insertions (.obj members)
  | items : Holds strings insertions (.arr [Json.ofStrings strings, .arr insertions])

variable {strings : List String} {insertions : List Json} {prompt : Prompt} {tree : Json} {k : Nat}

theorem new_eq_ok_iff :
    new strings insertions = .ok prompt ↔ prompt = ⟨strings, insertions⟩ ∧ prompt.Balanced := by
  unfold new
  split
  · rename_i hlength
    constructor
    · intro h
      cases h
      exact ⟨rfl, hlength⟩
    · rintro ⟨rfl, -⟩
      rfl
  · rename_i hlength
    constructor
    · intro h
      cases h
    · rintro ⟨rfl, h⟩
      exact absurd h hlength

section Reading

variable {first second : Json}

theorem read_eq_some_iff : ofJson?.read first second = some prompt ↔
    first = Json.ofStrings prompt.strings ∧ second = .arr prompt.insertions := by
  obtain ⟨strings, insertions⟩ := prompt
  unfold ofJson?.read
  split
  · rw [Option.map_eq_some_iff]
    constructor
    · rintro ⟨texts, htexts, heq⟩
      cases heq
      exact ⟨congrArg Json.arr (Json.mapM_text?_eq_some_iff.mp htexts), rfl⟩
    · rintro ⟨hs, hi⟩
      cases hi
      exact ⟨strings, Json.mapM_text?_eq_some_iff.mpr (Json.arr.inj hs), rfl⟩
  · rename_i hlists
    constructor
    · intro h
      cases h
    · rintro ⟨rfl, rfl⟩
      exact (hlists _ _ rfl rfl).elim

theorem ofJson?_eq_some_iff :
    ofJson? tree = some prompt ↔ Holds prompt.strings prompt.insertions tree := by
  unfold ofJson?
  split
  · simp only [Option.bind_eq_bind, Option.bind_eq_some_iff, read_eq_some_iff]
    constructor
    · rintro ⟨_, hs, _, hi, rfl, rfl⟩
      exact .members hs hi
    · rintro ⟨hs, hi⟩
      exact ⟨_, hs, _, hi, rfl, rfl⟩
  · rw [read_eq_some_iff]
    constructor
    · rintro ⟨rfl, rfl⟩
      exact .items
    · intro h
      cases h
      exact ⟨rfl, rfl⟩
  · rename_i hobject hlist
    constructor
    · intro h
      cases h
    · intro h
      cases h
      · exact (hobject _ rfl).elim
      · exact (hlist _ _ rfl).elim

end Reading

section Rendering

theorem length_splice (strings : List String) (insertions : List Json) :
    (splice strings insertions).length =
      strings.length + min strings.length insertions.length := by
  induction strings generalizing insertions with
  | nil => simp [splice]
  | cons s strings ih =>
    cases insertions with
    | nil => simp [splice, ih]
    | cons x insertions =>
      simp only [splice, List.length_cons, ih]
      omega

theorem getElem?_splice_string (hk : k ≤ insertions.length) :
    (splice strings insertions)[2 * k]? = strings[k]? := by
  induction strings generalizing insertions k with
  | nil => simp [splice]
  | cons s strings ih =>
    cases insertions with
    | nil =>
      obtain rfl := Nat.le_zero.mp hk
      simp [splice]
    | cons x insertions =>
      cases k with
      | zero => simp [splice]
      | succ k =>
        simp only [splice, Nat.mul_succ, List.getElem?_cons_succ]
        exact ih (Nat.le_of_succ_le_succ hk)

theorem getElem?_splice_insertion (hs : k < strings.length) (hi : k < insertions.length) :
    (splice strings insertions)[2 * k + 1]? = insertions[k]?.map Json.plain := by
  induction strings generalizing insertions k with
  | nil => cases hs
  | cons s strings ih =>
    cases insertions with
    | nil => cases hi
    | cons x insertions =>
      cases k with
      | zero => simp [splice]
      | succ k =>
        simp only [splice, Nat.mul_succ, List.getElem?_cons_succ]
        exact ih (Nat.lt_of_succ_lt_succ hs) (Nat.lt_of_succ_lt_succ hi)

theorem splice_take (strings : List String) (insertions : List Json) :
    splice strings (insertions.take strings.length) = splice strings insertions := by
  induction strings generalizing insertions with
  | nil => simp [splice]
  | cons s strings ih => cases insertions <;> simp [splice, ih]

theorem alternates_splice_iff :
    prompt.Alternates (splice prompt.strings prompt.insertions) ↔ prompt.Balanced := by
  have hlength := length_splice prompt.strings prompt.insertions
  constructor
  · intro h
    have hpieces := h.length
    unfold Balanced
    omega
  · intro h
    unfold Balanced at h
    refine ⟨by omega, fun k hk => getElem?_splice_string hk, fun k hk => ?_⟩
    apply getElem?_splice_insertion _ hk
    omega

end Rendering

theorem template_invariant (prompt : Prompt) :
    (∀ strings insertions, new strings insertions = .ok prompt ↔
      prompt = ⟨strings, insertions⟩ ∧ prompt.Balanced) ∧
    (∀ text, (ofText text).Balanced) ∧
    (∀ tree, ofJson? tree = some prompt ↔ Holds prompt.strings prompt.insertions tree) ∧
    ∃ pieces, prompt.render = String.join pieces ∧
      (prompt.Alternates pieces ↔ prompt.Balanced) ∧
      pieces = splice prompt.strings (prompt.insertions.take prompt.strings.length) := by
  refine ⟨fun _ _ => new_eq_ok_iff, fun _ => rfl, fun _ => ofJson?_eq_some_iff, ?_⟩
  refine ⟨splice prompt.strings prompt.insertions, rfl, alternates_splice_iff, ?_⟩
  rw [splice_take]

def lopsidedTree : Json :=
  .obj [("insertions", .arr [Json.ofNat 1, Json.ofNat 2]), ("strings", Json.ofStrings ["a"])]

theorem reads_lopsided :
    ofJson? lopsidedTree = some ⟨["a"], [Json.ofNat 1, Json.ofNat 2]⟩ ∧
      ¬ Balanced ⟨["a"], [Json.ofNat 1, Json.ofNat 2]⟩ ∧
      render ⟨["a"], [Json.ofNat 1, Json.ofNat 2]⟩ = "a1" := by
  refine ⟨?_, by simp [Balanced], by decide⟩
  rw [ofJson?_eq_some_iff]
  exact .members rfl rfl

end Prompt

end NaturalFunctions
