import Mathlib.Data.Rat.Defs
import NaturalFunctions.Schema.Basic

namespace NaturalFunctions

def Double.toRat (x : Double) : Rat :=
  let magnitude := mkRat x.ratio.1 x.ratio.2
  if x.negative then -magnitude else magnitude

def Number.toRat : Number → Rat
  | .int value => value
  | .float value => value.toRat

def Number.isIntegral (number : Number) : Bool := number.toRat.den = 1

namespace Json

mutual

def same : Json → Json → Bool
  | .null, .null => true
  | .bool x, .bool y => x = y
  | .num x, .num y => x.toRat = y.toRat
  | .str x, .str y => x = y
  | .arr xs, .arr ys => sameItems xs ys
  | .obj xs, .obj ys => xs.length = ys.length && sameMembers xs ys
  | _, _ => false

def sameItems : List Json → List Json → Bool
  | [], [] => true
  | x :: xs, y :: ys => same x y && sameItems xs ys
  | _, _ => false

def sameMembers : List (String × Json) → List (String × Json) → Bool
  | [], _ => true
  | (key, x) :: xs, ys => (ys.lookup key).any (same x) && sameMembers xs ys

end

def hasKind : Json → String → Bool
  | .null, kind => kind = "null"
  | .bool _, kind => kind = "boolean"
  | .num number, kind => kind = "number" || kind = "integer" && number.isIntegral
  | .str _, kind => kind = "string"
  | .arr _, kind => kind = "array"
  | .obj _, kind => kind = "object"

end Json

namespace Schema

inductive Assertion where
  | type
  | enum
  | minimum
  | maximum
  | required
  | items
  | properties
  | allOf
  | anyOf
  | oneOf
deriving DecidableEq, Repr

def Assertion.ofKey? (key : String) : Option Assertion :=
  [("type", .type), ("enum", .enum), ("minimum", .minimum), ("maximum", .maximum),
    ("required", .required), ("items", .items), ("properties", .properties), ("allOf", .allOf),
    ("anyOf", .anyOf), ("oneOf", .oneOf)].lookup key

def Assertion.holds : Assertion → Json → Json → Bool
  | .type, .str kind, value => value.hasKind kind
  | .type, .arr kinds, value => kinds.any fun kind => kind.text?.any value.hasKind
  | .enum, .arr listed, value => listed.any value.same
  | .minimum, .num bound, .num number => bound.toRat ≤ number.toRat
  | .maximum, .num bound, .num number => number.toRat ≤ bound.toRat
  | .required, .arr names, .obj members =>
    names.all fun name => name.text?.all fun name => (members.lookup name).isSome
  | _, _, _ => true

mutual

def admits : Schema → Json → Bool
  | .bool verdict, _ => verdict
  | .obj members, value => meetsAll members value
  | _, _ => true
termination_by structural schema => schema

def meetsAll : List (String × Json) → Json → Bool
  | [], _ => true
  | (key, constraint) :: rest, value =>
    (Assertion.ofKey? key).all (fun assertion => meets assertion constraint value) &&
      meetsAll rest value
termination_by structural members => members

def meets : Assertion → Json → Json → Bool
  | .items, .arr entries, .arr values => admitsPositions entries values
  | .items, .obj members, .arr values => values.all (meetsAll members)
  | .items, .bool verdict, .arr values => values.all fun _ => verdict
  | .properties, .obj properties, .obj members => admitsProperties properties members
  | .allOf, .arr branches, value => (verdicts branches value).all id
  | .anyOf, .arr branches, value => (verdicts branches value).any id
  | .oneOf, .arr branches, value => (verdicts branches value).count true = 1
  | assertion, constraint, value => assertion.holds constraint value
termination_by structural _ constraint => constraint

def verdicts : List Schema → Json → List Bool
  | [], _ => []
  | branch :: rest, value => admits branch value :: verdicts rest value
termination_by structural branches => branches

def admitsPositions : List Schema → List Json → Bool
  | entry :: entries, value :: values => admits entry value && admitsPositions entries values
  | _, _ => true
termination_by structural entries => entries

def admitsProperties : List (String × Schema) → List (String × Json) → Bool
  | [], _ => true
  | (name, property) :: rest, members =>
    (members.lookup name).all (admits property) && admitsProperties rest members
termination_by structural properties => properties

end

variable {value : Json}

theorem verdicts_eq_map (branches : List Schema) (value : Json) :
    verdicts branches value = branches.map fun branch => admits branch value := by
  induction branches with
  | nil => rw [verdicts, List.map_nil]
  | cons branch rest ih => rw [verdicts, ih, List.map_cons]

theorem meetsAll_iff {members : List (String × Json)} :
    meetsAll members value = true ↔ ∀ member ∈ members, ∀ assertion,
      Assertion.ofKey? member.1 = some assertion → meets assertion member.2 value = true := by
  induction members with
  | nil => simp [meetsAll]
  | cons member rest ih =>
    rw [meetsAll, Bool.and_eq_true, ih, List.forall_mem_cons, Option.all_eq_true]

theorem admitsPositions_iff {entries : List Schema} {values : List Json} :
    admitsPositions entries values = true ↔
      ∀ pair ∈ entries.zip values, admits pair.1 pair.2 = true := by
  induction entries generalizing values with
  | nil => simp [admitsPositions]
  | cons entry entries ih =>
    cases values with
    | nil => simp [admitsPositions]
    | cons value values =>
      rw [admitsPositions, Bool.and_eq_true, ih, List.zip_cons_cons, List.forall_mem_cons]

theorem admitsProperties_iff {properties members : List (String × Json)} :
    admitsProperties properties members = true ↔ ∀ property ∈ properties,
      ∀ value, members.lookup property.1 = some value → admits property.2 value = true := by
  induction properties with
  | nil => simp [admitsProperties]
  | cons property rest ih =>
    rw [admitsProperties, Bool.and_eq_true, ih, List.forall_mem_cons, Option.all_eq_true]

theorem admits_obj_iff {members : List (String × Json)} :
    admits (.obj members) value = true ↔ ∀ member ∈ members, ∀ assertion,
      Assertion.ofKey? member.1 = some assertion → meets assertion member.2 value = true := by
  rw [admits, meetsAll_iff]

theorem meets_positions_iff {entries : List Schema} : meets .items (.arr entries) value = true ↔
    ∀ values, value = .arr values → ∀ pair ∈ entries.zip values, admits pair.1 pair.2 = true := by
  cases value with
  | arr values => simp [meets, admitsPositions_iff]
  | null | bool | num | str | obj => simp [meets, Assertion.holds]

theorem meets_item_iff {entry : Schema} (ha : ∀ entries, entry ≠ .arr entries) :
    meets .items entry value = true ↔
      ∀ values, value = .arr values → ∀ item ∈ values, admits entry item = true := by
  cases value with
  | arr values => cases entry <;> simp_all [meets, admits, Assertion.holds]
  | null | bool | num | str | obj => simp [meets, Assertion.holds]

theorem meets_properties_iff {properties : List (String × Schema)} :
    meets .properties (.obj properties) value = true ↔ ∀ members, value = .obj members →
      ∀ property ∈ properties, ∀ part, members.lookup property.1 = some part →
        admits property.2 part = true := by
  cases value with
  | obj members => simp [meets, admitsProperties_iff]
  | null | bool | num | str | arr => simp [meets, Assertion.holds]

theorem meets_allOf_iff {branches : List Schema} : meets .allOf (.arr branches) value = true ↔
    ∀ branch ∈ branches, admits branch value = true := by
  simp [meets, verdicts_eq_map]

theorem meets_anyOf_iff {branches : List Schema} : meets .anyOf (.arr branches) value = true ↔
    ∃ branch ∈ branches, admits branch value = true := by
  simp [meets, verdicts_eq_map]

theorem meets_oneOf_iff {branches : List Schema} : meets .oneOf (.arr branches) value = true ↔
    branches.countP (fun branch => admits branch value) = 1 := by
  simp [meets, verdicts_eq_map, List.count_eq_countP, List.countP_map, Function.comp_def]

theorem meets_kind {kind : String} : meets .type (.str kind) value = value.hasKind kind := by
  cases value <;> rfl

theorem admits_primitive_iff {kind : PrimitiveKind} :
    admits (primitive kind) value = true ↔ value.hasKind kind.jsonType = true := by
  have ht : Assertion.ofKey? "type" = some .type := rfl
  rw [primitive, admits_obj_iff, List.forall_mem_singleton, ht]
  simp only [Option.some.injEq, forall_eq', meets_kind]

theorem admits_anyJson (value : Json) : admits anyJson value = true := by
  cases value <;> rfl

theorem admits_typed_iff {key kind : String} {constraint : Json} {assertion : Assertion}
    (hk : Assertion.ofKey? key = some assertion) :
    admits (.obj [(key, constraint), ("type", .str kind)]) value = true ↔
      meets assertion constraint value = true ∧ value.hasKind kind = true := by
  have ht : Assertion.ofKey? "type" = some .type := rfl
  rw [admits_obj_iff, List.forall_mem_cons, List.forall_mem_singleton, hk, ht]
  simp only [Option.some.injEq, forall_eq', meets_kind]

theorem admits_arrayOf_iff {items : Schema} {values : List Json}
    (ha : ∀ entries, items ≠ .arr entries) :
    admits (arrayOf items) (.arr values) = true ↔ ∀ item ∈ values, admits items item = true := by
  rw [arrayOf, admits_typed_iff rfl, meets_item_iff ha]
  simp [Json.hasKind]

theorem admits_tupleOf_iff {items : List Schema} {values : List Json} :
    admits (tupleOf items) (.arr values) = true ↔
      ∀ pair ∈ items.zip values, admits pair.1 pair.2 = true := by
  rw [tupleOf, admits_typed_iff rfl, meets_positions_iff]
  simp [Json.hasKind]

theorem admits_anyOf_iff {branches : List Schema} :
    admits (anyOf branches) value = true ↔
      (∃ branch ∈ branches, admits branch value = true) ∧ ∃ members, value = .obj members := by
  rw [anyOf, admits_typed_iff rfl, meets_anyOf_iff]
  cases value <;> simp [Json.hasKind]

end Schema

end NaturalFunctions
