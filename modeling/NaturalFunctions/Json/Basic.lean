import NaturalFunctions.Json.Double
import NaturalFunctions.Table

namespace NaturalFunctions

inductive Number where
  | int (value : Int)
  | float (value : Double)
deriving DecidableEq, Repr

/-- JSON trees. A tree that was read or looked up has the members of each object sorted by key, one
member for a key; a tree that is written as a record keeps the order of the record's fields. -/
inductive Json where
  | null
  | bool (value : Bool)
  | num (value : Number)
  | str (text : String)
  | arr (items : List Json)
  | obj (members : List (String × Json))
deriving Repr

inductive ReadFault where
  | truncated
  | malformed
  | unsuited
deriving DecidableEq, Repr

namespace Json

instance : Inhabited Json := ⟨.null⟩

mutual

def decEq : (a b : Json) → Decidable (a = b)
  | .null, b => match b with
    | .null => isTrue rfl
    | .bool _ | .num _ | .str _ | .arr _ | .obj _ => isFalse (by simp)
  | .bool x, b => match b with
    | .bool y => decidable_of_iff (x = y) (by simp)
    | .null | .num _ | .str _ | .arr _ | .obj _ => isFalse (by simp)
  | .num x, b => match b with
    | .num y => decidable_of_iff (x = y) (by simp)
    | .null | .bool _ | .str _ | .arr _ | .obj _ => isFalse (by simp)
  | .str x, b => match b with
    | .str y => decidable_of_iff (x = y) (by simp)
    | .null | .bool _ | .num _ | .arr _ | .obj _ => isFalse (by simp)
  | .arr xs, b => match b with
    | .arr ys => match itemsDecEq xs ys with
      | isTrue h => isTrue (by rw [h])
      | isFalse h => isFalse (by simpa using h)
    | .null | .bool _ | .num _ | .str _ | .obj _ => isFalse (by simp)
  | .obj xs, b => match b with
    | .obj ys => match membersDecEq xs ys with
      | isTrue h => isTrue (by rw [h])
      | isFalse h => isFalse (by simpa using h)
    | .null | .bool _ | .num _ | .str _ | .arr _ => isFalse (by simp)

def itemsDecEq : (xs ys : List Json) → Decidable (xs = ys)
  | [], [] => isTrue rfl
  | [], _ :: _ => isFalse (by simp)
  | _ :: _, [] => isFalse (by simp)
  | x :: xs, y :: ys => match decEq x y, itemsDecEq xs ys with
    | isTrue hx, isTrue hs => isTrue (by rw [hx, hs])
    | isFalse hx, _ => isFalse (by simp [hx])
    | _, isFalse hs => isFalse (by simp [hs])

def membersDecEq : (xs ys : List (String × Json)) → Decidable (xs = ys)
  | [], [] => isTrue rfl
  | [], _ :: _ => isFalse (by simp)
  | _ :: _, [] => isFalse (by simp)
  | (k, x) :: xs, (l, y) :: ys =>
    if hk : k = l then match decEq x y, membersDecEq xs ys with
      | isTrue hx, isTrue hs => isTrue (by rw [hk, hx, hs])
      | isFalse hx, _ => isFalse (by simp [hx])
      | _, isFalse hs => isFalse (by simp [hs])
    else isFalse (by simp [hk])

end

instance : DecidableEq Json := decEq

def object (members : List (String × Json)) : Json := .obj (Table.ofList members)

def ofNat (n : Nat) : Json := .num (.int n)

def ofStrings (texts : List String) : Json := .arr (texts.map .str)

def get? (key : String) : Json → Option Json
  | .obj members => members.lookup key
  | _ => none

def text? : Json → Option String
  | .str text => some text
  | _ => none

def caseName? : Json → Option String
  | .str name => some name
  | .obj [(name, .null)] => some name
  | _ => none

end Json

end NaturalFunctions
