namespace NaturalFunctions

/-- The number `± significand * 2 ^ exponent`. The significand is below `2 ^ 53` and at least
`2 ^ 52` unless the exponent is `-1074`, so each finite double is written in one way. -/
structure Double where
  negative : Bool
  significand : Nat
  exponent : Int
deriving DecidableEq, Repr

namespace Double

def zero (negative : Bool) : Double := ⟨negative, 0, -1074⟩

def ratio (x : Double) : Nat × Nat :=
  (x.significand * Nat.pow 2 x.exponent.toNat, Nat.pow 2 (-x.exponent).toNat)

def roundHalfEven (num den : Nat) : Nat :=
  let q := num / den
  let r := num % den
  if den < 2 * r ∨ (den = 2 * r ∧ q % 2 = 1) then q + 1 else q

def log2Ratio (num den : Nat) : Int :=
  let guess : Int := (num.log2 : Int) - den.log2
  if den * Nat.pow 2 guess.toNat ≤ num * Nat.pow 2 (-guess).toNat then guess else guess - 1

def nearest? (negative : Bool) (num den : Nat) : Option Double :=
  if num = 0 then some (zero negative) else
    let exponent := max (-1074) (log2Ratio num den - 52)
    let significand := roundHalfEven (num * Nat.pow 2 (-exponent).toNat) (den * Nat.pow 2 exponent.toNat)
    let (significand, exponent) :=
      if significand = Nat.pow 2 53 then (Nat.pow 2 52, exponent + 1) else (significand, exponent)
    if exponent ≤ 971 then some ⟨negative, significand, exponent⟩ else none

def ofInt (value : Int) : Double :=
  (nearest? (value < 0) value.natAbs 1).getD (zero (value < 0))

def powerOfTen (k : Nat) : Double := (nearest? false (Nat.pow 10 k) 1).getD (zero false)

def times? (x y : Double) : Option Double :=
  nearest? (x.negative != y.negative) (x.ratio.1 * y.ratio.1) (x.ratio.2 * y.ratio.2)

def dividedBy (x y : Double) : Double :=
  (nearest? (x.negative != y.negative) (x.ratio.1 * y.ratio.2) (x.ratio.2 * y.ratio.1)).getD
    (zero (x.negative != y.negative))

def scaleDown (x : Double) (k : Nat) : Double :=
  if k ≤ 308 then x.dividedBy (powerOfTen k)
  else if x.significand = 0 then x
  else (x.dividedBy (powerOfTen 308)).scaleDown (k - 308)
termination_by k

/-- `significand * 10 ^ exponent` in double arithmetic: the significand is rounded first and scaled
after that. `none` past the largest double. -/
def ofDecimal? (negative : Bool) (significand : Nat) (exponent : Int) : Option Double :=
  match nearest? negative significand 1 with
  | none => none
  | some x =>
    if exponent < 0 then some (x.scaleDown exponent.natAbs)
    else if exponent ≤ 308 then x.times? (powerOfTen exponent.toNat)
    else if x.significand = 0 then some x
    else none

end Double

end NaturalFunctions
