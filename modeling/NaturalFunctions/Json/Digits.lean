import NaturalFunctions.Json.Double

/-!
The shortest decimal text of a finite double: the fewest digits that read back as the same double,
of those the nearest, an exact tie to the even last digit.
-/

namespace NaturalFunctions.Double

def decimalLength (n : Nat) : Nat := (Nat.toDigits 10 n).length

def log10Ratio (num den : Nat) : Int :=
  if den ≤ num then (decimalLength (num / den) : Int) - 1
  else -(decimalLength ((den - 1) / num) : Int)

structure Neighbourhood where
  low : Nat
  value : Nat
  high : Nat
  den : Nat
  closed : Bool

def neighbourhood (x : Double) : Neighbourhood :=
  let unit := Nat.pow 2 x.exponent.toNat
  let below := if x.significand = Nat.pow 2 52 ∧ -1074 < x.exponent then unit else 2 * unit
  let value := 4 * x.significand * unit
  { low := value - below
    value := value
    high := value + 2 * unit
    den := 4 * Nat.pow 2 (-x.exponent).toNat
    closed := x.significand % 2 = 0 }

def Neighbourhood.holds (n : Neighbourhood) (num den : Nat) : Bool :=
  if n.closed then n.low * den ≤ num * n.den && num * n.den ≤ n.high * den
  else n.low * den < num * n.den && num * n.den < n.high * den

def Neighbourhood.onGrid? (n : Neighbourhood) (grid : Int) : Option Nat :=
  let up := Nat.pow 10 grid.toNat
  let down := Nat.pow 10 (-grid).toNat
  let floor := n.value * down / (n.den * up)
  let rest := n.value * down % (n.den * up)
  match n.holds (floor * up) down, n.holds ((floor + 1) * up) down with
  | true, true =>
    if 2 * rest < n.den * up ∨ (2 * rest = n.den * up ∧ floor % 2 = 0) then some floor
    else some (floor + 1)
  | true, false => some floor
  | false, true => some (floor + 1)
  | false, false => none

def shortest (x : Double) : Nat × Int :=
  let n := x.neighbourhood
  let top := log10Ratio n.value n.den
  ((List.range 17).findSome? fun (extra : Nat) =>
    (n.onGrid? (top - extra)).map fun digits => (digits, top - (extra : Int))).getD (0, 0)

def digitChars (n : Nat) : List Char := Nat.toDigits 10 n

def trimZeros (digits : List Char) : List Char :=
  (digits.reverse.dropWhile (· == '0')).reverse

def layout (digits : List Char) (exponent : Int) : List Char :=
  if -5 ≤ exponent ∧ exponent < 0 then
    '0' :: '.' :: List.replicate (exponent.natAbs - 1) '0' ++ digits
  else if 0 ≤ exponent ∧ exponent < 16 then
    let whole := exponent.toNat + 1
    if digits.length ≤ whole then
      digits ++ List.replicate (whole - digits.length) '0' ++ ['.', '0']
    else digits.take whole ++ '.' :: digits.drop whole
  else
    let fraction := if digits.length ≤ 1 then [] else '.' :: digits.drop 1
    let sign := if exponent < 0 then '-' else '+'
    digits.take 1 ++ fraction ++ 'e' :: sign :: digitChars exponent.natAbs

def chars (x : Double) : List Char :=
  let magnitude :=
    if x.significand = 0 then ['0', '.', '0']
    else
      let (significand, grid) := x.shortest
      let digits := digitChars significand
      layout (trimZeros digits) (grid + digits.length - 1)
  if x.negative then '-' :: magnitude else magnitude

end NaturalFunctions.Double
