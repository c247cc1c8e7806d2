import NaturalFunctions.Json.Basic

namespace NaturalFunctions.Json

def isBlank (c : Char) : Bool := c = ' ' || c = '\t' || c = '\n' || c = '\r'

def skipBlank (cs : List Char) : List Char := cs.dropWhile isBlank

def unexpected : List Char → ReadFault
  | [] => .truncated
  | _ :: _ => .malformed

def word : List Char → Json → List Char → Except ReadFault (Json × List Char)
  | [], tree, cs => .ok (tree, cs)
  | _ :: _, _, [] => .error .truncated
  | w :: ws, tree, c :: cs => if w = c then word ws tree cs else .error .malformed

def hexDigit? (c : Char) : Option Nat :=
  if '0' ≤ c ∧ c ≤ '9' then some (c.toNat - 48)
  else if 'a' ≤ c ∧ c ≤ 'f' then some (c.toNat - 87)
  else if 'A' ≤ c ∧ c ≤ 'F' then some (c.toNat - 55)
  else none

def codeUnit : List Char → Except ReadFault (Nat × List Char)
  | a :: b :: c :: d :: rest =>
    match hexDigit? a, hexDigit? b, hexDigit? c, hexDigit? d with
    | some a, some b, some c, some d => .ok (((a * 16 + b) * 16 + c) * 16 + d, rest)
    | _, _, _, _ => .error .malformed
  | cs => .error (if (String.ofList cs).utf8ByteSize < 4 then .truncated else .malformed)

def isLowSurrogate (unit : Nat) : Bool := 0xDC00 ≤ unit && unit ≤ 0xDFFF

def isHighSurrogate (unit : Nat) : Bool := 0xD800 ≤ unit && unit ≤ 0xDBFF

def lowSurrogate : List Char → Except ReadFault (Nat × List Char)
  | '\\' :: 'u' :: rest => do
    let (unit, rest) ← codeUnit rest
    if isLowSurrogate unit then return (unit, rest) else throw .malformed
  | ['\\'] => .error .truncated
  | cs => .error (unexpected cs)

def codePoint (cs : List Char) : Except ReadFault (Char × List Char) := do
  let (unit, rest) ← codeUnit cs
  if isLowSurrogate unit then throw .malformed
  else if isHighSurrogate unit then
    let (low, rest) ← lowSurrogate rest
    return (Char.ofNat (0x10000 + (unit - 0xD800) * 0x400 + (low - 0xDC00)), rest)
  else return (Char.ofNat unit, rest)

def escaped : List Char → Except ReadFault (Char × List Char)
  | '"' :: rest => .ok ('"', rest)
  | '\\' :: rest => .ok ('\\', rest)
  | '/' :: rest => .ok ('/', rest)
  | 'b' :: rest => .ok ('\x08', rest)
  | 'f' :: rest => .ok ('\x0c', rest)
  | 'n' :: rest => .ok ('\n', rest)
  | 'r' :: rest => .ok ('\r', rest)
  | 't' :: rest => .ok ('\t', rest)
  | 'u' :: rest => codePoint rest
  | cs => .error (unexpected cs)

theorem length_of_codeUnit {cs rest : List Char} {unit : Nat}
    (h : codeUnit cs = .ok (unit, rest)) : rest.length < cs.length := by
  unfold codeUnit at h
  split at h
  · split at h
    · injection h with h
      injection h with _ h
      subst h
      simp only [List.length_cons]
      omega
    · cases h
  · cases h

theorem length_of_lowSurrogate {cs rest : List Char} {unit : Nat}
    (h : lowSurrogate cs = .ok (unit, rest)) : rest.length < cs.length := by
  unfold lowSurrogate at h
  split at h
  · rename_i tail
    cases hu : codeUnit tail with
    | error e => simp [hu, bind, Except.bind] at h
    | ok p =>
      have hl := length_of_codeUnit hu
      simp only [hu, bind, Except.bind] at h
      split at h
      · injection h with h
        injection h with _ h
        subst h
        simp only [List.length_cons]
        omega
      · cases h
  · cases h
  · cases h

theorem length_of_codePoint {cs rest : List Char} {c : Char}
    (h : codePoint cs = .ok (c, rest)) : rest.length < cs.length := by
  unfold codePoint at h
  cases hu : codeUnit cs with
  | error e => simp [hu, bind, Except.bind] at h
  | ok p =>
    have hl := length_of_codeUnit hu
    simp only [hu, bind, Except.bind] at h
    split at h
    · cases h
    · split at h
      · cases hs : lowSurrogate p.2 with
        | error e => simp [hs] at h
        | ok q =>
          have hq := length_of_lowSurrogate hs
          simp only [hs] at h
          injection h with h
          injection h with _ h
          subst h
          omega
      · injection h with h
        injection h with _ h
        subst h
        exact hl

theorem length_of_escaped {cs rest : List Char} {c : Char}
    (h : escaped cs = .ok (c, rest)) : rest.length < cs.length := by
  unfold escaped at h
  split at h
  case h_9 =>
    have hl := length_of_codePoint h
    simp only [List.length_cons]
    omega
  case h_10 => cases h
  all_goals
    injection h with h
    injection h with _ h
    subst h
    simp

def stringBody (cs : List Char) : Except ReadFault (List Char × List Char) :=
  match cs with
  | [] => .error .truncated
  | c :: rest =>
    if c = '"' then .ok ([], rest)
    else if c = '\\' then
      match h : escaped rest with
      | .error fault => .error fault
      | .ok (c, tail) =>
        have := length_of_escaped h
        (stringBody tail).map fun (text, left) => (c :: text, left)
    else if c.toNat < 0x20 then .error .malformed
    else (stringBody rest).map fun (text, left) => (c :: text, left)
termination_by cs.length
decreasing_by all_goals simp only [List.length_cons]; omega

def digitValue (c : Char) : Nat := c.toNat - 48

def ofDigits (digits : List Char) : Nat :=
  digits.foldl (fun n c => 10 * n + digitValue c) 0

def keep (kept : Nat) : List Char → Nat × List Char
  | [] => (kept, [])
  | d :: ds =>
    if 10 * kept + digitValue d < Nat.pow 2 64 then keep (10 * kept + digitValue d) ds
    else (kept, d :: ds)

def ofLiteral? (negative : Bool) (whole : List Char) (fraction : Option (List Char))
    (exponent : Option Int) : Option Number :=
  let (significand, left) := keep 0 whole
  match fraction, exponent, left with
  | none, none, [] =>
    if negative = false then some (.int significand)
    else if 0 < significand ∧ significand ≤ Nat.pow 2 63 then some (.int (-(significand : Int)))
    else (Double.ofDecimal? true significand 0).map .float
  | _, _, _ =>
    let fraction := fraction.getD []
    let (significand, dropped) := keep significand fraction
    let scale : Int := (left.length : Int) - (fraction.length - dropped.length : Nat)
    (Double.ofDecimal? negative significand (scale + exponent.getD 0)).map .float

def digits (cs : List Char) : Except ReadFault (List Char × List Char) :=
  match cs.span Char.isDigit with
  | ([], rest) => .error (unexpected rest)
  | (found, rest) => .ok (found, rest)

def fraction : List Char → Except ReadFault (Option (List Char) × List Char)
  | '.' :: rest => do
    let (found, rest) ← digits rest
    return (some found, rest)
  | cs => .ok (none, cs)

def exponentDigits : List Char → Except ReadFault (Int × List Char)
  | '+' :: rest => do
    let (found, rest) ← digits rest
    return ((ofDigits found : Int), rest)
  | '-' :: rest => do
    let (found, rest) ← digits rest
    return (-(ofDigits found : Int), rest)
  | cs => do
    let (found, rest) ← digits cs
    return ((ofDigits found : Int), rest)

def exponent : List Char → Except ReadFault (Option Int × List Char)
  | c :: rest =>
    if c = 'e' ∨ c = 'E' then do
      let (value, rest) ← exponentDigits rest
      return (some value, rest)
    else .ok (none, c :: rest)
  | [] => .ok (none, [])

def number (negative : Bool) (cs : List Char) : Except ReadFault (Json × List Char) := do
  let (whole, rest) ← digits cs
  if whole.head? = some '0' ∧ whole.length ≠ 1 then throw .malformed
  let (fraction, rest) ← fraction rest
  let (exponent, rest) ← exponent rest
  match ofLiteral? negative whole fraction exponent with
  | some value => return (.num value, rest)
  | none => throw .malformed

def elements (item : List Char → Except ReadFault (Json × List Char)) :
    Nat → List Char → Except ReadFault (List Json × List Char)
  | 0, _ => .error .truncated
  | fuel + 1, cs => do
    let (first, rest) ← item cs
    match skipBlank rest with
    | ']' :: rest => return ([first], rest)
    | ',' :: rest =>
      let (others, rest) ← elements item fuel rest
      return (first :: others, rest)
    | rest => throw (unexpected rest)

def key (cs : List Char) : Except ReadFault (String × List Char) :=
  match skipBlank cs with
  | '"' :: rest => do
    let (name, rest) ← stringBody rest
    match skipBlank rest with
    | ':' :: rest => return (String.ofList name, rest)
    | rest => throw (unexpected rest)
  | rest => .error (unexpected rest)

def members (item : List Char → Except ReadFault (Json × List Char)) :
    Nat → List Char → Except ReadFault (List (String × Json) × List Char)
  | 0, _ => .error .truncated
  | fuel + 1, cs => do
    let (name, rest) ← key cs
    let (first, rest) ← item rest
    match skipBlank rest with
    | '}' :: rest => return ([(name, first)], rest)
    | ',' :: rest =>
      let (others, rest) ← members item fuel rest
      return ((name, first) :: others, rest)
    | rest => throw (unexpected rest)

/-- A tree of at most `depth` nested lists and objects. The loops have one unit of fuel for each
character left, so they run out of it only where the text ends. -/
def value (depth : Nat) (cs : List Char) : Except ReadFault (Json × List Char) :=
  match skipBlank cs with
  | 'n' :: rest => word ['u', 'l', 'l'] .null rest
  | 't' :: rest => word ['r', 'u', 'e'] (.bool true) rest
  | 'f' :: rest => word ['a', 'l', 's', 'e'] (.bool false) rest
  | '"' :: rest => (stringBody rest).map fun (text, rest) => (.str (String.ofList text), rest)
  | '-' :: rest => number true rest
  | '[' :: rest =>
    match depth with
    | 0 => .error .malformed
    | depth + 1 =>
      match skipBlank rest with
      | ']' :: rest => .ok (.arr [], rest)
      | rest => (elements (value depth) rest.length rest).map fun (items, rest) => (.arr items, rest)
  | '{' :: rest =>
    match depth with
    | 0 => .error .malformed
    | depth + 1 =>
      match skipBlank rest with
      | '}' :: rest => .ok (.obj [], rest)
      | rest => (members (value depth) rest.length rest).map fun (found, rest) => (object found, rest)
  | cs => if (cs.head?.map Char.isDigit).getD false then number false cs else .error (unexpected cs)

def parse (depth : Nat) (cs : List Char) : Except ReadFault Json := do
  let (tree, rest) ← value depth cs
  if (skipBlank rest).isEmpty then return tree else throw .malformed

def maxDepth : Nat := 127

def ofText (text : String) : Except ReadFault Json := parse maxDepth text.toList

end NaturalFunctions.Json
