import AccessTree.Binary64.Shortest

/-! # Decimal text with a fixed number of places

A magnitude is written with a given number of digits after the point, or with an exponent and a
given number of digits after the first one, rounded from its exact value, a tie to the even digit.
`general` chooses between the two by the size of the magnitude. -/

namespace AccessTree.Binary64

/-- The magnitude `m · 2 ^ e` units times `10 ^ k`, rounded to a natural number. -/
def scaledMagnitude (m e : Nat) (k : Int) : Nat :=
  match k with
  | .ofNat k => roundQuotient (m <<< e * tenTo k) one
  | .negSucc k => roundQuotient (m <<< e) (one * tenTo (k + 1))

/-- Digits with a point before the last `places` of them. -/
def pointed (places : Nat) (n : Nat) (keepPoint : Bool) : List Char :=
  let ds := Text.natChars n
  let ds := List.replicate (places + 1 - ds.length) '0' ++ ds
  let fraction := ds.drop (ds.length - places)
  ds.take (ds.length - places) ++ (if fraction = [] ∧ ¬keepPoint then [] else '.' :: fraction)

/-- A magnitude with a number of places. -/
def fixedChars (places m e : Nat) (keepPoint : Bool) : List Char :=
  pointed places (scaledMagnitude m e places) keepPoint

/-- The `places + 1` leading digits of a magnitude and the exponent of the first one. -/
def leading (places m e : Nat) : Nat × Int :=
  if m = 0 then (0, 0)
  else
    let decade := (interval m e).decade
    let n := scaledMagnitude m e (places - decade)
    if n = tenTo (places + 1) then (tenTo places, decade + 1) else (n, decade)

/-- A magnitude with an exponent. -/
def scientificChars (places m e : Nat) (keepPoint : Bool) : List Char :=
  let (n, exponent) := leading places m e
  pointed places n keepPoint ++ exponentChars exponent

/-- Digits without the zeros at the end of the fraction, and without a point that ends them. -/
def withoutFractionZeros (cs : List Char) : List Char :=
  if cs.contains '.' then
    let cs := (cs.reverse.dropWhile (· = '0')).reverse
    if cs.getLast? = some '.' then cs.dropLast else cs
  else cs

/-- A magnitude with so many significant digits, with an exponent if that is below `-4` or as great
as the number of digits. -/
def generalChars (digits m e : Nat) (keepPoint : Bool) : List Char :=
  let digits := max digits 1
  let (n, exponent) := leading (digits - 1) m e
  if -4 ≤ exponent ∧ exponent < digits then
    let cs := fixedChars (digits - 1 - exponent).toNat m e keepPoint
    if keepPoint then cs else withoutFractionZeros cs
  else
    let cs := pointed (digits - 1) n keepPoint
    (if keepPoint then cs else withoutFractionZeros cs) ++ exponentChars exponent

end AccessTree.Binary64
