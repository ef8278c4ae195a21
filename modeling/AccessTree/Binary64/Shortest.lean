import AccessTree.Binary64.Basic

/-! # Shortest decimal text

The decimal text of a number has the fewest significant digits that round back to it, and among
those the nearest decimal, a tie going to the even digit. On the grid of decimals with `n` digits
only the two neighbours of the number can be nearest, so `shortest` tries the neighbours on ever
finer grids and takes the first that lies in the rounding interval, the decimals that round to the
number. Seventeen digits always suffice.

Lengths are compared as natural numbers in quarters of a unit. `layout` writes the digits: with a
point if the decimal exponent is above `-5` and below `16`, with an exponent otherwise. -/

namespace AccessTree.Binary64

/-- The decimals that round to a magnitude, in quarters of a unit. -/
structure Interval where
  /-- The least decimal. -/
  lower : Nat
  /-- The magnitude itself. -/
  centre : Nat
  /-- The greatest decimal. -/
  upper : Nat
  /-- Whether the two ends round to the magnitude as well. -/
  closed : Bool

/-- The decimals that round to `m · 2 ^ e` units. Below a power of two the next number is nearer. -/
def interval (m e : Nat) : Interval where
  lower := 4 * m <<< e - (if m = 1 <<< 52 ∧ e ≠ 0 then 1 <<< e else 2 <<< e)
  centre := 4 * m <<< e
  upper := 4 * m <<< e + 2 <<< e
  closed := m % 2 = 0

/-- One, in quarters of a unit. -/
def oneInQuarters : Nat := 4 * one

/-- `d · 10 ^ k` and the length `quarters` of quarters, both times one same power of ten that makes
them whole. -/
def scaled (d : Nat) (k : Int) (quarters : Nat) : Nat × Nat :=
  match k with
  | .ofNat k => (d * tenTo k * oneInQuarters, quarters)
  | .negSucc k => (d * oneInQuarters, quarters * tenTo (k + 1))

/-- Whether `d · 10 ^ k` lies in an interval. -/
def Interval.holds (i : Interval) (d : Nat) (k : Int) : Bool :=
  let (x, lower) := scaled d k i.lower
  let (_, upper) := scaled d k i.upper
  if i.closed then lower ≤ x && x ≤ upper else lower < x && x < upper

/-- The greatest `d` with `d · 10 ^ k` at most the centre. -/
def Interval.below (i : Interval) (k : Int) : Nat :=
  let (step, centre) := scaled 1 k i.centre
  centre / step

/-- The nearest multiple of `10 ^ k` in the interval, if there is one. -/
def Interval.nearest? (i : Interval) (k : Int) : Option Nat :=
  let d := i.below k
  let (step, centre) := scaled 1 k i.centre
  match i.holds d k, i.holds (d + 1) k with
  | true, true => some (roundQuotient centre step)
  | true, false => some d
  | false, true => some (d + 1)
  | false, false => none

/-- The exponent of the first digit of the centre: the greatest `k` with `10 ^ k` at most it. For a
centre below one, `10 ^ -j` is at most it when `10 ^ j` is above the quotient of the last line. -/
def Interval.decade (i : Interval) : Int :=
  if oneInQuarters ≤ i.centre then (Text.natChars (i.centre / oneInQuarters)).length - 1
  else -((Text.natChars ((oneInQuarters - 1) / i.centre)).length : Int)

/-- The fewest digits `d` and the exponent `k` such that `d · 10 ^ k` is in the interval. -/
def Interval.shortest (i : Interval) : Nat × Int :=
  let grids : List Int := (List.range 17).map fun (n : Nat) => i.decade - n
  (grids.findSome? fun k => (i.nearest? k).map (·, k)).getD (i.below i.decade, i.decade)

/-! ### Writing the digits -/

/-- Digits without the zeros at the end. -/
def withoutTrailingZeros (ds : List Char) : List Char :=
  (ds.reverse.dropWhile (· = '0')).reverse

/-- An exponent with its sign and at least two digits. -/
def exponentChars (e : Int) : List Char :=
  let ds := Text.natChars e.natAbs
  'e' :: (if e < 0 then '-' else '+') :: (List.replicate (2 - ds.length) '0' ++ ds)

/-- Digits `ds`, the first of which stands for `10 ^ e`, written with a point or an exponent. -/
def layout (ds : List Char) (e : Int) : List Char :=
  if -5 < e ∧ e < 0 then
    '0' :: '.' :: (List.replicate (e.natAbs - 1) '0' ++ ds)
  else if 0 ≤ e ∧ e < 16 then
    let n := e.natAbs + 1
    let whole := ds.take n ++ List.replicate (n - ds.length) '0'
    let fraction := ds.drop n
    whole ++ '.' :: (if fraction = [] then ['0'] else fraction)
  else
    match ds with
    | [d] => d :: exponentChars e
    | ds => ds.take 1 ++ '.' :: ds.drop 1 ++ exponentChars e

/-- Decimal text of a finite magnitude. -/
def magnitudeChars (m e : Nat) : List Char :=
  if m = 0 then ['0', '.', '0']
  else
    let (d, k) := (interval m e).shortest
    let ds := Text.natChars d
    layout (withoutTrailingZeros ds) (k + ds.length - 1)

/-- How `nan` and the infinities are spelled, which differs between formats. -/
structure Spelling where
  nan : String
  infinity : String

/-- Decimal text of a number. -/
def chars (spelling : Spelling) : Binary64 → List Char
  | .nan => spelling.nan.toList
  | .infinite negative => (if negative then ['-'] else []) ++ spelling.infinity.toList
  | .finite negative m e _ => (if negative then ['-'] else []) ++ magnitudeChars m e

end AccessTree.Binary64
