import AccessTree.Text.Numeral

/-! # Binary floating point numbers of 64 bits

A `Binary64` is not a number, an infinity, or a sign with a magnitude. Every finite magnitude is a
whole number of units of `2 ^ -1074`, so it is kept as a mantissa and an exponent that count units:
`m · 2 ^ e` units, which is `m` shifted by `e` bits. `Canonical` makes the pair unique, so that two
finite numbers are equal exactly when their signs and magnitudes are; the two zeros differ.
`ofRatio` and `ofDecimal` round an exact rational to the nearest number, and a tie to the even
mantissa. -/

namespace AccessTree

/-- The exponent of the unit that all finite magnitudes are counted in is `-unitExponent`. -/
def unitExponent : Nat := 1074

namespace Binary64

/-- Mantissas and exponents in normal form: 53 bits, with the leading bit set unless the exponent
is the least one. -/
def Canonical (m e : Nat) : Prop := m < 1 <<< 53 ∧ e ≤ 2045 ∧ (e = 0 ∨ 1 <<< 52 ≤ m)

instance (m e : Nat) : Decidable (Canonical m e) := by unfold Canonical; infer_instance

end Binary64

/-- **A number in the binary format of 64 bits.** -/
inductive Binary64 where
  | nan
  | infinite (negative : Bool)
  /-- The magnitude is `mantissa · 2 ^ exponent` units. -/
  | finite (negative : Bool) (mantissa exponent : Nat)
      (canonical : Binary64.Canonical mantissa exponent)
  deriving DecidableEq

namespace Binary64

/-- The zero of a sign. -/
def zero (negative : Bool) : Binary64 := .finite negative 0 0 (by decide)

instance : Inhabited Binary64 := ⟨zero false⟩

/-- One, in units. -/
def one : Nat := 1 <<< unitExponent

/-- A power of ten. -/
def tenTo (k : Nat) : Nat := Nat.pow 10 k

/-- Neither an infinity nor `nan`. -/
def isFinite : Binary64 → Bool
  | .finite .. => true
  | _ => false

/-! ### Whole numbers -/

/-- The integer that a number is equal to, if there is one. -/
def toInt? : Binary64 → Option Int
  | .finite negative m e _ =>
    if m <<< e % one = 0 then some (Text.signed negative (m <<< e / one)) else none
  | _ => none

/-! ### Rounding -/

/-- The quotient `n / d` rounded to the nearest natural number, a tie to the even one. -/
def roundQuotient (n d : Nat) : Nat :=
  let q := n / d
  let r := n % d
  if 2 * r < d then q else if d < 2 * r then q + 1 else q + q % 2

/-- The number with mantissa `m` and exponent `e`, where `m` may have been rounded up to the next
power of two; an infinity if it is out of range. -/
def ofMantissa (negative : Bool) (m e : Nat) : Binary64 :=
  let m' := if m = 1 <<< 53 then 1 <<< 52 else m
  let e' := if m = 1 <<< 53 then e + 1 else e
  if h : Canonical m' e' then .finite negative m' e' h else .infinite negative

/-- The number nearest to `n / d`. -/
def ofRatio (negative : Bool) (n d : Nat) : Binary64 :=
  let units := n * one
  let e := (units / d).log2 - 52
  ofMantissa negative (roundQuotient units (d <<< e)) e

/-- The number nearest to `n · 10 ^ k`. Powers that put it far out of range are not formed. -/
def ofDecimal (negative : Bool) (n : Nat) (k : Int) : Binary64 :=
  let decade := (Text.natChars n).length + k
  if n = 0 || decade < -330 then zero negative
  else if 330 < decade then .infinite negative
  else match k with
    | .ofNat k => ofRatio negative (n * tenTo k) 1
    | .negSucc k => ofRatio negative n (tenTo (k + 1))

end Binary64

end AccessTree
