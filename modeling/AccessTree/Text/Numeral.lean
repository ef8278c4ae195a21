import AccessTree.Text.Blank
import AccessTree.Text.Digit

/-! # Numerals

An integer literal is, between blanks, an optional sign and one or more ASCII digits. A numbered
name is a stem followed by digits of any script, as in the slot ids `param_0` and `condition-12`.
Either numeral may have at most `maxDigits` digits, leading zeros counted; a longer one is a
`NumeralFault`, and so is an integer whose decimal text would be longer. -/

namespace AccessTree

/-- Why a numeral and an integer cannot be converted into each other. -/
inductive NumeralFault where
  /-- The numeral to read has more than `maxDigits` digits. -/
  | tooLongToRead (digits : Nat)
  /-- The integer to write has more than `maxDigits` digits. -/
  | tooLongToWrite
  deriving DecidableEq, Repr

namespace Text

/-- The most digits that a numeral may have. -/
def maxDigits : Nat := 4300

/-- Characters of the decimal text of a natural number. -/
def natChars (n : Nat) : List Char := Nat.toDigits 10 n

/-- Characters of the decimal text of an integer. -/
def intChars : Int → List Char
  | .ofNat n => natChars n
  | .negSucc n => '-' :: natChars (n + 1)

/-- Decimal text of an integer. -/
def ofInt (n : Int) : String := String.ofList (intChars n)

/-- Decimal text of a natural number. -/
def ofNat (n : Nat) : String := String.ofList (natChars n)

/-- Lower case hexadecimal text of at least `width` digits. -/
def hexChars (width n : Nat) : List Char :=
  let ds := Nat.toDigits 16 n
  List.replicate (width - ds.length) '0' ++ ds

/-- The number spelled by digit values, unless there are too many of them. -/
def readDigits (ds : List Nat) : Except NumeralFault Nat :=
  if maxDigits < ds.length then .error (.tooLongToRead ds.length) else .ok (ofDigits ds)

/-- Decimal text of an integer, unless it is too long. -/
def writeInt (n : Int) : Except NumeralFault String :=
  if maxDigits < (natChars n.natAbs).length then .error .tooLongToWrite else .ok (ofInt n)

/-! ### Integer literals -/

/-- The values of one or more ASCII digits, if the characters are that. -/
def unsigned? : List Char → Option (List Nat)
  | [] => none
  | cs => cs.mapM asciiDigit?

/-- Splits an integer literal into its sign (`true` for minus) and the values of its digits. -/
def integerLiteral? (s : String) : Option (Bool × List Nat) :=
  match trimChars s.toList with
  | '-' :: cs => (unsigned? cs).map (true, ·)
  | '+' :: cs => (unsigned? cs).map (false, ·)
  | cs => (unsigned? cs).map (false, ·)

/-- An integer from its sign and its magnitude. -/
def signed (negative : Bool) (n : Nat) : Int := if negative then -(n : Int) else (n : Int)

/-- The integer that a text spells, or `none` for a text that is no integer literal. -/
def readInteger (s : String) : Except NumeralFault (Option Int) :=
  match integerLiteral? s with
  | none => .ok none
  | some (negative, ds) => (readDigits ds).map fun n => some (signed negative n)

/-! ### Numbered names -/

/-- What follows `stem` in `cs`, if `cs` starts with it. -/
def afterStem? : List Char → List Char → Option (List Char)
  | [], cs => some cs
  | _ :: _, [] => none
  | s :: stem, c :: cs => if s = c then afterStem? stem cs else none

/-- The values of one or more digits of any script, if the characters are that, with at most one
line feed after them. -/
def lineDigits? : List Char → Option (List Nat)
  | [] => none
  | [c] => (digitValue? c).map ([·])
  | [c, '\n'] => (digitValue? c).map ([·])
  | c :: cs => do
    let d ← digitValue? c
    let ds ← lineDigits? cs
    return d :: ds

/-- The digit values of the number in a name that consists of `stem` and a number. -/
def numbered? (stem name : String) : Option (List Nat) :=
  (afterStem? stem.toList name.toList).bind lineDigits?

end Text

namespace NumeralFault

/-- The wording of a fault. -/
def message : NumeralFault → String
  | .tooLongToRead digits =>
    "Exceeds the limit (" ++ Text.ofNat Text.maxDigits ++
      " digits) for integer string conversion: value has " ++ Text.ofNat digits ++
      " digits; use sys.set_int_max_str_digits() to increase the limit"
  | .tooLongToWrite =>
    "Exceeds the limit (" ++ Text.ofNat Text.maxDigits ++
      " digits) for integer string conversion; " ++
      "use sys.set_int_max_str_digits() to increase the limit"

end NumeralFault

end AccessTree
