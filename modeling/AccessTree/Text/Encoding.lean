import AccessTree.Text.Utf8

/-! # Encodings of text

Text is sent in units of 8, 16 or 32 bits, and of a wider unit either end may be sent first. JSON
starts with characters of ASCII, so that the zero bytes at the front of it tell which encoding it
is in: `Encoding.detect`. In units of 16 bits, a character beyond them is a pair of surrogates; half
of a pair reads as the replacement character. `Encoding.decode?` gives no text if bytes are left
over or a unit is beyond all characters. -/

namespace AccessTree.Text

/-! ### Units of 16 bits -/

/-- Whether a unit is the first half of a pair. -/
def isHighHalf (u : Nat) : Bool := 0xD800 ≤ u && u < 0xDC00

/-- Whether a unit is the second half of a pair. -/
def isLowHalf (u : Nat) : Bool := 0xDC00 ≤ u && u < 0xE000

/-- The character of a pair of units. -/
def pairChar (high low : Nat) : Char :=
  Char.ofNat (0x10000 + (high - 0xD800) * 0x400 + (low - 0xDC00))

/-- The character of a unit that has no partner. -/
def loneUnit (u : Nat) : Char :=
  if isHighHalf u || isLowHalf u then replacementChar else Char.ofNat u

/-- The characters that units of 16 bits spell. -/
def decodeUnits : List Nat → List Char
  | [] => []
  | [u] => [loneUnit u]
  | u :: v :: rest =>
    if isHighHalf u && isLowHalf v then pairChar u v :: decodeUnits rest
    else loneUnit u :: decodeUnits (v :: rest)

/-- The character of a unit of 32 bits. -/
def wideChar? (u : Nat) : Option Char := if u < 0x110000 then some (loneUnit u) else none

/-! ### Bytes -/

/-- Which end of a unit is sent first. -/
inductive ByteOrder where
  | highFirst
  | lowFirst
  deriving DecidableEq, Repr

/-- Joins numbers below `base` two by two, unless one is left over. -/
def ByteOrder.join? (order : ByteOrder) (base : Nat) : List Nat → Option (List Nat)
  | [] => some []
  | [_] => none
  | a :: b :: rest =>
    let unit := match order with
      | .highFirst => base * a + b
      | .lowFirst => a + base * b
    (order.join? base rest).map (unit :: ·)

/-- The units of 16 bits that bytes make up. -/
def ByteOrder.units? (order : ByteOrder) (bytes : List Nat) : Option (List Nat) :=
  order.join? 0x100 bytes

/-- The units of 32 bits that bytes make up. -/
def ByteOrder.wideUnits? (order : ByteOrder) (bytes : List Nat) : Option (List Nat) :=
  order.units? bytes >>= order.join? 0x10000

/-! ### Encodings -/

/-- **How text is sent.** -/
inductive Encoding where
  | utf8
  | utf16 (order : ByteOrder)
  | utf32 (order : ByteOrder)
  deriving DecidableEq, Repr

namespace Encoding

/-- The encoding that the zero bytes at the front tell. Three bytes are too few to tell. -/
def detect : List Nat → Encoding
  | 0 :: b :: _ :: _ :: _ => if b = 0 then .utf32 .highFirst else .utf16 .highFirst
  | _ :: 0 :: c :: d :: _ => if c = 0 ∧ d = 0 then .utf32 .lowFirst else .utf16 .lowFirst
  | [0, _] => .utf16 .highFirst
  | [_, 0] => .utf16 .lowFirst
  | _ => .utf8

/-- The characters that bytes spell. -/
def decode? (bytes : List Nat) : Encoding → Option (List Char)
  | .utf8 => some (decodeUtf8 bytes)
  | .utf16 order => (order.units? bytes).map decodeUnits
  | .utf32 order => order.wideUnits? bytes >>= fun units => units.mapM wideChar?

end Encoding

/-- The characters that bytes spell in the encoding that they are in. -/
def decode? (bytes : List Nat) : Option (List Char) := (Encoding.detect bytes).decode? bytes

end AccessTree.Text
