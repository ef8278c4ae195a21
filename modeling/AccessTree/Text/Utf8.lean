/-! # UTF-8

Bytes are read as UTF-8, and text is written in it. Bytes that are no part of a character read as
the replacement character, one for each longest start of a character that is not completed, and one
for each other byte. -/

namespace AccessTree.Text

/-- The number of bytes that follow a first byte, the bits of the character in the first byte, and
the least and greatest second byte; `none` for a byte that no character of several bytes starts
with. -/
def lead? (b : Nat) : Option (Nat × Nat × Nat × Nat) :=
  if 0xC2 ≤ b ∧ b ≤ 0xDF then some (1, b - 0xC0, 0x80, 0xBF)
  else if b = 0xE0 then some (2, 0, 0xA0, 0xBF)
  else if b = 0xED then some (2, 0xD, 0x80, 0x9F)
  else if 0xE1 ≤ b ∧ b ≤ 0xEF then some (2, b - 0xE0, 0x80, 0xBF)
  else if b = 0xF0 then some (3, 0, 0x90, 0xBF)
  else if b = 0xF4 then some (3, 4, 0x80, 0x8F)
  else if 0xF1 ≤ b ∧ b ≤ 0xF3 then some (3, b - 0xF0, 0x80, 0xBF)
  else none

/-- Stands for bytes that are no character. -/
def replacementChar : Char := '\uFFFD'

/-- A character of which bytes are still missing. -/
structure Partial where
  missing : Nat
  bits : Nat
  /-- The least next byte. -/
  least : Nat
  /-- The greatest next byte. -/
  greatest : Nat

/-- Reads a byte where a character starts: the character, or what is read of it. -/
def firstByte (b : Nat) : Char ⊕ Partial :=
  if b < 0x80 then .inl (Char.ofNat b)
  else
    match lead? b with
    | some (missing, bits, least, greatest) => .inr ⟨missing, bits, least, greatest⟩
    | none => .inl replacementChar

/-- Reads bytes after the start of a character, if there is one. -/
def decodeFrom : Option Partial → List Nat → List Char
  | none, [] => []
  | some _, [] => [replacementChar]
  | none, b :: rest =>
    match firstByte b with
    | .inl c => c :: decodeFrom none rest
    | .inr p => decodeFrom (some p) rest
  | some p, b :: rest =>
    if p.least ≤ b ∧ b ≤ p.greatest then
      let bits := p.bits * 64 + (b - 0x80)
      if p.missing = 1 then Char.ofNat bits :: decodeFrom none rest
      else decodeFrom (some ⟨p.missing - 1, bits, 0x80, 0xBF⟩) rest
    else
      match firstByte b with
      | .inl c => replacementChar :: c :: decodeFrom none rest
      | .inr p => replacementChar :: decodeFrom (some p) rest

/-- The characters that bytes spell. -/
def decodeUtf8 (bytes : List Nat) : List Char := decodeFrom none bytes

/-- The bytes of a character. -/
def encodeChar (c : Char) : List Nat := (String.utf8EncodeChar c).map UInt8.toNat

/-- The bytes of a text. -/
def encodeUtf8 (s : String) : List Nat := s.toList.flatMap encodeChar

/-- The text that has one character for each byte of a text. -/
def bytewise (s : String) : String := String.ofList ((encodeUtf8 s).map Char.ofNat)

end AccessTree.Text
