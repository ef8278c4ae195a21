import AccessTree.Text.CharSet

/-! # Blank characters and trimmed text

`isBlank` is the white space of the character standard together with the four information
separators; the zero width space and the byte order mark are not blank. `trim` cuts blanks off both
ends of a text, and a text is blank when nothing is left. -/

namespace AccessTree.Text

/-- The characters that count as blank. -/
def blanks : CharSet :=
  ⟨[(0x09, 0x0D), (0x1C, 0x20), (0x85, 0x85), (0xA0, 0xA0), (0x1680, 0x1680), (0x2000, 0x200A),
    (0x2028, 0x2029), (0x202F, 0x202F), (0x205F, 0x205F), (0x3000, 0x3000)]⟩

/-- Whether a character is blank. -/
def isBlank (c : Char) : Bool := blanks.has c

/-- Characters without the blanks at either end. -/
def trimChars (cs : List Char) : List Char :=
  ((cs.dropWhile isBlank).reverse.dropWhile isBlank).reverse

/-- Text without the blanks at either end. -/
def trim (s : String) : String := String.ofList (trimChars s.toList)

/-- Whether a text is empty or all blank. -/
def allBlank (s : String) : Bool := s.toList.all isBlank

end AccessTree.Text
