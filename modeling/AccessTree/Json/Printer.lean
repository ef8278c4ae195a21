import AccessTree.Json.Basic

/-! # JSON text

`Json.chars` writes a value in a `Layout`. Three layouts are used: `display` puts every item and
field on a line of its own, `compact` writes no blank at all, and `oneLine` writes one line of
ASCII. All of them escape the double quote, the backslash and the characters below the space;
`oneLine` also escapes everything above the tilde, by UTF-16 code units. The empty list and the
empty object are `[]` and `{}` in every layout. -/

namespace AccessTree

/-- How JSON text is laid out. -/
structure Layout where
  /-- The number of spaces per level, or `none` to keep a value on one line. -/
  indent : Option Nat
  /-- Written between two items or fields. -/
  separator : List Char
  /-- Written between a key and its value. -/
  colon : List Char
  /-- Whether characters outside ASCII are escaped. -/
  asciiOnly : Bool

namespace Layout

/-- Two spaces per level. -/
def display : Layout := ⟨some 2, [','], [':', ' '], false⟩

/-- No blanks. -/
def compact : Layout := ⟨none, [','], [':'], false⟩

/-- One line of ASCII. -/
def oneLine : Layout := ⟨none, [',', ' '], [':', ' '], true⟩

/-- The line break before something at a level. -/
def lineBreak (l : Layout) (level : Nat) : List Char :=
  match l.indent with
  | none => []
  | some width => '\n' :: List.replicate (width * level) ' '

end Layout

namespace Json

/-! ### Strings -/

/-- A UTF-16 code unit written as an escape. -/
def unitEscape (n : Nat) : List Char := '\\' :: 'u' :: Text.hexChars 4 n

/-- A character written by escapes of its UTF-16 code units. -/
def unitEscapes (c : Char) : List Char :=
  let n := c.toNat
  if n < 0x10000 then unitEscape n
  else unitEscape (0xD800 + (n - 0x10000) / 0x400) ++ unitEscape (0xDC00 + (n - 0x10000) % 0x400)

/-- One character of a string. -/
def escaped (asciiOnly : Bool) (c : Char) : List Char :=
  if c = '"' then ['\\', '"']
  else if c = '\\' then ['\\', '\\']
  else if c = '\n' then ['\\', 'n']
  else if c = '\r' then ['\\', 'r']
  else if c = '\t' then ['\\', 't']
  else if c = '\x08' then ['\\', 'b']
  else if c = '\x0C' then ['\\', 'f']
  else if c.toNat < 0x20 then unitEscape c.toNat
  else if asciiOnly && 0x7E < c.toNat then unitEscapes c
  else [c]

/-- A string with its quotes. -/
def stringChars (asciiOnly : Bool) (s : String) : List Char :=
  '"' :: (s.toList.flatMap (escaped asciiOnly) ++ ['"'])

/-! ### Values -/

/-- How JSON text spells the numbers that are not finite. -/
def spelling : Binary64.Spelling := ⟨"NaN", "Infinity"⟩

mutual
/-- **The text of a value** that stands at a level. -/
def chars (l : Layout) (level : Nat) : Json → List Char
  | .null => ['n', 'u', 'l', 'l']
  | .bool true => ['t', 'r', 'u', 'e']
  | .bool false => ['f', 'a', 'l', 's', 'e']
  | .int n => Text.intChars n
  | .float x => x.chars spelling
  | .str s => stringChars l.asciiOnly s
  | .arr [] => ['[', ']']
  | .arr (v :: vs) =>
    '[' :: (l.lineBreak (level + 1) ++ chars l (level + 1) v ++ moreItems l level vs)
  | .obj [] => ['{', '}']
  | .obj ((k, v) :: rest) =>
    '{' :: (l.lineBreak (level + 1) ++ stringChars l.asciiOnly k ++ l.colon ++
      chars l (level + 1) v ++ moreFields l level rest)

/-- The items after the first one, and the end of the list. -/
def moreItems (l : Layout) (level : Nat) : List Json → List Char
  | [] => l.lineBreak level ++ [']']
  | v :: vs =>
    l.separator ++ l.lineBreak (level + 1) ++ chars l (level + 1) v ++ moreItems l level vs

/-- The fields after the first one, and the end of the object. -/
def moreFields (l : Layout) (level : Nat) : List (String × Json) → List Char
  | [] => l.lineBreak level ++ ['}']
  | (k, v) :: rest =>
    l.separator ++ l.lineBreak (level + 1) ++ stringChars l.asciiOnly k ++ l.colon ++
      chars l (level + 1) v ++ moreFields l level rest
end

/-- The text of a value in a layout. -/
def render (l : Layout) (v : Json) : String := String.ofList (chars l 0 v)

/-- The text of a value in a layout, if the value can be written. -/
def write (l : Layout) (v : Json) : Except NumeralFault String := v.written (render l)

end Json

end AccessTree
