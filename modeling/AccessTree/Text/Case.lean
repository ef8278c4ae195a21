/-! # Letter case

ASCII letters are compared with any text in two ways. `lowered` writes a text in lower case as far
as ASCII letters are concerned; the Kelvin sign is an upper case `k`. `folded` goes further and
makes all characters equal that differ from an ASCII letter in case only, so that the long `s` is an
`s`. -/

namespace AccessTree.Text

/-- The lower case of a character, where that is an ASCII letter. -/
def lowerChar (c : Char) : Char := if c = '\u212A' then 'k' else c.toLower

/-- A text in lower case. -/
def lowered (s : String) : String := String.ofList (s.toList.map lowerChar)

/-- The ASCII letter that a character is, case apart. -/
def folded (c : Char) : Char := if c = '\u017F' then 's' else lowerChar c

end AccessTree.Text
