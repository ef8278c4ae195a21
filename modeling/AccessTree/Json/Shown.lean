import AccessTree.Json.Basic
import AccessTree.Text.Quoted

/-! # Values inside messages

A message shows a text bare and any other value as it stands inside a list: `None`, `True` and
`False`, numbers in decimal, strings quoted, lists and objects with their items and fields after a
comma and a space. -/

namespace AccessTree.Json

/-- How messages spell the numbers that are not finite. -/
def shownSpelling : Binary64.Spelling := ⟨"nan", "inf"⟩

mutual
/-- A value as it stands inside a list. -/
def nestedChars : Json → List Char
  | .null => "None".toList
  | .bool true => "True".toList
  | .bool false => "False".toList
  | .int n => Text.intChars n
  | .float x => x.chars shownSpelling
  | .str s => Text.quotedChars s.toList
  | .arr [] => ['[', ']']
  | .arr (v :: vs) => '[' :: (nestedChars v ++ nestedItems vs)
  | .obj [] => ['{', '}']
  | .obj ((k, v) :: rest) =>
    '{' :: (Text.quotedChars k.toList ++ ':' :: ' ' :: (nestedChars v ++ nestedFields rest))

/-- The items after the first one, and the end of the list. -/
def nestedItems : List Json → List Char
  | [] => [']']
  | v :: vs => ',' :: ' ' :: (nestedChars v ++ nestedItems vs)

/-- The fields after the first one, and the end of the object. -/
def nestedFields : List (String × Json) → List Char
  | [] => ['}']
  | (k, v) :: rest =>
    ',' :: ' ' :: (Text.quotedChars k.toList ++ ':' :: ' ' :: (nestedChars v ++ nestedFields rest))
end

/-- A value as it stands inside a list. -/
def nested (v : Json) : String := String.ofList (nestedChars v)

/-- A value as a message shows it. -/
def shown : Json → String
  | .str s => s
  | v => nested v

/-- A value as a message shows it, if it can be written. -/
def writeShown (v : Json) : Except NumeralFault String := v.written shown

end AccessTree.Json
