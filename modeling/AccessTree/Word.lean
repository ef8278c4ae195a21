import AccessTree.Text.Numeral

/-! # Closed sets of words

A `Word` type is a finite type whose members have names, listed in the order in which messages list
them. -/

namespace AccessTree

/-- A finite type of named members. -/
class Word (α : Type) where
  /-- All members in order. -/
  all : List α
  /-- The name of a member. -/
  name : α → String

namespace Word

variable {α : Type} [Word α]

/-- The member of a name. -/
def ofName? (s : String) : Option α := (all (α := α)).find? fun a => name a = s

/-- All names in order. -/
def names (α : Type) [Word α] : List String := (all (α := α)).map name

/-- All names in alphabetical order. -/
def sortedNames (α : Type) [Word α] : List String :=
  (names α).mergeSort fun a b => decide (a ≤ b)

end Word

/-- Several alternatives in words: `a, b or c`. -/
def alternatives : List String → String
  | [] => ""
  | [a] => a
  | [a, b] => a ++ " or " ++ b
  | a :: rest => a ++ ", " ++ alternatives rest

end AccessTree
