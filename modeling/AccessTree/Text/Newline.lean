/-! # Line ends

A line may end with a line feed, a carriage return or both, and is read as ending with a line feed.
A place in a text is given by the number of its line and its column, both counted from one. -/

namespace AccessTree.Text

/-- Characters with every line end as a line feed. -/
def unifyLineEnds : List Char → List Char
  | '\r' :: '\n' :: cs => '\n' :: unifyLineEnds cs
  | '\r' :: cs => '\n' :: unifyLineEnds cs
  | c :: cs => c :: unifyLineEnds cs
  | [] => []

/-- The line and the column of the place after some characters. -/
def lineAndColumn (before : List Char) : Nat × Nat :=
  (before.count '\n' + 1, (before.reverse.takeWhile (· ≠ '\n')).length + 1)

end AccessTree.Text
