import AccessTree.Text.Case

/-! # Searching text

A pattern is a list of pieces, each of which stands for one character of a class or for one or more
of them. `Pattern.starts` tests whether a match starts at the front of some characters, and
`Pattern.occursIn` whether one starts anywhere in a text. -/

namespace AccessTree.Text

/-- A part of a pattern. -/
inductive Piece where
  /-- One character that passes the test. -/
  | one (test : Char → Bool)
  /-- One or more characters that pass the test. -/
  | many (test : Char → Bool)

/-- What is searched for. -/
abbrev Pattern := List Piece

namespace Pattern

/-- A fixed text. -/
def literal (s : String) : Pattern := s.toList.map fun c => .one fun d => d = c

/-- A fixed text, given in lower case, in any case. -/
def anyCase (s : String) : Pattern := s.toList.map fun c => .one fun d => folded d = c

/-- Whether a match starts at the front. -/
def starts : Pattern → List Char → Bool
  | [], _ => true
  | _ :: _, [] => false
  | .one test :: rest, c :: cs => test c && starts rest cs
  | .many test :: rest, c :: cs => test c && (starts rest cs || starts (.many test :: rest) cs)

/-- Whether a match starts anywhere. -/
def occurs (p : Pattern) : List Char → Bool
  | [] => starts p []
  | c :: cs => starts p (c :: cs) || occurs p cs

/-- Whether a text has a match. -/
def occursIn (p : Pattern) (s : String) : Bool := occurs p s.toList

end Pattern

end AccessTree.Text
