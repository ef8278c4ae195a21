import AccessTree.Schema.Issue

/-! # Checked values

A reader of JSON gives a `Checked` value: the value that was read, or all issues found. Combined
with `<*>`, the parts of a structure are all read and their issues are collected in the order of the
parts. `Checked.andThen` goes on only with a value. -/

namespace AccessTree

/-- **The result of reading a value:** the value, or the issues found. -/
inductive Checked (α : Type) where
  | ok (a : α)
  | rejected (issues : List Issue)
  deriving DecidableEq

namespace Checked

variable {α β : Type}

/-- A single issue about a value. -/
def reject (cause : IssueCause) (input : Json) : Checked α := .rejected [⟨cause, [], input⟩]

/-- Applies a function to a checked value. -/
def map (f : α → β) : Checked α → Checked β
  | .ok a => .ok (f a)
  | .rejected issues => .rejected issues

/-- Applies a checked function, and collects the issues of both parts. -/
def apply (f : Checked (α → β)) (x : Checked α) : Checked β :=
  match f, x with
  | .ok f, .ok a => .ok (f a)
  | .ok _, .rejected issues => .rejected issues
  | .rejected issues, .ok _ => .rejected issues
  | .rejected issues, .rejected more => .rejected (issues ++ more)

instance : Applicative Checked where
  pure := .ok
  map := map
  seq f x := apply f (x ())

/-- Goes on with the value, if there is one. -/
def andThen (x : Checked α) (f : α → Checked β) : Checked β :=
  match x with
  | .ok a => f a
  | .rejected issues => .rejected issues

/-- Places all issues one step further from the whole input. -/
def under (s : Seg) : Checked α → Checked α
  | .ok a => .ok a
  | .rejected issues => .rejected (issues.map fun i => { i with place := s :: i.place })

/-- Rejects a value that breaks a rule. -/
def ensure (x : Checked α) (holds : α → Bool) (text : String) (input : Json) : Checked α :=
  x.andThen fun a => if holds a then .ok a else reject (.rule text) input

/-- Reads the items of a list, which are counted from `i`. -/
def items (read : Json → Checked α) (i : Nat) : List Json → Checked (List α)
  | [] => .ok []
  | v :: vs => List.cons <$> (read v).under (.index i) <*> items read (i + 1) vs

/-- The checked value as an `Except`. -/
def toExcept : Checked α → Except (List Issue) α
  | .ok a => .ok a
  | .rejected issues => .error issues

end Checked

end AccessTree
