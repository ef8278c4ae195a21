import AccessTree.Edit.Basic

/-! # Histories of edits

A `History` is the list of the states that a composition went through. An edit starts from the last
state that an edit led to, or from any state that is named by its number; a refused edit repeats the
state that it started from. -/

namespace AccessTree

/-- **The states of a composition.** -/
structure History where
  /-- All states; the number of a state is its position. -/
  states : List Block
  /-- The last state that an edit led to. -/
  latest : Block
  /-- The number of suffixes used up by new ids. -/
  suffixes : Nat

namespace History

/-- The history of a composition before any edit. -/
def start (root : Block) : History := ⟨[root], root, 0⟩

/-- The state that an edit starts from. -/
def origin (h : History) (number : Option Nat) : Block :=
  (number.bind fun n => h.states[n]?).getD h.latest

/-- The suffix with a number: twelve hexadecimal digits. -/
def suffix (n : Nat) : String := String.ofList (Text.hexChars 12 n)

/-- The history after a refused step from a state. -/
def refuse (h : History) (origin : Block) : History :=
  { h with states := h.states ++ [origin] }

/-- **The result of an edit** of a state, and the history after it. -/
def edit (h : History) (number : Option Nat) (e : Edit) : Except EditFault Block × History :=
  let origin := h.origin number
  let result := e.apply suffix (h.suffixes + 1) origin
  let after := { h with suffixes := h.suffixes + e.suffixesUsed result }
  match result with
  | .ok root => (result, { after with states := h.states ++ [root], latest := root })
  | .error _ => (result, after.refuse origin)

end History

end AccessTree
