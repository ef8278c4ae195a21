import AccessTree.Word

/-! # Comparators

A test of a returned value compares it by a `Comparator`. A user may pick all of them but `!=`,
which occurs in documents only. -/

namespace AccessTree

/-- The comparators of a test. -/
inductive Comparator where
  | ge
  | gt
  | le
  | lt
  | eq
  | ne
  deriving DecidableEq, Repr

namespace Comparator

instance : Word Comparator where
  all := [.ge, .gt, .le, .lt, .eq, .ne]
  name
    | .ge => ">="
    | .gt => ">"
    | .le => "<="
    | .lt => "<"
    | .eq => "=="
    | .ne => "!="

/-- The name of a comparator. -/
def name (c : Comparator) : String := Word.name c

/-- The comparators that a user may pick. -/
def selectable : List Comparator := [.ge, .gt, .le, .lt, .eq]

/-- The names that a user may pick from, in alphabetical order. -/
def selectableNames : List String :=
  (selectable.map name).mergeSort fun a b => decide (a ≤ b)

end Comparator

end AccessTree
