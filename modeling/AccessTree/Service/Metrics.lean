import AccessTree.Problem

/-! # Metrics

What happens while requests are served is counted. An `Event` increases some series of numbers; a
series has a name and labels. The number of leaves of a compiled condition is kept as a histogram:
for every bound the number of conditions with so many leaves at most, their number, and the sum of
their leaves. -/

namespace AccessTree

/-- How a compilation ends. -/
inductive Compilation where
  /-- With a condition of so many leaves. -/
  | success (leaves : Nat)
  | absent
  | error
  deriving DecidableEq, Repr

/-- **Something that is counted.** -/
inductive Event where
  | compiled (c : Compilation)
  /-- An edit, by the name of the operation, was made or refused. -/
  | edited (operation : String) (made : Bool)
  /-- A request was answered. -/
  | answered (method path : String) (status : Nat)
  /-- A request broke down. -/
  | broke (error : String) (method path : String)
  deriving DecidableEq, Repr

/-- A series of numbers. -/
structure Series where
  name : String
  labels : List (String × String)
  deriving DecidableEq, Repr

namespace Metrics

/-- What all names start with. -/
def stem : String := "condition_studio_"

/-- The series of a name without the stem. -/
def series (name : String) (labels : List (String × String)) : Series := ⟨stem ++ name, labels⟩

/-- The bounds of the histogram of leaves. -/
def leafBounds : List Nat := [1, 2, 3, 5, 8, 13, 21, 50]

/-- The name of the histogram of leaves. -/
def leafName : String := "compiled_leaf_conditions"

/-- The increases of the histogram by a condition with so many leaves. -/
def leafIncreases (leaves : Nat) : List (Series × Nat) :=
  ((leafBounds.filter (leaves ≤ ·)).map fun bound =>
    (series (leafName ++ "_bucket") [("le", Text.ofNat bound ++ ".0")], 1)) ++
  [(series (leafName ++ "_bucket") [("le", "+Inf")], 1), (series (leafName ++ "_count") [], 1),
    (series (leafName ++ "_sum") [], leaves)]

/-- The name of how a compilation ended. -/
def statusName : Compilation → String
  | .success _ => "success"
  | .absent => "absent"
  | .error => "error"

/-- The series that count how compilations end. -/
def compilations (status : String) : Series := series "compilations_total" [("status", status)]

/-- The increases by an event. -/
def increases : Event → List (Series × Nat)
  | .compiled c =>
    (compilations (statusName c), 1) ::
      (match c with
        | .success leaves => leafIncreases leaves
        | _ => [])
  | .edited operation made =>
    [(series "editor_operations_total"
      [("operation", operation), ("status", if made then "success" else "error")], 1)]
  | .answered method path status =>
    [(series "http_requests_total"
      [("method", method), ("route", path), ("status_code", Text.ofNat status)], 1)]
  | .broke error method path =>
    [(series "http_errors_total" [("error_type", error), ("method", method), ("route", path)], 1)]

/-- Adds to a series. -/
def add (s : Series) (n : Nat) : List (Series × Nat) → List (Series × Nat)
  | [] => [(s, n)]
  | (t, m) :: rest => if t = s then (t, m + n) :: rest else (t, m) :: add s n rest

/-- **The numbers of all series** that some events increase. -/
def total (events : List Event) : List (Series × Nat) :=
  ((events.flatMap increases).filter (·.2 ≠ 0)).foldl (fun sums (s, n) => add s n sums) []

end Metrics

/-- The text of a series. -/
def Series.text (s : Series) : String :=
  String.ofList (s.name.toList ++ '\x7b' ::
    (",".intercalate (s.labels.map fun (k, v) => k ++ "=" ++ v)).toList ++ ['\x7d'])

end AccessTree
