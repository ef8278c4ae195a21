import AccessTree.Json.Basic

/-! # Problems

Every module says in a type of its own why it fails. What a client sees of it is a `Failure`: a
`Problem` with a category, a message and details, or a breakdown, a failure that no category is made
for. The category decides the status of an HTTP answer. -/

namespace AccessTree

/-- The categories of problems. -/
inductive Category where
  | general
  | validation
  | chain
  | notFound
  | conflict
  | compilation
  deriving DecidableEq, Repr

namespace Category

/-- All categories. -/
def all : List Category := [.general, .validation, .chain, .notFound, .conflict, .compilation]

/-- The name that clients know a category by. -/
def name : Category → String
  | .general => "ConditionStudioError"
  | .validation => "ValidationError"
  | .chain => "ChainValidationError"
  | .notFound => "NotFoundError"
  | .conflict => "ConflictError"
  | .compilation => "CompilationError"

/-- The status of an HTTP answer about a problem. -/
def status : Category → Nat
  | .general => 500
  | .validation => 400
  | .chain => 400
  | .notFound => 404
  | .conflict => 409
  | .compilation => 422

end Category

/-- A problem that a client is told about. -/
structure Problem where
  category : Category
  message : String
  details : Fields

/-- The classes of breakdowns. -/
inductive Breakdown where
  /-- A value outside the range of an operation. -/
  | value
  /-- A value of a class that an operation does not take. -/
  | type
  /-- A value of a class that has no such part. -/
  | noPart
  /-- A key that is not there. -/
  | key
  /-- A number that is too large for what it is used for. -/
  | overflow
  /-- A request that the operating system refuses. -/
  | system
  deriving DecidableEq, Repr

/-- The name that logs and counters know a breakdown by. -/
def Breakdown.name : Breakdown → String
  | .value => "ValueError"
  | .type => "TypeError"
  | .noPart => "AttributeError"
  | .key => "KeyError"
  | .overflow => "OverflowError"
  | .system => "OSError"

/-- **Why a request failed.** -/
inductive Failure where
  | problem (p : Problem)
  | breakdown (kind : Breakdown) (message : String)

/-- The failure of a numeral that cannot be converted. -/
def NumeralFault.toFailure (f : NumeralFault) : Failure := .breakdown .value f.message

end AccessTree
