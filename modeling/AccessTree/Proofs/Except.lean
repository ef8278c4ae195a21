import Mathlib.Tactic.Common

/-! # Results that can fail

A step that goes on with a result succeeds if both of its parts succeed, and fails as the part that
fails first. So checks that are run over a list fail at the first member that does not pass
(`forM_eq_error`), and only if there is one (`exists_forM_eq_error`). -/

namespace AccessTree

variable {ε α β : Type}

theorem mapError_eq_ok {ε' : Type} {x : Except ε α} {f : ε → ε'} {a : α} :
    x.mapError f = .ok a ↔ x = .ok a := by
  cases x <;> simp [Except.mapError]

theorem bind_eq_ok {x : Except ε α} {f : α → Except ε β} {b : β} :
    x >>= f = .ok b ↔ ∃ a, x = .ok a ∧ f a = .ok b := by
  cases x <;> simp [bind, Except.bind]

theorem bind_eq_error {x : Except ε α} {f : α → Except ε β} {e : ε} :
    x >>= f = .error e ↔ x = .error e ∨ ∃ a, x = .ok a ∧ f a = .error e := by
  cases x <;> simp [bind, Except.bind]

theorem map_eq_ok {f : α → β} {x : Except ε α} {b : β} :
    x.map f = .ok b ↔ ∃ a, x = .ok a ∧ f a = b := by
  cases x <;> simp [Except.map]

theorem map_eq_error {f : α → β} {x : Except ε α} {e : ε} :
    x.map f = .error e ↔ x = .error e := by
  cases x <;> simp [Except.map]

/-- **A list of checks fails** at the first member that does not pass. -/
theorem forM_eq_error {f : α → Except ε Unit} {xs : List α} {e : ε} :
    forM xs f = .error e ↔ ∃ before x after,
      xs = before ++ x :: after ∧ (∀ y ∈ before, f y = .ok ()) ∧ f x = .error e := by
  induction xs with
  | nil =>
    constructor
    · intro h
      cases h
    · rintro ⟨before, x, after, h, -⟩
      simp at h
  | cons y xs ih =>
    rw [List.forM_cons, bind_eq_error, ih]
    constructor
    · rintro (hy | ⟨⟨⟩, hy, before, x, after, rfl, hbefore, hx⟩)
      · exact ⟨[], y, xs, rfl, by simp, hy⟩
      · exact ⟨y :: before, x, after, rfl, List.forall_mem_cons.mpr ⟨hy, hbefore⟩, hx⟩
    · rintro ⟨before, x, after, h, hbefore, hx⟩
      rcases before with _ | ⟨z, before⟩
      · obtain ⟨rfl, -⟩ := List.cons.inj h
        exact Or.inl hx
      · obtain ⟨rfl, rfl⟩ := List.cons.inj h
        have hy := hbefore y List.mem_cons_self
        have hrest := fun w hw => hbefore w (List.mem_cons_of_mem y hw)
        exact Or.inr ⟨(), hy, before, x, after, rfl, hrest, hx⟩

theorem exists_forM_eq_error {f : α → Except ε Unit} {xs : List α} :
    (∃ e, forM xs f = .error e) ↔ ∃ x ∈ xs, ∃ e, f x = .error e := by
  induction xs with
  | nil => exact iff_of_false (by rintro ⟨e, ⟨⟩⟩) (by simp)
  | cons y xs ih =>
    simp only [List.forM_cons, List.mem_cons, exists_eq_or_imp, ← ih, bind_eq_error]
    cases hy : f y with
    | error e => simp
    | ok u => simp

/-- What is done for each member of a list and never fails. -/
theorem mapM_eq_ok {f : α → Except ε β} (g : α → β) {xs : List α}
    (h : ∀ x ∈ xs, f x = .ok (g x)) : xs.mapM f = .ok (xs.map g) := by
  induction xs with
  | nil => rfl
  | cons x xs ih =>
    obtain ⟨hx, hxs⟩ := List.forall_mem_cons.mp h
    rw [List.mapM_cons, hx, ih hxs]
    rfl

end AccessTree
