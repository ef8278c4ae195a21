import AccessTree.Proofs.Block.WellFormed
import AccessTree.Proofs.Except

/-! # Growth slots and operands

The id of a new growth slot is the id of none of the slots that it was numbered after
(`nextGrowth_eq_ok`), since its number is greater than theirs in whatever script these are written.

Which slots of an operator are empty is said by `Operands`. If one of them is, it is the last one,
and there is room (`of_append_true`); if the last one is not, the bound is reached
(`of_append_false`). Emptying a slot always makes room (`count_lt`). -/

namespace AccessTree

namespace Slot

theorem le_foldl_max {numbers : List Nat} : ∀ {a n : Nat}, n ≤ a ∨ n ∈ numbers →
    n ≤ numbers.foldl max a := by
  induction numbers with
  | nil => simp
  | cons m rest ih =>
    rintro a n (h | h)
    · exact ih (Or.inl (by omega))
    · rcases List.mem_cons.mp h with rfl | h
      · exact ih (Or.inl (by omega))
      · exact ih (Or.inr h)

theorem parameterDigits?_growth (number : String) : (growth number).parameterDigits? = none := by
  simp [parameterDigits?, growth, Text.numbered?, parameterStem, growthStem, Text.afterStem?]

theorem growthDigits?_of_id {s : Slot} {n : Nat} (h : s.id = growthStem ++ Text.ofNat n) :
    s.growthDigits? = some (Text.charDigits (Text.natChars n)) := by
  rw [growthDigits?, h, Text.numbered?_append_ofNat]

/-- A new growth slot is just that. -/
theorem eq_growth_of_nextGrowth {slots : List Slot} {g : Slot} (h : nextGrowth slots = .ok g) :
    ∃ number, g = growth number := by
  obtain ⟨greatest, -, h⟩ := bind_eq_ok.mp h
  obtain ⟨number, -, h⟩ := bind_eq_ok.mp h
  exact ⟨number, (Except.ok.inj h).symm⟩

/-- **A new growth slot** is empty, no parameter slot, and its id is new. -/
theorem nextGrowth_eq_ok {slots : List Slot} {s : Slot} (h : nextGrowth slots = .ok s) :
    s.isEmpty = true ∧ s.parameterDigits? = none ∧ s.id ∉ slots.map Slot.id := by
  obtain ⟨greatest, hg, hs⟩ := bind_eq_ok.mp h
  obtain ⟨number, hn, he⟩ := bind_eq_ok.mp hs
  obtain ⟨numbers, hnum, hmax⟩ := bind_eq_ok.mp hg
  obtain rfl : numbers.foldl max 0 = greatest := Except.ok.inj hmax
  obtain rfl : growth number = s := Except.ok.inj he
  obtain ⟨rfl, -⟩ := Text.writeInt_eq_ok hn
  obtain ⟨-, rfl⟩ := Text.mapM_readDigits_eq_ok.mp hnum
  refine ⟨rfl, parameterDigits?_growth _, fun hmem => ?_⟩
  obtain ⟨t, ht, hid⟩ := List.mem_map.mp hmem
  -- a slot of the same id would have a number greater than the greatest one
  have hd := growthDigits?_of_id (s := t) hid
  have hle := le_foldl_max (a := 0) (Or.inr
    (List.mem_map_of_mem (f := Text.ofDigits) (List.mem_filterMap.mpr ⟨t, ht, hd⟩)))
  rw [Text.ofDigits_charDigits] at hle
  omega

end Slot

namespace Block

theorem eq_replicate_of_append_true {xs ys : List Bool} : ∀ {n : Nat},
    xs ++ true :: ys = List.replicate n false ++ [true] → xs = List.replicate n false ∧ ys = [] := by
  induction xs with
  | nil =>
    intro n h
    cases n with
    | zero => exact ⟨rfl, by simpa using h⟩
    | succ n => simp [List.replicate_succ] at h
  | cons x xs ih =>
    intro n h
    cases n with
    | zero => simp at h
    | succ n =>
      rw [List.replicate_succ, List.cons_append, List.cons_append] at h
      obtain ⟨hx, hrest⟩ := List.cons.inj h
      obtain ⟨hxs, hys⟩ := ih hrest
      exact ⟨by rw [hx, hxs, List.replicate_succ], hys⟩

namespace Operands

variable {bound : Option Nat} {xs ys : List Bool}

/-- An empty slot is the last one, and the bound is not reached. -/
theorem of_append_true (h : Operands bound (xs ++ true :: ys)) :
    ys = [] ∧ ∃ n, xs = List.replicate n false ∧ ∀ m, bound = some m → n < m := by
  generalize hf : xs ++ true :: ys = flags at h
  cases h with
  | full n hn =>
    have ht : true ∈ List.replicate n false := by rw [← hf]; simp
    simp at ht
  | growing n hn =>
    obtain ⟨rfl, rfl⟩ := eq_replicate_of_append_true hf
    exact ⟨rfl, n, rfl, hn⟩

/-- If the last slot is not empty, then the bound is reached. -/
theorem of_append_false (h : Operands bound (xs ++ [false])) :
    ∃ n, bound = some n ∧ n = (xs ++ [false]).count false := by
  generalize hf : xs ++ [false] = flags at h
  cases h with
  | full n hn => exact ⟨n, hn, by simp⟩
  | growing n hn => simpa using congrArg List.getLast? hf

/-- **Emptying a slot makes room.** -/
theorem count_lt {x : Bool} {m : Nat} (h : Operands bound (xs ++ x :: ys)) (hm : bound = some m) :
    (xs ++ true :: ys).count false < m := by
  generalize hf : xs ++ x :: ys = flags at h
  have hx := List.count_le_length (a := false) (l := xs)
  have hy := List.count_le_length (a := false) (l := ys)
  cases h with
  | full n hn =>
    have hlen := congrArg List.length hf
    have hnm : n = m := Option.some.inj (hn.symm.trans hm)
    simp at hlen ⊢
    omega
  | growing n hn =>
    have hcount := congrArg (List.count false) hf
    have hnm := hn m hm
    simp [List.count_cons] at hcount ⊢
    omega

end Operands

theorem map_isEmpty_connectedSlots (b : Block) :
    b.connectedSlots.map Slot.isEmpty = List.replicate b.connectedSlots.length false := by
  rw [List.eq_replicate_iff]
  refine ⟨by simp, fun x hx => ?_⟩
  obtain ⟨s, hs, rfl⟩ := List.mem_map.mp hx
  simpa using (List.mem_filter.mp hs).2

end Block

end AccessTree
