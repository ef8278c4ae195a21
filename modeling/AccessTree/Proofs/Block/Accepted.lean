import AccessTree.Proofs.Block.WellFormed

/-! # Blocks that pass the checks of their slots

The check of the slots of an operator asks that all of them are connected but the last one, and that
one too if the bound is reached (`checkGrowth_eq_ok_iff`); the check of the parameter slots of a block
asks that they are counted if there are any (`checkParameters_eq_ok_iff`). That is less than to be
orderly: an operator that passes may have operands beyond its bound and parameter slots, and the
slots of a block may share an id. Only the outline of a block matters here, too
(`checkSlots_of_outline`). -/

namespace AccessTree

/-- A value is equal to one number at most. -/
theorem Json.isNumber_unique {v : Json} {m n : Int} (hm : v.isNumber m = true)
    (hn : v.isNumber n = true) : m = n := by
  cases v <;> simp_all [isNumber]

namespace Block

/-- **A block passes the check of its parameter slots** if it has none or counts them. -/
theorem checkParameters_eq_ok_iff {b : Block} : b.checkParameters = .ok () ↔
    (b.slots.filterMap Slot.parameterDigits? ≠ [] →
      Counted (b.slots.filterMap Slot.parameterDigits?) (b.property "parameterCount")) := by
  by_cases hd : b.slots.filterMap Slot.parameterDigits? = []
  · have hnone : b.parameterNumbers = .ok [] := by rw [parameterNumbers, hd]; rfl
    simp [checkParameters, hnone, hd]
  · rw [counted_iff, isParameter_eq_false_iff]
    simp [hd]

/-- **Only the outline of a block matters.** -/
theorem checkSlots_of_outline {b c : Block} (h : b.outline = c.outline) :
    b.checkSlots = .ok () ↔ c.checkSlots = .ok () := by
  obtain ⟨hk, hp, hs⟩ := Outline.mk.inj h
  have hflags := map_isEmpty_eq_of_outline hs
  have hlen : b.connectedSlots.length = c.connectedSlots.length := by
    rw [length_connectedSlots, length_connectedSlots, hflags]
  have hfull : b.isFull = c.isFull := by rw [isFull, isFull, maxInputs_congr hp, hlen]
  rw [checkSlots_eq_ok_iff, checkSlots_eq_ok_iff, hk, checkGrowth_eq_ok_iff, checkGrowth_eq_ok_iff,
    hflags, hlen, hfull, checkParameters_eq_ok_iff, checkParameters_eq_ok_iff,
    filterMap_parameterDigits?, filterMap_parameterDigits?, map_id_eq_of_outline hs,
    property_congr hp]

end Block

end AccessTree
