import AccessTree.Block.Basic

/-! # Growth slots

An operator grows by an empty slot, its growth slot, whose id is `condition-` and a number. A new
growth slot takes the number after the greatest one among the slots that are there, so that its id
is new. -/

namespace AccessTree.Slot

/-- What the ids of growth slots start with. -/
def growthStem : String := "condition-"

/-- The digits of the number of a growth slot, if the id is that of one. -/
def growthDigits? (s : Slot) : Option (List Nat) := Text.numbered? growthStem s.id

/-- The growth slot with a number. -/
def growth (number : String) : Slot :=
  ⟨growthStem ++ number, [.condition, .operator], "Add Condition", none, none, none, none⟩

/-- The greatest number among the ids of slots, zero if none has one. -/
def greatestNumber (slots : List Slot) : Except NumeralFault Nat := do
  let numbers ← (slots.filterMap growthDigits?).mapM Text.readDigits
  return numbers.foldl max 0

/-- **A growth slot whose id none of the slots has.** -/
def nextGrowth (slots : List Slot) : Except NumeralFault Slot := do
  let greatest ← greatestNumber slots
  let number ← Text.writeInt (greatest + 1 : Nat)
  return growth number

end AccessTree.Slot
