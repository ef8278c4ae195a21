import AccessTree.Proofs.Compile.Gist

/-! # What a connected block supplies

A condition block reads of a slot the literal of the slot itself, or else the literal of the block
that is connected to it. Of that block it looks at nothing but the literal, so a condition or an
operator supplies one just as a value block does. If a literal is entered in the slot itself, or none
in the connected block, the block might as well be taken off, and otherwise its literal might as well
be entered in the slot itself (`block_supplied`). -/

namespace AccessTree

/-- Slots of one id and one comparator are read alike if the same is entered in them. -/
theorem Slot.gist_congr {s t : Slot} (hid : s.id = t.id) (hcomparator : s.comparator = t.comparator)
    (hentered : s.entered? = t.entered?) : s.gist = t.gist := by
  rw [gist, gist, hid, hcomparator, hentered]

namespace Compile

/-- What becomes of a condition block depends on what is read of its slots only. -/
theorem block_of_gist_slot (mode : CompileMode) {b : Block} (hk : b.kind = .condition)
    {pre post : List Slot} {s t : Slot} (hslots : b.slots = pre ++ s :: post)
    (h : s.gist = t.gist) : (block mode b).result.mapError className =
      (block mode { b with slots := pre ++ t :: post }).result.mapError className := by
  have hread : b.slots.map Slot.gist = (pre ++ t :: post).map Slot.gist := by
    rw [hslots, List.map_append, List.map_cons, h, List.map_append, List.map_cons]
  have hgist : b.gist = Block.gist { b with slots := pre ++ t :: post } := by
    obtain ⟨id, kind, category, label, properties, slots, value, isTemplate⟩ := b
    exact Block.gist_congr ⟨id, kind, category, label, properties, slots, value, isTemplate⟩
      (fun _ => hread) fun hoperator => by cases hk.symm.trans hoperator
  have hb := (block_gist mode b).className
  rw [hgist] at hb
  exact hb.symm.trans (block_gist mode _).className

/-- **A connected block supplies its literal**, whatever kind of block it is. A condition block with a
block connected to a slot has the same condition, or fails with a fault of the same class, as without
it if a literal is entered in the slot itself, or none in the connected block. If none is entered in
the slot itself, the condition is the one for the literal of the connected block in its place. -/
theorem block_supplied (mode : CompileMode) {b : Block} (hk : b.kind = .condition)
    {pre post : List Slot} {s : Slot} (hslots : b.slots = pre ++ s :: post) {c : Block}
    (hc : s.connected = some c) :
    (Literal.entered? s.value ≠ none ∨ Literal.entered? c.value = none →
      (block mode b).result.mapError className =
        (block mode { b with slots :=
          pre ++ { s with connected := none } :: post }).result.mapError className) ∧
    (Literal.entered? s.value = none →
      (block mode b).result.mapError className =
        (block mode { b with slots :=
          pre ++ { s with value := c.value, connected := none } :: post }).result.mapError
            className) := by
  have hentered : s.entered? = (Literal.entered? s.value).or (Literal.entered? c.value) := by
    rw [Slot.entered?, hc, Option.bind_some]
  constructor
  · intro h
    refine block_of_gist_slot mode hk hslots (Slot.gist_congr rfl rfl ?_)
    rw [hentered, Slot.entered?, Option.bind_none]
    rcases h with h | h
    · obtain ⟨l, hl⟩ := Option.ne_none_iff_exists'.mp h
      rw [hl, Option.some_or, Option.some_or]
    · rw [h]
      rfl
  · intro h
    refine block_of_gist_slot mode hk hslots (Slot.gist_congr rfl rfl ?_)
    rw [hentered, Slot.entered?, Option.bind_none, h, Option.none_or]
    exact Option.or_none.symm

/-- A time block with another time block, which holds a literal, connected to its chain slot. -/
def nestedTime (own held : Option Literal) : Block :=
  { timeBlock "outer" own with slots :=
    [⟨"chain", [], "", own, none, none, some { timeBlock "inner" none with value := held }⟩] }

/-- The chain that the connected block holds gives way to one in the slot itself, and is the chain of
the condition if the slot is blank. -/
theorem block_supplied_time :
    (block ⟨true, .ok .sepolia⟩
      (nestedTime (some (.int 1)) (some (.text "137")))).result.mapError className =
        .ok (some (.time .mainnet atLeastZero)) ∧
    (block ⟨true, .ok .sepolia⟩
      (nestedTime (some (.text " ")) (some (.text "137")))).result.mapError className =
        .ok (some (.time .polygon atLeastZero)) := by
  have hslots : ∀ own held, (nestedTime own held).slots = [] ++
      ⟨"chain", [], "", own, none, none, some { timeBlock "inner" none with value := held }⟩ :: [] :=
    fun _ _ => rfl
  have hown := (block_supplied ⟨true, .ok .sepolia⟩ rfl
    (hslots (some (.int 1)) (some (.text "137"))) rfl).1 (.inl (by decide))
  have hheld := (block_supplied ⟨true, .ok .sepolia⟩ rfl
    (hslots (some (.text " ")) (some (.text "137"))) rfl).2 (by decide)
  exact ⟨hown.trans (by rfl), hheld.trans (by rfl)⟩

/-- **A condition block supplies a chain.** Without it, the condition is checked on another one. -/
theorem condition_supplies_chain : ∃ (b c : Block) (s : Slot),
    b.kind = .condition ∧ b.slots = [s] ∧ s.connected = some c ∧ c.kind = .condition ∧
      (block ⟨false, .ok .sepolia⟩ b).result = .ok (some (.time .polygon atLeastZero)) ∧
      (block ⟨false, .ok .sepolia⟩ { b with slots := [{ s with connected := none }] }).result =
        .ok (some (.time .sepolia atLeastZero)) :=
  ⟨nestedTime none (some (.text "137")), _, _, rfl, rfl, rfl, rfl, by rfl, by rfl⟩

end Compile

end AccessTree
