import AccessTree.Edit.Basic
import AccessTree.Proofs.Block.Path
import AccessTree.Proofs.Text.Numeral
import Mathlib.Data.List.Basic
import Mathlib.Data.List.Sort

/-! # Well-formed block trees

`checkInvariants` accepts a tree if its ids are distinct and the slots of each of its blocks are in
order (`checkInvariants_eq_ok_iff`). Edits keep this only together with what `WellFormed` adds: the
ids of slots are distinct too, an operator has neither parameter slots nor operands beyond its
bound, and a block without parameter slots counts none.

What `WellFormed` asks of a single block is `Orderly`. Of the slots of an operator it says that they
are connected up to the last one, which is empty unless the bound is reached (`Operands`), and of
the numbers of parameter slots that they are a permutation of `0, …, n - 1`, counted by the property
`parameterCount` (`Counted`). A block is orderly if and only if its outline is, so it stays orderly
when other blocks take the place of those connected to it (`Orderly.of_outline`). -/

namespace AccessTree.Block

/-- **A well-formed tree.** -/
structure WellFormed (root : Block) : Prop where
  accepted : root.checkInvariants = .ok ()
  distinct : ∀ b ∈ root.nested, (b.slots.map Slot.id).Nodup
  noParameter : ∀ b ∈ root.nested, b.kind = .operator → ∀ s ∈ b.slots, s.isParameter = false
  bounded : ∀ b ∈ root.nested, b.kind = .operator → ∀ n, b.maxInputs = some n →
    b.connectedSlots.length ≤ n
  uncounted : ∀ b ∈ root.nested, (∀ s ∈ b.slots, s.isParameter = false) →
    ∀ n, b.property "parameterCount" = .int n → n = 0

/-! ### Blocks in order -/

/-- Which slots of an operator with a bound are empty: none if there are as many slots as the bound
allows, or else the last one. -/
inductive Operands (bound : Option Nat) : List Bool → Prop where
  | full (n : Nat) (h : bound = some n) : Operands bound (List.replicate n false)
  | growing (n : Nat) (h : ∀ m, bound = some m → n < m) :
    Operands bound (List.replicate n false ++ [true])

/-- The digits of the numbers of parameter slots spell numbers without gaps, and `count` is how many
there are. -/
structure Counted (digits : List (List Nat)) (count : Json) : Prop where
  short : ∀ ds ∈ digits, ds.length ≤ Text.maxDigits
  perm : (digits.map Text.ofDigits).Perm (List.range digits.length)
  some : digits ≠ [] → count.isNumber digits.length = true
  none : digits = [] → ∀ n, count = Json.int n → n = 0

/-- **The slots of a block are in order.** -/
structure Orderly (b : Block) : Prop where
  distinct : (b.slots.map Slot.id).Nodup
  operands : b.kind = .operator → Operands b.maxInputs (b.slots.map Slot.isEmpty)
  noParameter : b.kind = .operator → b.slots.filterMap Slot.parameterDigits? = []
  parameters : Counted (b.slots.filterMap Slot.parameterDigits?) (b.property "parameterCount")

theorem map_id_eq_of_outline {xs ys : List Slot} (h : xs.map Slot.outline = ys.map Slot.outline) :
    xs.map Slot.id = ys.map Slot.id := by
  simpa [Slot.outline, Function.comp_def] using congrArg (List.map Prod.fst) h

theorem map_isEmpty_eq_of_outline {xs ys : List Slot}
    (h : xs.map Slot.outline = ys.map Slot.outline) :
    xs.map Slot.isEmpty = ys.map Slot.isEmpty := by
  simpa [Slot.outline, Function.comp_def] using congrArg (List.map Prod.snd) h

/-- The parameter slots can be told from the ids of the slots. -/
theorem filterMap_parameterDigits? (slots : List Slot) :
    slots.filterMap Slot.parameterDigits? =
      (slots.map Slot.id).filterMap (Text.numbered? Slot.parameterStem) := by
  rw [List.filterMap_map]
  rfl

theorem property_congr {b c : Block} (h : b.properties = c.properties) (key : String) :
    b.property key = c.property key := by
  rw [property, property, h]

theorem maxInputs_congr {b c : Block} (h : b.properties = c.properties) :
    b.maxInputs = c.maxInputs := by
  rw [maxInputs, maxInputs, property_congr h]

/-- **Only the outline of a block matters.** -/
theorem Orderly.of_outline {b c : Block} (h : c.outline = b.outline) (hc : c.Orderly) :
    b.Orderly := by
  obtain ⟨hk, hp, hs⟩ := Outline.mk.inj h
  have hids := map_id_eq_of_outline hs
  have hd : c.slots.filterMap Slot.parameterDigits? = b.slots.filterMap Slot.parameterDigits? := by
    rw [filterMap_parameterDigits?, filterMap_parameterDigits?, hids]
  refine ⟨hids ▸ hc.distinct, fun hb => ?_, fun hb => ?_, ?_⟩
  · rw [← maxInputs_congr hp, ← map_isEmpty_eq_of_outline hs]
    exact hc.operands (hk.trans hb)
  · rw [← hd]
    exact hc.noParameter (hk.trans hb)
  · rw [← hd, property, ← hp]
    exact hc.parameters

/-! ### Growth -/

theorem emptyPositions_eq_nil {slots : List Slot} : ∀ {i : Nat}, emptyPositions i slots = [] ↔
    slots.map Slot.isEmpty = List.replicate slots.length false := by
  induction slots with
  | nil => simp [emptyPositions]
  | cons s rest ih =>
    intro i
    rw [emptyPositions]
    cases hs : s.isEmpty with
    | true => simp [hs, List.replicate_succ]
    | false => simp [hs, List.replicate_succ, ih]

/-- Only the last slot is empty. -/
theorem emptyPositions_eq_last {slots : List Slot} {n : Nat} : ∀ {i : Nat},
    slots.length = n + 1 → (emptyPositions i slots = [i + n] ↔
      slots.map Slot.isEmpty = List.replicate n false ++ [true]) := by
  induction slots generalizing n with
  | nil => simp
  | cons s rest ih =>
    intro i hl
    rw [emptyPositions]
    cases n with
    | zero =>
      obtain rfl : rest = [] := List.length_eq_zero_iff.mp (by simpa using hl)
      cases hs : s.isEmpty <;> simp [hs, emptyPositions]
    | succ n =>
      have hr : rest.length = n + 1 := by simpa using hl
      cases hs : s.isEmpty with
      | true => simp [hs, List.replicate_succ]
      | false =>
        rw [if_neg (by simp), show i + (n + 1) = i + 1 + n by omega, ih hr]
        simp [hs, List.replicate_succ]

theorem length_connectedSlots (b : Block) :
    b.connectedSlots.length = (b.slots.map Slot.isEmpty).count false := by
  rw [connectedSlots, ← List.countP_eq_length_filter, List.count, List.countP_map]
  congr 1
  funext s
  cases h : s.isEmpty <;> simp [h]

theorem isFull_iff {b : Block} :
    b.isFull = true ↔ ∃ n, b.maxInputs = some n ∧ n ≤ b.connectedSlots.length := by
  rw [isFull]
  cases b.maxInputs <;> simp

theorem isFull_eq_false_iff {b : Block} :
    b.isFull = false ↔ ∀ n, b.maxInputs = some n → b.connectedSlots.length < n := by
  rw [← Bool.not_eq_true, isFull_iff]
  exact ⟨fun h n hn => Nat.lt_of_not_le fun hle => h ⟨n, hn, hle⟩,
    fun h ⟨n, hn, hle⟩ => Nat.not_le.mpr (h n hn) hle⟩

/-- **An operator passes the check of its slots** if only the last one is empty, or none if the bound
is reached. -/
theorem checkGrowth_eq_ok_iff {b : Block} : b.checkGrowth = .ok () ↔
    b.slots.map Slot.isEmpty =
      List.replicate b.connectedSlots.length false ++ if b.isFull then [] else [true] := by
  cases hfull : b.isFull with
  | true =>
    obtain ⟨n, hn, -⟩ := isFull_iff.mp hfull
    have hcheck : b.checkGrowth = .ok () ↔ emptyPositions 0 b.slots = [] := by
      rw [checkGrowth, hn, hfull]
      by_cases he : emptyPositions 0 b.slots = [] <;> simp [he]
    rw [hcheck, emptyPositions_eq_nil, if_pos rfl, List.append_nil]
    constructor
    · intro h
      rw [length_connectedSlots, h, List.count_replicate_self]
    · intro h
      have hlen : b.slots.length = b.connectedSlots.length := by simpa using congrArg List.length h
      rw [hlen, h]
  | false =>
    have hcheck : b.checkGrowth = .ok () ↔
        b.slots ≠ [] ∧ emptyPositions 0 b.slots = [b.slots.length - 1] := by
      rw [checkGrowth, hfull]
      by_cases he : b.slots ≠ [] ∧ emptyPositions 0 b.slots = [b.slots.length - 1]
      · cases b.maxInputs <;> simp [he]
      · cases b.maxInputs <;> simp [he]
    rw [hcheck, if_neg Bool.false_ne_true]
    constructor
    · rintro ⟨hne, he⟩
      obtain ⟨n, hn⟩ := Nat.exists_eq_add_one_of_ne_zero
        (fun h0 => hne (List.length_eq_zero_iff.mp h0))
      have hf := (emptyPositions_eq_last hn).mp (by rw [he, hn, Nat.add_sub_cancel, Nat.zero_add])
      rw [length_connectedSlots, hf]
      simp
    · intro h
      have hlen : b.slots.length = b.connectedSlots.length + 1 := by
        simpa using congrArg List.length h
      have he := (emptyPositions_eq_last (i := 0) hlen).mpr h
      exact ⟨List.ne_nil_of_length_eq_add_one hlen, by rw [he, hlen, Nat.zero_add, Nat.add_sub_cancel]⟩

/-- **The slots of an operator** that passes the check of its slots and keeps to its bound. -/
theorem operands_iff {b : Block} : Operands b.maxInputs (b.slots.map Slot.isEmpty) ↔
    b.checkGrowth = .ok () ∧ ∀ n, b.maxInputs = some n → b.connectedSlots.length ≤ n := by
  rw [checkGrowth_eq_ok_iff]
  constructor
  · intro h
    generalize hf : b.slots.map Slot.isEmpty = flags at h
    cases h with
    | full n hn =>
      have hc : b.connectedSlots.length = n := by simp [length_connectedSlots, hf]
      have hfull : b.isFull = true := isFull_iff.mpr ⟨n, hn, hc.ge⟩
      refine ⟨by simp [hc, hfull], fun m hm => ?_⟩
      have := Option.some.inj (hn.symm.trans hm)
      omega
    | growing n hn =>
      have hc : b.connectedSlots.length = n := by simp [length_connectedSlots, hf]
      have hfull : b.isFull = false := isFull_eq_false_iff.mpr (hc ▸ hn)
      exact ⟨by simp [hc, hfull], fun m hm => hc ▸ (hn m hm).le⟩
  · rintro ⟨hflags, hb⟩
    rw [hflags]
    cases hfull : b.isFull with
    | true =>
      obtain ⟨n, hn, hle⟩ := isFull_iff.mp hfull
      rw [if_pos rfl, List.append_nil]
      exact .full _ (hn.trans (congrArg some (Nat.le_antisymm hle (hb n hn))))
    | false => exact .growing _ (isFull_eq_false_iff.mp hfull)

/-! ### Parameters -/

theorem isParameter_eq_false_iff {slots : List Slot} :
    (∀ s ∈ slots, s.isParameter = false) ↔ slots.filterMap Slot.parameterDigits? = [] := by
  simp [List.filterMap_eq_nil_iff, Slot.isParameter]

theorem mergeSort_eq_range_iff {numbers : List Nat} {n : Nat} :
    (numbers.mergeSort fun a b => decide (a ≤ b)) = List.range n ↔
      numbers.Perm (List.range n) := by
  constructor
  · intro h
    rw [← h]
    exact (List.mergeSort_perm numbers _).symm
  · intro h
    have hsorted : (numbers.mergeSort fun a b => decide (a ≤ b)).Pairwise (· ≤ ·) := by
      simpa using List.pairwise_mergeSort
        (fun a b c (hab : decide (a ≤ b)) (hbc : decide (b ≤ c)) =>
          decide_eq_true ((of_decide_eq_true hab).trans (of_decide_eq_true hbc)))
        (by simpa using Nat.le_total) numbers
    exact ((List.mergeSort_perm numbers _).trans h).eq_of_pairwise
      (fun a b _ _ => Nat.le_antisymm) hsorted List.pairwise_le_range

/-- The parameter slots of a block that passes their check, where a block without them counts
none. -/
theorem counted_iff {b : Block} :
    Counted (b.slots.filterMap Slot.parameterDigits?) (b.property "parameterCount") ↔
      b.checkParameters = .ok () ∧ ((∀ s ∈ b.slots, s.isParameter = false) →
        ∀ n, b.property "parameterCount" = .int n → n = 0) := by
  rw [isParameter_eq_false_iff, checkParameters, parameterNumbers]
  generalize b.slots.filterMap Slot.parameterDigits? = digits
  cases hr : digits.mapM Text.readDigits with
  | error f =>
    have hl : ¬ ∀ ds ∈ digits, ds.length ≤ Text.maxDigits := fun h => by
      simp [Text.mapM_readDigits_eq_ok.mpr ⟨h, rfl⟩] at hr
    simpa using fun h : Counted _ _ => hl h.short
  | ok numbers =>
    obtain ⟨hl, rfl⟩ := Text.mapM_readDigits_eq_ok.mp hr
    cases digits with
    | nil => exact ⟨fun h => ⟨rfl, h.none⟩, fun h => ⟨by simp, by simp, by simp, h.2⟩⟩
    | cons ds dss =>
      simp only [List.map_cons, ne_eq, mergeSort_eq_range_iff, ite_not]
      rw [← List.map_cons, List.length_map]
      constructor
      · intro h
        refine ⟨?_, fun hn => by simp at hn⟩
        rw [if_pos h.perm, if_pos (h.some (by simp))]
      · rintro ⟨h, -⟩
        split at h
        · next hp =>
          split at h
          · next hc => exact ⟨hl, hp, fun _ => hc, fun hn => by simp at hn⟩
          · cases h
        · cases h

/-! ### Trees -/

theorem checkSlots_eq_ok_iff {b : Block} : b.checkSlots = .ok () ↔
    (b.kind = .operator → b.checkGrowth = .ok ()) ∧ b.checkParameters = .ok () := by
  rw [checkSlots]
  cases b.kind with
  | operator =>
    cases hg : b.checkGrowth <;> simp [bind, Except.bind]
  | condition => simp
  | value => simp

theorem checkAll_eq_ok_iff {blocks : List Block} : ∀ {seen : List String},
    checkAll seen blocks = .ok () ↔ (∀ b ∈ blocks, b.id ∉ seen) ∧ (blocks.map Block.id).Nodup ∧
      ∀ b ∈ blocks, b.checkSlots = .ok () := by
  induction blocks with
  | nil => simp [checkAll]
  | cons b rest ih =>
    intro seen
    rw [checkAll]
    by_cases hb : b.id ∈ seen
    · simp [hb]
    · cases hs : b.checkSlots with
      | error f => simp [hb, hs, bind, Except.bind]
      | ok _ =>
        simp only [List.contains_eq_mem, hb, decide_false, Bool.false_eq_true, if_false, bind,
          Except.bind, ih, List.mem_cons, not_or, List.map_cons, List.nodup_cons, List.mem_map,
          forall_eq_or_imp, hs]
        constructor
        · rintro ⟨hn, hd, hc⟩
          refine ⟨⟨not_false, fun c hcr => (hn c hcr).2⟩, ⟨?_, hd⟩, trivial, hc⟩
          rintro ⟨c, hcr, he⟩
          exact (hn c hcr).1 he
        · rintro ⟨⟨-, hn⟩, ⟨he, hd⟩, -, hc⟩
          exact ⟨fun c hcr => ⟨fun h => he ⟨c, hcr, h⟩, hn c hcr⟩, hd, hc⟩

/-- **The trees that pass all checks.** -/
theorem checkInvariants_eq_ok_iff {root : Block} : root.checkInvariants = .ok () ↔
    root.ids.Nodup ∧ ∀ b ∈ root.nested, b.checkSlots = .ok () := by
  rw [checkInvariants, checkAll_eq_ok_iff, ids]
  simp

/-- What well-formedness asks of a single block. -/
theorem orderly_iff {b : Block} : b.Orderly ↔ b.checkSlots = .ok () ∧
    (b.slots.map Slot.id).Nodup ∧
    (b.kind = .operator → ∀ s ∈ b.slots, s.isParameter = false) ∧
    (b.kind = .operator → ∀ n, b.maxInputs = some n → b.connectedSlots.length ≤ n) ∧
    ((∀ s ∈ b.slots, s.isParameter = false) →
      ∀ n, b.property "parameterCount" = .int n → n = 0) := by
  rw [checkSlots_eq_ok_iff]
  constructor
  · intro h
    obtain ⟨hp, hn⟩ := counted_iff.mp h.parameters
    exact ⟨⟨fun hk => (operands_iff.mp (h.operands hk)).1, hp⟩, h.distinct,
      fun hk => isParameter_eq_false_iff.mpr (h.noParameter hk),
      fun hk => (operands_iff.mp (h.operands hk)).2, hn⟩
  · rintro ⟨⟨hg, hp⟩, hd, hno, hb, hn⟩
    exact ⟨hd, fun hk => operands_iff.mpr ⟨hg hk, hb hk⟩,
      fun hk => isParameter_eq_false_iff.mp (hno hk), counted_iff.mpr ⟨hp, hn⟩⟩

/-- **A tree is well-formed if and only if its ids are distinct and its blocks in order.** -/
theorem wellFormed_iff {root : Block} :
    root.WellFormed ↔ root.ids.Nodup ∧ ∀ b ∈ root.nested, b.Orderly := by
  constructor
  · intro h
    obtain ⟨hids, hc⟩ := checkInvariants_eq_ok_iff.mp h.accepted
    exact ⟨hids, fun b hb => orderly_iff.mpr ⟨hc b hb, h.distinct b hb, h.noParameter b hb,
      h.bounded b hb, h.uncounted b hb⟩⟩
  · rintro ⟨hids, ho⟩
    have ho' := fun b hb => orderly_iff.mp (ho b hb)
    exact ⟨checkInvariants_eq_ok_iff.mpr ⟨hids, fun b hb => (ho' b hb).1⟩,
      fun b hb => (ho' b hb).2.1, fun b hb => (ho' b hb).2.2.1, fun b hb => (ho' b hb).2.2.2.1,
      fun b hb => (ho' b hb).2.2.2.2⟩

end AccessTree.Block
