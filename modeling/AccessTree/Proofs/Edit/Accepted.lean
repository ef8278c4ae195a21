import AccessTree.Catalog
import AccessTree.Edit.History
import AccessTree.Proofs.Block.Accepted
import AccessTree.Proofs.Block.Graft
import AccessTree.Proofs.Edit.Orderly

/-! # Edits of trees that pass the check

The check of the invariants accepts more trees than the well-formed ones, and two kinds of edits lead
from some of these to trees that it refuses. After an edit without new blocks only the edited block
matters (`checkInvariants_replaceAt`). A parameter is added to good effect if the block
`TakesParameter`, and only then (`addParameter_outcome`): an operator never does, since its new slot
is empty, nor does a block that counts parameters without having any. Detaching from an operator
leaves an accepted tree if and only if the operator `Releases` the slot (`detach_outcome`): there
must be room for a growth slot, and of the parameter slots all must stay or none. -/

namespace AccessTree

namespace Block

/-! ### Adding a parameter -/

/-- **A block to which a parameter may be added:** no operator, and none that counts parameters
without having any. -/
structure TakesParameter (b : Block) : Prop where
  kind : b.kind ≠ .operator
  uncounted : (∀ s ∈ b.slots, s.isParameter = false) →
    ∀ n, b.property "parameterCount" = .int n → n ≤ 0

theorem count_true_of_checkGrowth {b : Block} (h : b.checkGrowth = .ok ()) :
    (b.slots.map Slot.isEmpty).count true = if b.isFull then 0 else 1 := by
  rw [checkGrowth_eq_ok_iff.mp h]
  cases b.isFull <;> simp [List.count_append, List.count_replicate]

/-- **An operator has no place for a parameter**, since it has an empty slot too many then. -/
theorem checkGrowth_addParameter_ne {owner edited : Block} (ho : owner.checkGrowth = .ok ())
    (h : owner.addParameter = .ok edited) : edited.checkGrowth ≠ .ok () := by
  intro hedited
  obtain ⟨s, hs, hslots⟩ := addParameter_cases h
  obtain ⟨number, position, -, -, hparameter⟩ := parameterSlot_cases hs
  have hempty : s.isEmpty = true := by rw [hparameter]; rfl
  have hflags : (edited.slots.map Slot.isEmpty).Perm (true :: owner.slots.map Slot.isEmpty) := by
    rw [hslots, ← hempty, ← List.map_cons]
    exact (perm_insertParameter s owner.slots).map Slot.isEmpty
  have hmax : edited.maxInputs = owner.maxInputs := by
    rw [hslots, maxInputs, maxInputs, property, Json.valueAt_setField, if_neg (by decide), property]
  have hlen : edited.connectedSlots.length = owner.connectedSlots.length := by
    rw [length_connectedSlots, length_connectedSlots, hflags.count_eq,
      List.count_cons_of_ne (by decide)]
  have hfull : edited.isFull = owner.isFull := by rw [isFull, isFull, hmax, hlen]
  have hcount := hflags.count_eq true
  rw [List.count_cons_self, count_true_of_checkGrowth ho, count_true_of_checkGrowth hedited,
    hfull] at hcount
  omega

/-- A negative number makes no parameter slot. -/
theorem parameterDigits?_of_neg {s : Slot} {n : Int} (hn : n < 0)
    (hs : s.id = Slot.parameterStem ++ Text.ofInt n) : s.parameterDigits? = none := by
  obtain ⟨k, rfl⟩ := Int.eq_negSucc_of_lt_zero hn
  rw [Slot.parameterDigits?, hs, Text.numbered?_append, Text.ofInt, String.toList_ofList]
  exact Text.lineDigits?_eq_none (by decide)

/-- **A block of another kind** has one for the parameter that it counts next. -/
theorem checkParameters_addParameter {owner edited : Block} (ho : owner.checkParameters = .ok ())
    (h : owner.addParameter = .ok edited) : edited.checkParameters = .ok () ↔
      ((∀ s ∈ owner.slots, s.isParameter = false) →
        ∀ n, owner.property "parameterCount" = .int n → n ≤ 0) := by
  rw [isParameter_eq_false_iff]
  by_cases hcounted : Counted (owner.slots.filterMap Slot.parameterDigits?)
      (owner.property "parameterCount")
  · have hedited := checkParameters_eq_ok_iff.mpr fun _ => counted_addParameter hcounted h
    exact iff_of_true hedited fun hd n hn => (hcounted.none hd n hn).le
  · -- the block counts parameters, and it has none
    have hd : owner.slots.filterMap Slot.parameterDigits? = [] := by
      by_contra hne
      exact hcounted (checkParameters_eq_ok_iff.mp ho hne)
    have hcount : ∃ n, owner.property "parameterCount" = .int n ∧ n ≠ 0 := by
      by_contra hzero
      refine hcounted (hd ▸ ⟨by simp, by simp, by simp, fun _ n hn => ?_⟩)
      by_contra hne
      exact hzero ⟨n, hn, hne⟩
    obtain ⟨n, hn, hne⟩ := hcount
    have hnext : owner.nextParameter = n := by rw [nextParameter, hn]
    obtain ⟨s, hs, rfl⟩ := addParameter_cases h
    obtain ⟨number, position, hnumber, -, hparameter⟩ := parameterSlot_cases hs
    obtain ⟨rfl, -⟩ := Text.writeInt_eq_ok hnumber
    have hid : s.id = Slot.parameterStem ++ Text.ofInt n := by rw [hparameter, hnext]
    have hle : (owner.slots.filterMap Slot.parameterDigits? = [] →
        ∀ m, owner.property "parameterCount" = .int m → m ≤ 0) ↔ n ≤ 0 := by
      simp [hd, hn]
    rw [checkParameters_eq_ok_iff, hle]
    rcases lt_or_gt_of_ne hne with hneg | hpos
    · have hperm := (perm_insertParameter s owner.slots).filterMap Slot.parameterDigits?
      rw [List.filterMap_cons_none (parameterDigits?_of_neg hneg hid), hd, List.perm_nil] at hperm
      exact iff_of_true (fun hsome => absurd hperm hsome) hneg.le
    · have hdigits : s.parameterDigits? = some (Text.charDigits (Text.natChars n.toNat)) := by
        rw [Slot.parameterDigits?, hid, ← Int.toNat_of_nonneg hpos.le, Text.ofInt_natCast,
          Text.numbered?_append_ofNat, Int.toNat_natCast]
      refine iff_of_false (fun hcheck => ?_) (Int.not_le.mpr hpos)
      rw [filterMap_insertParameter hdigits, hd, List.nil_append] at hcheck
      have hperm := (hcheck (List.cons_ne_nil _ _)).perm
      rw [List.map_singleton, Text.ofDigits_charDigits, List.length_singleton] at hperm
      have hzero : n.toNat = 0 := by simpa using hperm
      omega

/-- **What adding a parameter to an accepted block gives.** -/
theorem checkSlots_addParameter {owner edited : Block} (ho : owner.checkSlots = .ok ())
    (h : owner.addParameter = .ok edited) : edited.checkSlots = .ok () ↔ owner.TakesParameter := by
  obtain ⟨hgrowth, hparameters⟩ := checkSlots_eq_ok_iff.mp ho
  have hkind : edited.kind = owner.kind := by
    obtain ⟨s, -, rfl⟩ := addParameter_cases h
    rfl
  rw [checkSlots_eq_ok_iff, hkind, checkParameters_addParameter hparameters h]
  constructor
  · rintro ⟨hedited, hcount⟩
    exact ⟨fun hk => checkGrowth_addParameter_ne (hgrowth hk) h (hedited hk), hcount⟩
  · rintro ⟨hk, hcount⟩
    exact ⟨fun hk' => absurd hk' hk, hcount⟩

/-- **Adding a parameter is refused** if the block has its slot already, or if its number is too long
to be written. -/
theorem addParameter_eq_ok_or (owner : Block) :
    (∃ s ∈ owner.slots,
        owner.addParameter = .error (.slotExists owner.id s.id owner.nextParameter)) ∨
      (∃ f, (Text.writeInt owner.nextParameter = .error f ∨
          Text.writeInt (owner.nextParameter + 1) = .error f) ∧
        owner.addParameter = .error (.numeral f)) ∨
      ∃ edited, owner.addParameter = .ok edited := by
  rw [addParameter, parameterSlot]
  cases hn : Text.writeInt owner.nextParameter with
  | error f => exact Or.inr (Or.inl ⟨f, Or.inl rfl, rfl⟩)
  | ok number =>
    simp only [Except.mapError, bind, Except.bind]
    cases hs : owner.slot? (Slot.parameterStem ++ number) with
    | some s =>
      have hid := (slot?_split hs).1
      exact Or.inl ⟨s, slot?_mem hs, by simp [hid]⟩
    | none =>
      cases hm : Text.writeInt (owner.nextParameter + 1) with
      | error f => exact Or.inr (Or.inl ⟨f, Or.inr rfl, by simp⟩)
      | ok position => exact Or.inr (Or.inr ⟨_, by simp; rfl⟩)

/-! ### Detaching -/

/-- The operands that stay when a slot is emptied. -/
def remaining (b : Block) (slot : String) : List Slot := (b.connect slot none).connectedSlots

/-- **An operator that stays in order when a slot is emptied:** there is room for a growth slot then,
and of its parameter slots all stay or none. -/
structure Releases (b : Block) (slot : String) : Prop where
  room : ∀ n, b.maxInputs = some n → (b.remaining slot).length < n
  parameters : (b.remaining slot).countP Slot.isParameter = 0 ∨
    (b.remaining slot).countP Slot.isParameter = b.slots.countP Slot.isParameter

/-- The operator with the operands that stay and a growth slot. -/
def released (b : Block) (slot : String) (g : Slot) : Block :=
  { b with slots := Slot.relabel 1 (b.remaining slot) ++ [g] }

theorem map_isEmpty_released (b : Block) (slot : String) {g : Slot} (hg : g.isEmpty = true) :
    (b.released slot g).slots.map Slot.isEmpty =
      List.replicate (b.remaining slot).length false ++ [true] := by
  rw [released, List.map_append, map_relabel (fun _ _ => rfl), remaining,
    map_isEmpty_connectedSlots, List.map_singleton, hg]

/-- **There is room for the growth slot** if the check of the slots is passed. -/
theorem checkGrowth_released {b : Block} {slot : String} {g : Slot} (hg : g.isEmpty = true) :
    (b.released slot g).checkGrowth = .ok () ↔
      ∀ n, b.maxInputs = some n → (b.remaining slot).length < n := by
  have hflags := map_isEmpty_released b slot hg
  have hlen : (b.released slot g).connectedSlots.length = (b.remaining slot).length := by
    rw [length_connectedSlots, hflags]
    simp
  have hmax : (b.released slot g).maxInputs = b.maxInputs := maxInputs_congr rfl
  rw [checkGrowth_eq_ok_iff, hflags, hlen, ← hlen, ← hmax, ← isFull_eq_false_iff]
  cases (b.released slot g).isFull <;> simp

theorem countP_isParameter (slots : List Slot) :
    slots.countP Slot.isParameter = (slots.filterMap Slot.parameterDigits?).length := by
  rw [List.countP_eq_length_filter, length_filter_isParameter]

theorem filterMap_parameterDigits?_released (b : Block) (slot : String) {g : Slot}
    (hg : g.parameterDigits? = none) :
    (b.released slot g).slots.filterMap Slot.parameterDigits? =
      (b.remaining slot).filterMap Slot.parameterDigits? := by
  rw [released, List.filterMap_append, filterMap_parameterDigits? (Slot.relabel 1 _),
    map_relabel (fun _ _ => rfl), ← filterMap_parameterDigits?]
  simp [hg]

theorem sublist_parameterDigits?_remaining (b : Block) (slot : String) :
    ((b.remaining slot).filterMap Slot.parameterDigits?).Sublist
      (b.slots.filterMap Slot.parameterDigits?) := by
  rw [filterMap_parameterDigits? b.slots, ← map_id_connect b slot none,
    ← filterMap_parameterDigits?]
  exact List.filter_sublist.filterMap _

/-- **The parameters stay counted** if all of them stay or none. -/
theorem checkParameters_released {b : Block} {slot : String} {g : Slot}
    (hb : b.checkParameters = .ok ()) (hg : g.parameterDigits? = none) :
    (b.released slot g).checkParameters = .ok () ↔
      (b.remaining slot).countP Slot.isParameter = 0 ∨
        (b.remaining slot).countP Slot.isParameter = b.slots.countP Slot.isParameter := by
  have hcount : (b.released slot g).property "parameterCount" = b.property "parameterCount" :=
    property_congr rfl _
  have hsub := sublist_parameterDigits?_remaining b slot
  rw [checkParameters_eq_ok_iff, filterMap_parameterDigits?_released b slot hg, hcount,
    countP_isParameter, countP_isParameter]
  rw [checkParameters_eq_ok_iff] at hb
  generalize (b.remaining slot).filterMap Slot.parameterDigits? = left at hsub ⊢
  generalize b.slots.filterMap Slot.parameterDigits? = digits at hb hsub ⊢
  by_cases hleft : left = []
  · simp [hleft]
  · have hdigits : digits ≠ [] := by
      rintro rfl
      exact hleft (List.sublist_nil.mp hsub)
    have hcounted := hb hdigits
    constructor
    · intro h
      -- the count is the number of the parameters before and after
      exact Or.inr (Int.ofNat.inj
        (Json.isNumber_unique ((h hleft).some hleft) (hcounted.some hdigits)))
    · rintro (hzero | hlen) -
      · exact absurd (List.length_eq_zero_iff.mp hzero) hleft
      · rw [hsub.eq_of_length hlen]
        exact hcounted

theorem checkSlots_released {b : Block} {slot : String} {g : Slot} (hb : b.checkSlots = .ok ())
    (hk : b.kind = .operator) (hg : Slot.nextGrowth (b.remaining slot) = .ok g) :
    (b.released slot g).checkSlots = .ok () ↔ b.Releases slot := by
  obtain ⟨hempty, hparameter, -⟩ := Slot.nextGrowth_eq_ok hg
  have hkind : (b.released slot g).kind = .operator := hk
  rw [checkSlots_eq_ok_iff, checkGrowth_released hempty,
    checkParameters_released (checkSlots_eq_ok_iff.mp hb).2 hparameter]
  exact ⟨fun h => ⟨h.1 hkind, h.2⟩, fun h => ⟨fun _ => h.room, h.parameters⟩⟩

/-- A block of another kind may lose whatever is connected to it. -/
theorem checkSlots_connect_of_ne_operator {b : Block} {slot : String} (hb : b.checkSlots = .ok ())
    (hk : b.kind ≠ .operator) (child : Option Block) :
    (b.connect slot child).checkSlots = .ok () := by
  have hparameters := (checkSlots_eq_ok_iff.mp hb).2
  rw [checkSlots_eq_ok_iff, checkParameters_eq_ok_iff, filterMap_parameterDigits?,
    map_id_connect, ← filterMap_parameterDigits?]
  exact ⟨fun hk' => absurd hk' hk, checkParameters_eq_ok_iff.mp hparameters⟩

end Block

namespace Edit

open Block

/-- **A tree after an edit without new blocks** passes the check if the edited block does. -/
theorem checkInvariants_replaceAt (suffix : Nat → String) (first : Nat) (e : Edit)
    {root owner edited : Block} (hroot : root.checkInvariants = .ok ())
    (howner : root.at? e.path = some owner) (he : e.onBlock suffix first owner = .ok edited)
    (hnew : e.newBlocks suffix first = []) :
    (root.replaceAt e.path edited).checkInvariants = .ok () ↔ edited.checkSlots = .ok () := by
  obtain ⟨hids, hslots⟩ := checkInvariants_eq_ok_iff.mp hroot
  have happly := apply_eq_ok.mpr ⟨owner, edited, howner, he, rfl⟩
  rw [checkInvariants_eq_ok_iff]
  constructor
  · intro h
    exact h.2 edited (mem_nested_of_at? (at?_replaceAt howner edited))
  · intro h
    refine ⟨(ids_apply happly).nodup hids ?_ ?_, fun b hb => ?_⟩
    · simp [newIds, hnew]
    · simp [newIds, hnew]
    · obtain ⟨owner', edited', howner', he', hcases⟩ := nested_apply happly
      obtain rfl := Option.some.inj (howner.symm.trans howner')
      obtain rfl := Except.ok.inj (he.symm.trans he')
      rcases hcases b hb with rfl | hb | hb | ⟨c, hc, before, s, after, d, rest, hs, hd, -, rfl⟩
      · exact h
      · rw [hnew] at hb
        cases hb
      · exact hslots b hb
      · exact (checkSlots_of_outline (outline_withChild hs hd _)).mpr (hslots c hc)

/-- **Adding a parameter to an accepted tree** is refused if the path leaves the tree, if the block
has the slot already, or if the number of the slot is too long to be written. Otherwise it gives a
tree, and the tree is accepted if and only if the block takes a parameter. -/
theorem addParameter_outcome {root : Block} (hroot : root.checkInvariants = .ok ()) (path : Path)
    (suffix : Nat → String) (first : Nat) :
    (root.at? path = none ∧
        ∃ f, (addParameter path).apply suffix first root = .error (.noBlock f)) ∨
      ∃ owner, root.at? path = some owner ∧
        ((∃ s ∈ owner.slots, (addParameter path).apply suffix first root =
            .error (.slotExists owner.id s.id owner.nextParameter)) ∨
          (∃ f, (Text.writeInt owner.nextParameter = .error f ∨
              Text.writeInt (owner.nextParameter + 1) = .error f) ∧
            (addParameter path).apply suffix first root = .error (.numeral f)) ∨
          ∃ next, (addParameter path).apply suffix first root = .ok next ∧
            (next.checkInvariants = .ok () ↔ owner.TakesParameter)) := by
  rw [apply]
  cases howner : root.at? path with
  | none => exact Or.inl ⟨rfl, editAt_of_at?_eq_none howner _⟩
  | some owner =>
    refine Or.inr ⟨owner, rfl, ?_⟩
    rw [editAt_of_at? howner]
    obtain ⟨s, hs, h⟩ | ⟨f, hf, h⟩ | ⟨edited, h⟩ := addParameter_eq_ok_or owner
    · exact Or.inl ⟨s, hs, by rw [h]; rfl⟩
    · exact Or.inr (Or.inl ⟨f, hf, by rw [h]; rfl⟩)
    · refine Or.inr (Or.inr ⟨_, by rw [h]; rfl, ?_⟩)
      have hslots := (checkInvariants_eq_ok_iff.mp hroot).2 owner (mem_nested_of_at? howner)
      exact (checkInvariants_replaceAt suffix first (.addParameter path) hroot howner h
        rfl).trans (checkSlots_addParameter hslots h)

/-- A parameter is added to a contract call under a negation. -/
theorem addParameter_outcome_negatedCall : ∃ call root next : Block,
    Catalog.find? "contract-call" = some call ∧
      (attach [] "condition-1" call).apply History.suffix 1 (Catalog.operatorBlock "not" "NOT"
        [("maxInputs", .int 1)]) = .ok root ∧
      root.checkInvariants = .ok () ∧
      (addParameter ["condition-1"]).apply History.suffix 2 root = .ok next ∧
      next.checkInvariants = .ok () := by
  have hattach : ∃ root, (attach [] "condition-1" Catalog.templates[6]).apply History.suffix 1
      (Catalog.operatorBlock "not" "NOT" [("maxInputs", .int 1)]) = .ok root ∧
        root.checkInvariants = .ok () := ⟨_, rfl, by decide +kernel⟩
  obtain ⟨root, happly, hroot⟩ := hattach
  cases happly
  refine ⟨_, _, _, rfl, rfl, hroot, rfl, ?_⟩
  obtain ⟨h, -⟩ | ⟨owner, howner, ⟨s, -, h⟩ | ⟨f, -, h⟩ | ⟨next, h, hiff⟩⟩ :=
    addParameter_outcome hroot ["condition-1"] History.suffix 2
  · cases h
  · cases h
  · cases h
  · cases h
    cases howner
    refine hiff.mpr ⟨by decide, fun h => ?_⟩
    -- the call has a parameter from the start
    exact absurd (h _ (.tail _ (.tail _ (.tail _ (.head _))))) (by decide)

/-- A block that counts two parameters and has none gets the third one. -/
theorem addParameter_skips_numbers : ∃ root next : Block,
    root = Catalog.conditionBlock "call" "contract" "" [("conditionType", .str "contract"),
      ("parameterCount", .int 2)] [Catalog.chainSlot] ∧
    root.checkInvariants = .ok () ∧
    (addParameter []).apply History.suffix 1 root = .ok next ∧
    next.checkInvariants = .error (.gaps "call" [2]) :=
  ⟨_, _, rfl, by decide, rfl, by decide +kernel⟩

/-- **Detaching from an accepted tree.** A block that is no operator keeps all its slots, and the
tree is accepted. An operator keeps its other operands, in order and labelled anew, with a growth slot
at the end, unless the number of that slot cannot be found or written; and the tree is accepted if and
only if the operator releases the slot. -/
theorem detach_outcome {root owner : Block} {path : Path} {slot : String} {s : Slot}
    (hroot : root.checkInvariants = .ok ()) (howner : root.at? path = some owner)
    (hs : owner.slot? slot = some s) (suffix : Nat → String) (first : Nat) :
    (owner.kind ≠ .operator ∧ ∃ next, (detach path slot).apply suffix first root = .ok next ∧
        next = root.replaceAt path (owner.connect slot none) ∧ next.checkInvariants = .ok ()) ∨
      owner.kind = .operator ∧
        ((∃ f, Slot.nextGrowth (owner.remaining slot) = .error f ∧
            (detach path slot).apply suffix first root = .error (.numeral f)) ∨
          ∃ g next, Slot.nextGrowth (owner.remaining slot) = .ok g ∧ g.isEmpty = true ∧
            (detach path slot).apply suffix first root = .ok next ∧
            next = root.replaceAt path
              { owner with slots := Slot.relabel 1 (owner.remaining slot) ++ [g] } ∧
            (next.checkInvariants = .ok () ↔ owner.Releases slot)) := by
  have hslots := (checkInvariants_eq_ok_iff.mp hroot).2 owner (mem_nested_of_at? howner)
  rw [apply, editAt_of_at? howner]
  by_cases hk : owner.kind = .operator
  · have hdetach := detachFrom_of_operator path hs hk
    refine Or.inr ⟨hk, ?_⟩
    rw [← remaining] at hdetach
    cases hg : Slot.nextGrowth (owner.remaining slot) with
    | error f =>
      rw [hg] at hdetach
      exact Or.inl ⟨f, rfl, by rw [hdetach]; rfl⟩
    | ok g =>
      have hdone : Block.detachFrom path slot owner = .ok (owner.released slot g) := by
        rw [hdetach, hg]
        rfl
      refine Or.inr ⟨g, _, rfl, (Slot.nextGrowth_eq_ok hg).1, by rw [hdone]; rfl, rfl, ?_⟩
      exact (checkInvariants_replaceAt suffix first (.detach path slot) hroot howner hdone
        rfl).trans (checkSlots_released hslots hk hg)
  · have hdetach : Block.detachFrom path slot owner = .ok (owner.connect slot none) := by
      rw [detachFrom, requireSlot_eq_ok.mpr hs]
      exact if_neg hk
    refine Or.inl ⟨hk, _, by rw [hdetach]; rfl, rfl, ?_⟩
    exact (checkInvariants_replaceAt suffix first (.detach path slot) hroot howner hdetach
      rfl).mpr (checkSlots_connect_of_ne_operator hslots hk none)

/-- A conjunction with a bound whose operands are connected to growth slots with some numbers. -/
def conjunction (bound : Int) (numbers : List String) : Block :=
  { Catalog.operatorBlock "and" "AND" [("maxInputs", .int bound)] with
    slots := numbers.map fun n =>
      { Slot.growth n with connected := some (Catalog.chainBlock n "" .mainnet) } }

/-- One of three operands of a conjunction of three at most is detached. -/
theorem detach_outcome_middle : ∃ next : Block,
    (conjunction 3 ["1", "2", "4"]).checkInvariants = .ok () ∧
      (detach [] "condition-2").apply History.suffix 1 (conjunction 3 ["1", "2", "4"]) = .ok next ∧
      next.slots.map Slot.id = ["condition-1", "condition-4", "condition-5"] ∧
      next.checkInvariants = .ok () := by
  have hroot : (conjunction 3 ["1", "2", "4"]).checkInvariants = .ok () := by decide
  have howner : (conjunction 3 ["1", "2", "4"]).at? [] = some _ := rfl
  have hslot : (conjunction 3 ["1", "2", "4"]).slot? "condition-2" = some _ := rfl
  obtain ⟨hk, -⟩ | ⟨-, ⟨f, hf, -⟩ | ⟨g, next, hg, -, h, hnext, hiff⟩⟩ :=
    detach_outcome hroot howner hslot History.suffix 1
  · exact absurd rfl hk
  · cases hf
  · refine ⟨next, hroot, h, ?_, hiff.mpr ⟨?_, Or.inl rfl⟩⟩
    · cases hg
      rw [hnext]
      rfl
    · rintro n ⟨⟩
      decide

/-- A conjunction of one operand at most that has two of them keeps one and an empty slot. -/
theorem detach_exceeds_bound : ∃ next : Block,
    (conjunction 1 ["1", "2"]).checkInvariants = .ok () ∧
      (detach [] "condition-1").apply History.suffix 1 (conjunction 1 ["1", "2"]) = .ok next ∧
      next.checkInvariants = .error (.openBeyondBound "and" 1) :=
  ⟨_, by decide, rfl, by decide +kernel⟩

end Edit

end AccessTree
