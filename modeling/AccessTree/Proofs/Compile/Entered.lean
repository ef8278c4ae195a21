import AccessTree.Proofs.Block.Place
import AccessTree.Proofs.Chain
import AccessTree.Proofs.Compile.Gist

/-! # How a number is entered

A slot of a condition block that asks for an integer may hold it as a number, as a floating point
number that is equal to it, as a text that spells it, or not at all if a block is connected that
holds it in one of these forms. All of them are the same gist, so a composition is compiled alike
whichever is entered (`workspace_entered`). The expected value of a contract call may be something
else than an integer, so a floating point number stays one there. -/

namespace AccessTree

/-! ### Entries -/

/-- **The literals that are an integer** in the slot of an id. -/
inductive Literal.Writes (slot : String) (n : Int) : Literal → Prop where
  | number {l : Literal} (hslot : slot ∈ Compile.numberSlots) (h : l.Denotes n) : Writes slot n l
  | expectedInt (hslot : slot = "expectedValue") : Writes slot n (.int n)
  | expectedText {s : String} (hslot : slot = "expectedValue") (h : Text.Spells s n) :
    Writes slot n (.text s)

/-- **An integer is entered in a slot**, in the slot itself or by a block connected to it that has no
children; the id of that block is none of those that are taken. -/
inductive Slot.Enters (taken : List String) (n : Int) (s : Slot) : Slot → Prop where
  | own {l : Literal} (h : l.Writes s.id n) : Enters taken n s { s with value := some l }
  | connected {l : Literal} {blank : Option Literal} {v : Block} (h : l.Writes s.id n)
      (hblank : Literal.entered? blank = none) (hvalue : v.value = some l)
      (hchildren : v.children = []) (hnew : v.id ∉ taken) :
    Enters taken n s { s with value := blank, connected := some v }

namespace Literal

theorem isEntered_of_spells {s : String} {n : Int} (h : Text.Spells s n) :
    (Literal.text s).isEntered = true := by
  have hblank := Chain.not_blank_of_hasValue h.hasValue
  rw [← Chain.isOpen_iff] at hblank
  simpa [Chain.isOpen, isEntered] using hblank

theorem Denotes.isEntered {n : Int} {l : Literal} (h : l.Denotes n) : l.isEntered = true := by
  cases h with
  | int | float => rfl
  | text h => exact isEntered_of_spells h

theorem Writes.isEntered {slot : String} {n : Int} {l : Literal} (h : l.Writes slot n) :
    l.isEntered = true := by
  cases h with
  | number hslot h => exact h.isEntered
  | expectedInt => rfl
  | expectedText hslot h => exact isEntered_of_spells h

/-- **All forms of an integer** are read as it. -/
theorem Writes.gist {slot : String} {n : Int} {l : Literal} (h : l.Writes slot n) :
    l.gist slot = .int n := by
  cases h with
  | number hslot h => exact gist_of_number hslot h
  | expectedInt hslot =>
    subst hslot
    exact gist_expectedValue (Compile.integerOrLiteral_eq_int.mpr (.inl rfl))
  | expectedText hslot h =>
    subst hslot
    exact gist_expectedValue (Compile.integerOrLiteral_eq_int.mpr (.inr ⟨_, rfl, h⟩))

theorem Writes.entered? {slot : String} {n : Int} {l : Literal} (h : l.Writes slot n) :
    Literal.entered? (some l) = some l := Option.filter_eq_some_iff.mpr ⟨rfl, h.isEntered⟩

end Literal

namespace Slot.Enters

variable {taken : List String} {n : Int} {s t : Slot}

/-- What is read of a slot does not show how an integer was entered. -/
theorem gist_eq (h : s.Enters taken n t) :
    t.gist = ⟨s.id, [], "", some (.int n), s.comparator, none, none⟩ := by
  cases h with
  | own h => rw [Slot.gist, Slot.entered?, h.entered?, Option.some_or, Option.map_some, h.gist]
  | connected h hblank hvalue =>
    rw [Slot.gist, Slot.entered?, hblank, Option.none_or, Option.bind_some, hvalue, h.entered?,
      Option.map_some, h.gist]

/-- No block of an id that is taken is connected. -/
theorem notMem_blocks (h : s.Enters taken n t) (hs : s.connected = none) {x : String}
    (hx : x ∈ taken) : x ∉ t.blocks.map Block.id := by
  cases h with
  | @own l h =>
    have hnone : ({ s with value := some l } : Slot).blocks = [] := Slot.blocks_of_none hs
    rw [hnone]
    exact List.not_mem_nil
  | @connected l blank v h hblank hvalue hchildren hnew =>
    rw [Slot.blocks_of_some rfl, Block.nested_eq_children, hchildren, List.flatMap_nil,
      List.map_singleton, List.mem_singleton]
    rintro rfl
    exact hnew hx

/-- Of the ids that are taken, the same are connected below the block of the slot. -/
theorem mem_descendants {b : Block} {pre post : List Slot} (h : s.Enters taken n t)
    (hb : b.slots = pre ++ s :: post) (hs : s.connected = none) {x : String} (hx : x ∈ taken) :
    x ∈ ({ b with slots := pre ++ t :: post } : Block).descendants.map Block.id ↔
      x ∈ b.descendants.map Block.id := by
  have ht := h.notMem_blocks hs hx
  rw [Block.descendants_eq, Block.descendants_eq, hb]
  simp only [List.flatMap_append, List.flatMap_cons, List.map_append, List.mem_append, ht, false_or,
    Slot.blocks_of_none hs, List.nil_append]

end Slot.Enters

/-! ### Places -/

/-- A block with another one of the same gist below it. -/
theorem Frame.gist_fill (f : Frame) {b c : Block} (h : b.gist = c.gist) :
    (f.fill b).gist = (f.fill c).gist := by
  -- of a connected block, a condition block looks at the literal only
  have hvalue : b.value = c.value := by rw [← Block.gist_value, h, Block.gist_value]
  have hread : ({ f.slot with connected := some b } : Slot).gist =
      ({ f.slot with connected := some c } : Slot).gist := by
    rw [Slot.gist, Slot.gist, Slot.entered?, Slot.entered?, Option.bind_some, Option.bind_some,
      hvalue]
  have hoperand : ({ f.slot with connected := some b } : Slot).operandGist =
      ({ f.slot with connected := some c } : Slot).operandGist := by
    rw [Slot.operandGist, Slot.operandGist, Option.map_some, Option.map_some, h]
  refine Block.gist_congr f.block (fun _ => ?_) fun _ => ?_
  · simp only [List.map_append, List.map_cons, hread]
  · simp only [List.map_append, List.map_cons, hoperand]

theorem Block.gist_within (fs : List Frame) {b c : Block} (h : b.gist = c.gist) :
    (b.within fs).gist = (c.within fs).gist := by
  induction fs generalizing b c with
  | nil => exact h
  | cons f fs ih => exact ih (f.gist_fill h)

theorem Place.map_gist_fill (p : Place) {b c : Block} (h : b.gist = c.gist) :
    (p.fill b).map Block.gist = (p.fill c).map Block.gist := by
  rw [fill, fill, List.map_append, List.map_append, List.map_cons, List.map_cons,
    Block.gist_within p.frames h]

namespace Compile

/-- **How an integer is entered does not matter.** Every block of a composition has a place, and if
it is a condition block there and nothing is connected to one of its slots, any two ways to enter the
same integer in that slot give the same condition, or faults of the same class. -/
theorem workspace_entered (mode : CompileMode) {blocks : List Block} {b : Block}
    (hb : b ∈ blocks.flatMap Block.nested) (hk : b.kind = .condition) {pre post : List Slot}
    {s : Slot} (hslots : b.slots = pre ++ s :: post) (hs : s.connected = none) (n : Int) :
    (∃ p : Place, p.fill b = blocks) ∧ ∀ p : Place, p.fill b = blocks →
      ∀ t u, s.Enters (blocks.flatMap Block.ids) n t → s.Enters (blocks.flatMap Block.ids) n u →
        (workspace mode (p.fill { b with slots := pre ++ t :: post })).result.mapError className =
          (workspace mode (p.fill { b with slots := pre ++ u :: post })).result.mapError
            className := by
  refine ⟨exists_place hb, ?_⟩
  rintro p rfl t u ht hu
  have hgist : Block.gist { b with slots := pre ++ t :: post } =
      Block.gist { b with slots := pre ++ u :: post } :=
    Block.gist_congr b
      (fun _ => by simp only [List.map_append, List.map_cons, ht.gist_eq, hu.gist_eq])
      fun hoperator => by cases hk.symm.trans hoperator
  -- an id at the top is taken, so it does not matter which new ids are connected
  have hconnected : ∀ {r : Slot}, s.Enters ((p.fill b).flatMap Block.ids) n r →
      ∀ x ∈ (p.fill b).map Block.id,
        x ∈ Block.connectedIds (p.fill { b with slots := pre ++ r :: post }) ↔
          x ∈ Block.connectedIds (p.fill b) := by
    intro r hr x hx
    obtain ⟨c, hc, rfl⟩ := List.mem_map.mp hx
    have htaken : c.id ∈ (p.fill b).flatMap Block.ids :=
      List.mem_flatMap.mpr ⟨c, hc, by rw [Block.ids_eq]; exact List.mem_cons_self⟩
    exact p.mem_connectedIds rfl (hr.mem_descendants hslots hs htaken)
  refine workspace_of_gist_eq mode (p.map_gist_fill hgist) fun c hc => ?_
  have hid : c.id ∈ (p.fill b).map Block.id := by
    rw [p.map_id_fill (b := b) (c := { b with slots := pre ++ t :: post }) rfl]
    exact List.mem_map_of_mem hc
  rw [hconnected ht _ hid, hconnected hu _ hid]

/-- A block that holds a literal. -/
def literalBlock (id : String) (l : Literal) : Block := ⟨id, .value, "", "", [], [], some l, false⟩

/-- The number of a chain as a floating point number. -/
def polygonFloat : Binary64 := .finite false (137 <<< 45) 1029 (by decide)

/-- The chain of a negated time block is entered as a padded text, or as a floating point number that
a block holds which is connected to the slot; a truth value in the slot counts for nothing. -/
theorem workspace_entered_negation :
    (workspace ⟨true, .ok .sepolia⟩
      [negation "not" [timeBlock "time" (some (.text " +00137\t"))]]).result.mapError className =
        .ok (some (.compound .not [.time .polygon atLeastZero])) ∧
    (workspace ⟨true, .ok .sepolia⟩ [negation "not" [{ timeBlock "time" none with slots :=
      [⟨"chain", [], "", some (.flag true), none, none,
        some (literalBlock "value" (.float polygonFloat))⟩] }]]).result.mapError className =
        .ok (some (.compound .not [.time .polygon atLeastZero])) := by
  have htext : Text.Spells " +00137\t" 137 :=
    @Text.spells_padded 137 [' '] ['\t'] ['+'] 2 (List.forall_mem_singleton.mpr (by decide))
      (List.forall_mem_singleton.mpr (by decide)) (.inr (.inl ⟨rfl, by decide⟩)) (by decide)
  have hfloat : polygonFloat.toInt? = some 137 := by decide
  have hnested : timeBlock "time" none ∈
      [negation "not" [timeBlock "time" none]].flatMap Block.nested :=
    List.mem_cons_of_mem _ List.mem_cons_self
  have hslots : (timeBlock "time" none).slots =
      [] ++ ⟨"chain", [], "", none, none, none, none⟩ :: [] := rfl
  have hsame := (workspace_entered ⟨true, .ok .sepolia⟩ hnested rfl hslots rfl 137).2
    ⟨[], [⟨negation "not" [], [], ⟨"time", [], "", none, none, none, none⟩, []⟩], []⟩ rfl
    ⟨"chain", [], "", some (.text " +00137\t"), none, none, none⟩
    ⟨"chain", [], "", some (.flag true), none, none,
      some (literalBlock "value" (.float polygonFloat))⟩
    (.own (.number (by decide) (.text htext)))
    (.connected (.number (by decide) (.float hfloat)) rfl rfl rfl (by decide))
  have hfirst : (workspace ⟨true, .ok .sepolia⟩
      [negation "not" [timeBlock "time" (some (.text " +00137\t"))]]).result.mapError className =
        .ok (some (.compound .not [.time .polygon atLeastZero])) := by rfl
  exact ⟨hfirst, hsame.symm.trans hfirst⟩

end Compile

end AccessTree
