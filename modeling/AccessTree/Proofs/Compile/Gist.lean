import AccessTree.Proofs.Block.Path
import AccessTree.Proofs.Compile.Chain
import AccessTree.Proofs.Compile.Renamed
import AccessTree.Proofs.Except

/-! # What compilation reads of a block

The `gist` of a condition block keeps of each slot what was entered there, wherever it was entered,
and where an integer is asked for only which integer it is; the gist of an operator keeps what is
connected to it. A block has the condition that its gist has, or both fail, and then at most the
chain that a fault quotes is written in another way (`block_gist`). Two compositions of the same
gists, whose blocks stand at the top alike, are therefore compiled alike (`workspace_of_gist_eq`). -/

namespace AccessTree

/-! ### Literals -/

/-- An integer that is a floating point number has far fewer digits than can be written. -/
theorem Binary64.natAbs_lt_of_toInt? {x : Binary64} {n : Int} (h : x.toInt? = some n) :
    n.natAbs < 10 ^ Text.maxDigits := by
  cases x with
  | nan | infinite => cases h
  | finite negative m e hc =>
    have he : e ≤ 2045 := hc.2.1
    have habs : n.natAbs = m <<< e / one := by
      rw [toInt?] at h
      split at h
      · cases h
        cases negative
        · rfl
        · exact Int.natAbs_neg _
      · cases h
    calc n.natAbs ≤ m <<< e := habs ▸ Nat.div_le_self _ _
      _ = m * 2 ^ e := Nat.shiftLeft_eq m e
      _ < 2 ^ 53 * 2 ^ e := Nat.mul_lt_mul_of_pos_right (by simpa using hc.1) (Nat.two_pow_pos e)
      _ = 2 ^ (53 + e) := (Nat.pow_add 2 53 e).symm
      _ ≤ 10 ^ (53 + e) := Nat.pow_le_pow_left (by decide) _
      _ ≤ 10 ^ Text.maxDigits := Nat.pow_le_pow_right (by decide) (by rw [Text.maxDigits]; omega)

theorem Json.isWritable_int_of_lt {n : Int} (h : n.natAbs < 10 ^ Text.maxDigits) :
    (Json.int n).isWritable = true := by
  rw [isWritable, Text.writeInt, if_neg (Nat.not_lt.mpr (Text.length_natChars_le_iff.mpr h))]
  rfl

/-- A literal can be written exactly if the integer can that it denotes. -/
theorem Literal.Denotes.isWritable {l : Literal} {n : Int} (h : l.Denotes n) :
    l.toJson.isWritable = (Json.int n).isWritable := by
  cases h with
  | int => rfl
  | float h => exact (Json.isWritable_int_of_lt (Binary64.natAbs_lt_of_toInt? h)).symm
  | text h => exact (Json.isWritable_int_of_lt h.natAbs_lt).symm

namespace Compile

/-- The slots that nothing but an integer is read from. -/
def numberSlots : List String :=
  ["chain", "minTimestamp", "timestamp", "minBalance", "tokenAmount", "tokenId"]

theorem literalInt?_eq_some {l : Literal} {n : Int} :
    literalInt? l = .ok (some n) ↔ l.Denotes n := by
  rw [← Chain.enteredInt?_eq_some]
  cases l <;> rfl

theorem integerOrLiteral_eq_int {l : Literal} {n : Int} :
    integerOrLiteral l = .ok (.int n) ↔ l = .int n ∨ ∃ s, l = .text s ∧ Text.Spells s n := by
  cases l with
  | text s =>
    simp only [integerOrLiteral, map_eq_ok, ← Text.readInteger_eq_some_iff]
    constructor
    · rintro ⟨_ | m, hm, ⟨⟩⟩
      exact .inr ⟨s, rfl, hm⟩
    · rintro (⟨⟨⟩⟩ | ⟨_, ⟨⟩, h⟩)
      exact ⟨_, h, rfl⟩
  | int | float | flag => simp [integerOrLiteral, Literal.toJson]

end Compile

namespace Literal

open Compile

/-- The integer that a literal stands for in the slot of an id, if an integer is read there. -/
def integerIn? (slot : String) (l : Literal) : Option Int :=
  if slot ∈ numberSlots then
    match literalInt? l with
    | .ok n => n
    | .error _ => none
  else if slot = "expectedValue" then
    match integerOrLiteral l with
    | .ok (.int n) => some n
    | _ => none
  else none

/-- **What is read of a literal** in the slot of an id. -/
def gist (slot : String) (l : Literal) : Literal := ((l.integerIn? slot).map .int).getD l

theorem gist_of_number {slot : String} (h : slot ∈ numberSlots) {l : Literal} {n : Int}
    (hl : l.Denotes n) : l.gist slot = .int n := by
  rw [gist, integerIn?, if_pos h, literalInt?_eq_some.mpr hl]
  rfl

theorem gist_expectedValue {l : Literal} {n : Int} (h : integerOrLiteral l = .ok (.int n)) :
    l.gist "expectedValue" = .int n := by
  rw [gist, integerIn?, if_neg (by decide), if_pos rfl, h]
  rfl

theorem gist_of_other {slot : String} (hn : slot ∉ numberSlots) (he : slot ≠ "expectedValue")
    (l : Literal) : l.gist slot = l := by
  rw [gist, integerIn?, if_neg hn, if_neg he]
  rfl

/-- A gist is the literal itself or an integer. -/
theorem gist_eq_or (slot : String) (l : Literal) : l.gist slot = l ∨ ∃ n, l.gist slot = .int n := by
  rw [gist]
  cases l.integerIn? slot with
  | none => exact .inl rfl
  | some n => exact .inr ⟨n, rfl⟩

theorem isEntered_gist {l : Literal} (h : l.isEntered = true) (slot : String) :
    (l.gist slot).isEntered = true := by
  rcases gist_eq_or slot l with hl | ⟨n, hl⟩
  · rwa [hl]
  · rw [hl]
    rfl

/-- The integer that a number slot asks for is the same. -/
theorem literalInt?_gist {slot : String} (h : slot ∈ numberSlots) (l : Literal) :
    literalInt? (l.gist slot) = literalInt? l := by
  rcases hl : literalInt? l with f | _ | n
  · rw [gist, integerIn?, if_pos h, hl]
    exact hl
  · rw [gist, integerIn?, if_pos h, hl]
    exact hl
  · rw [gist_of_number h (literalInt?_eq_some.mp hl)]
    rfl

theorem integerOrLiteral_gist (l : Literal) :
    integerOrLiteral (l.gist "expectedValue") = integerOrLiteral l := by
  by_cases h : ∃ n, integerOrLiteral l = .ok (.int n)
  · obtain ⟨n, hn⟩ := h
    rw [gist_expectedValue hn, hn]
    rfl
  · have hnone : l.integerIn? "expectedValue" = none := by
      rw [integerIn?, if_neg (by decide), if_pos rfl]
      split
      · next n hn => exact absurd ⟨n, hn⟩ h
      · rfl
    rw [gist, hnone]
    rfl

theorem entered?_map_gist (slot : String) (o : Option Literal) :
    entered? ((entered? o).map (gist slot)) = (entered? o).map (gist slot) := by
  cases h : entered? o with
  | none => rfl
  | some l => exact Option.filter_eq_some_iff.mpr ⟨rfl, isEntered_gist (isEntered_of_entered? h) slot⟩

end Literal

/-! ### Blocks -/

namespace Slot

/-- **What is read of a slot** of a condition block. -/
def gist (s : Slot) : Slot :=
  ⟨s.id, [], "", s.entered?.map (Literal.gist s.id), s.comparator, none, none⟩

theorem entered?_gist (s : Slot) : s.gist.entered? = s.entered?.map (Literal.gist s.id) := by
  have hown : Literal.entered? s.gist.value = s.entered?.map (Literal.gist s.id) := by
    rw [gist, entered?]
    rcases hv : Literal.entered? s.value with _ | l
    · rw [Option.none_or, Literal.entered?_map_gist]
    · rw [Option.some_or, ← hv, Literal.entered?_map_gist]
  rw [entered?, hown]
  exact Option.or_none

end Slot

mutual
/-- **What is read of a block.** -/
def Block.gist : Block → Block
  | ⟨id, kind, _, _, properties, slots, value, _⟩ =>
    match kind with
    | .value => ⟨id, .value, "", "", properties, [], value, false⟩
    | .condition => ⟨id, .condition, "", "", properties, slots.map Slot.gist, value, false⟩
    | .operator => ⟨id, .operator, "", "", properties, Slot.gists slots, value, false⟩

/-- What is read of the slots of an operator. -/
def Slot.gists : List Slot → List Slot
  | [] => []
  | ⟨id, _, _, _, _, _, none⟩ :: rest => ⟨id, [], "", none, none, none, none⟩ :: Slot.gists rest
  | ⟨id, _, _, _, _, _, some b⟩ :: rest =>
    ⟨id, [], "", none, none, none, some b.gist⟩ :: Slot.gists rest
end

/-- What is read of a slot of an operator. -/
def Slot.operandGist (s : Slot) : Slot :=
  ⟨s.id, [], "", none, none, none, s.connected.map Block.gist⟩

theorem Slot.gists_eq_map (slots : List Slot) : gists slots = slots.map Slot.operandGist := by
  induction slots with
  | nil => rw [gists, List.map_nil]
  | cons s rest ih =>
    obtain ⟨id, accepts, label, value, comparator, inputType, _ | b⟩ := s
    · rw [gists, ih]; rfl
    · rw [gists, ih]; rfl

namespace Block

theorem gist_id (b : Block) : b.gist.id = b.id := by
  obtain ⟨id, kind, _⟩ := b
  cases kind <;> rw [gist]

theorem gist_kind (b : Block) : b.gist.kind = b.kind := by
  obtain ⟨id, kind, _⟩ := b
  cases kind <;> rw [gist]

theorem gist_properties (b : Block) : b.gist.properties = b.properties := by
  obtain ⟨id, kind, _⟩ := b
  cases kind <;> rw [gist]

theorem gist_value (b : Block) : b.gist.value = b.value := by
  obtain ⟨id, kind, _⟩ := b
  cases kind <;> rw [gist]

theorem gist_property (b : Block) (key : String) : b.gist.property key = b.property key := by
  rw [property, gist_properties, property]

theorem gist_slots_of_condition {b : Block} (h : b.kind = .condition) :
    b.gist.slots = b.slots.map Slot.gist := by
  obtain ⟨id, kind, _⟩ := b
  cases h
  rw [gist]

theorem gist_slots_of_operator {b : Block} (h : b.kind = .operator) :
    b.gist.slots = b.slots.map Slot.operandGist := by
  obtain ⟨id, kind, _⟩ := b
  cases h
  rw [gist, Slot.gists_eq_map]

/-- A condition block shows what is read of its slots, and an operator what is connected to them. -/
theorem gist_congr (b : Block) {xs ys : List Slot}
    (hread : b.kind = .condition → xs.map Slot.gist = ys.map Slot.gist)
    (hoperands : b.kind = .operator → xs.map Slot.operandGist = ys.map Slot.operandGist) :
    gist { b with slots := xs } = gist { b with slots := ys } := by
  obtain ⟨id, kind, category, label, properties, slots, value, isTemplate⟩ := b
  cases kind with
  | value => rw [gist, gist]
  | condition => rw [gist, gist, hread rfl]
  | operator => rw [gist, gist, Slot.gists_eq_map, Slot.gists_eq_map, hoperands rfl]

theorem gist_children_of_operator {b : Block} (h : b.kind = .operator) :
    b.gist.children = b.children.map gist := by
  rw [children, gist_slots_of_operator h, List.filterMap_map, children, List.map_filterMap]
  rfl

variable {b : Block} (hk : b.kind = .condition)

include hk

theorem slot?_gist (id : String) : b.gist.slot? id = (b.slot? id).map Slot.gist := by
  rw [slot?, gist_slots_of_condition hk, List.find?_map]
  rfl

theorem entered?_gist (slot : String) :
    b.gist.entered? slot = (b.entered? slot).map (Literal.gist slot) := by
  rw [Block.entered?, slot?_gist hk, Block.entered?]
  cases hs : b.slot? slot with
  | none => rfl
  | some s =>
    rw [Option.map_some, Option.bind_some, Option.bind_some, Slot.entered?_gist,
      (slot?_split hs).1]

/-- Where no integer is asked for, the literal itself is read. -/
theorem entered?_gist_of_other {slot : String} (hn : slot ∉ Compile.numberSlots)
    (he : slot ≠ "expectedValue") : b.gist.entered? slot = b.entered? slot := by
  rw [entered?_gist hk, funext (Literal.gist_of_other hn he)]
  exact Option.map_id'

theorem comparatorOf_gist (slot : String) (default : Comparator) :
    b.gist.comparatorOf slot default = b.comparatorOf slot default := by
  rw [comparatorOf, slot?_gist hk, comparatorOf]
  cases b.slot? slot <;> rfl

end Block

/-! ### Outcomes -/

/-- A fault without the literal that was entered as a chain. -/
def CompileFault.unquoted : CompileFault → CompileFault
  | .chain (.unsupported _) => .chain (.unsupported ⟨.flag false, rfl⟩)
  | f => f

theorem CompileFault.className_unquoted (f : CompileFault) :
    Compile.className f.unquoted = Compile.className f := by
  cases f with
  | chain g => cases g <;> rfl
  | numeral | gap | invalid => rfl

namespace Outcome

variable {α β : Type}

/-- **Outcomes that match**: of the same result, or with faults that differ at most in how a chain
was entered. -/
def Matches (x y : Outcome α) : Prop :=
  x.result.mapError CompileFault.unquoted = y.result.mapError CompileFault.unquoted

theorem Matches.refl (x : Outcome α) : x.Matches x := rfl

theorem Matches.className {x y : Outcome α} (h : x.Matches y) :
    x.result.mapError Compile.className = y.result.mapError Compile.className := by
  have hx : ∀ z : Except CompileFault α,
      z.mapError Compile.className = (z.mapError CompileFault.unquoted).mapError Compile.className := by
    rintro (f | a)
    · exact congrArg Except.error (CompileFault.className_unquoted f).symm
    · rfl
  rw [hx, h, ← hx]

theorem Matches.andThen {x y : Outcome α} {f g : α → Outcome β} (h : x.Matches y)
    (hfg : ∀ a, (f a).Matches (g a)) : (x.andThen f).Matches (y.andThen g) := by
  rw [Matches, result_andThen, result_andThen]
  rw [Matches] at h
  rcases hx : x.result with e | a <;> rcases hy : y.result with e' | a' <;> rw [hx, hy] at h
  · exact congrArg Except.error (Except.error.inj h)
  · cases h
  · cases h
  · cases h
    exact hfg a

theorem Matches.bind {x y : Outcome α} {f g : α → Outcome β} (h : x.Matches y)
    (hfg : ∀ a, (f a).Matches (g a)) : (x >>= f).Matches (y >>= g) := h.andThen hfg

theorem Matches.map {x y : Outcome α} (h : x.Matches y) (f : α → β) : (f <$> x).Matches (f <$> y) :=
  h.andThen fun _ => .refl _

/-- A result where a gap counts as no condition. -/
def passGap : Except CompileFault (Option α) → Except CompileFault (Option α)
  | .error (.gap _) => .ok none
  | r => r

theorem result_orDrop_lenient (w : Gap → Warning) (x : Outcome (Option α)) :
    (orDrop false w x).result = passGap x.result := by
  obtain ⟨us, f | a⟩ := x
  · cases f <;> rfl
  · rfl

theorem mapError_passGap (r : Except CompileFault (Option α)) :
    (passGap r).mapError CompileFault.unquoted = passGap (r.mapError CompileFault.unquoted) := by
  obtain f | a := r
  · cases f with
    | chain g => cases g <;> rfl
    | numeral | gap | invalid => rfl
  · rfl

/-- What matches is dropped alike. -/
theorem Matches.orDrop {x y : Outcome (Option α)} (h : x.Matches y) (strict : Bool)
    (w w' : Gap → Warning) : (orDrop strict w x).Matches (orDrop strict w' y) := by
  cases strict with
  | true => rwa [orDrop_strict, orDrop_strict]
  | false =>
    rw [Matches, result_orDrop_lenient, result_orDrop_lenient, mapError_passGap, mapError_passGap, h]

end Outcome

namespace Compile

open Outcome

variable {mode : CompileMode} {b : Block}

/-! ### Condition blocks -/

theorem slotInt_gist {slot : String} (hslot : slot ∈ numberSlots) (l : Literal) :
    slotInt b.gist slot (l.gist slot) = slotInt b slot l := by
  rw [slotInt, slotInt, Literal.literalInt?_gist hslot]
  rcases hl : literalInt? l with f | _ | n
  · rfl
  · rw [Block.gist_id, Literal.gist, Literal.integerIn?, if_pos hslot, hl]
    rfl
  · rfl

theorem slotJson_gist (slot : String) (l : Literal) :
    slotJson b.gist slot l = slotJson b slot l := by
  rw [slotJson.eq_def, slotJson.eq_def, Block.gist_id]

theorem presetParameters_gist : presetParameters b.gist = presetParameters b := by
  rw [presetParameters, presetParameters, Block.gist_property]

/-- No integer is read from the parameter slots, but the literal itself. -/
theorem gist_of_parameterDigits? {s : Slot} {ds : List Nat} (h : s.parameterDigits? = some ds)
    (l : Literal) : l.gist s.id = l := by
  have hids : ∀ id ∈ "expectedValue" :: numberSlots,
      Text.numbered? Slot.parameterStem id = none := by decide
  have hid : s.id ∉ "expectedValue" :: numberSlots := fun hmem => by
    cases (hids s.id hmem).symm.trans h
  exact Literal.gist_of_other (fun hn => hid (List.mem_cons_of_mem _ hn))
    (fun he => hid (he ▸ List.mem_cons_self)) l

theorem filledSlots_gist (slots : List Slot) :
    filledSlots (slots.map Slot.gist) = filledSlots slots := by
  simp only [filledSlots, List.filterMap_map]
  congr 2
  funext s
  rw [Function.comp_apply, Slot.entered?_gist]
  change (s.parameterDigits?.bind fun digits => _) = s.parameterDigits?.bind fun digits => _
  cases hs : s.parameterDigits? with
  | none => rfl
  | some ds => rw [funext (gist_of_parameterDigits? hs), Option.map_id']

/-- A gist can be written exactly if the literal can. -/
theorem isWritable_gist {slot : String} (hslot : slot ∈ numberSlots) (l : Literal) :
    (l.gist slot).toJson.isWritable = l.toJson.isWritable := by
  rcases hl : literalInt? l with f | _ | n
  · rw [Literal.gist, Literal.integerIn?, if_pos hslot, hl]
    rfl
  · rw [Literal.gist, Literal.integerIn?, if_pos hslot, hl]
    rfl
  · have hdenotes := literalInt?_eq_some.mp hl
    rw [Literal.gist_of_number hslot hdenotes, hdenotes.isWritable]
    rfl

/-- Whichever literal is reported, without it the report is the same. -/
theorem unquoted_faultShowing (l : Literal) :
    (CompileFault.chain (l.toJson.faultShowing (fun h => .unsupported ⟨l, h⟩) .numeral)).unquoted =
      if l.toJson.isWritable then .chain (.unsupported ⟨.flag false, rfl⟩)
      else .chain (.numeral .tooLongToWrite) := by
  rw [Json.faultShowing]
  split <;> rfl

section

variable (hk : b.kind = .condition)

include hk

/-- A chain is the same in whatever form its number was entered. -/
theorem chainOf_gist : (chainOf mode b.gist).Matches (chainOf mode b) := by
  rw [chainOf, Block.entered?_gist hk, chainOf]
  cases hl : b.entered? "chain" with
  | none => exact .refl _
  | some l =>
    have hentered := Block.isEntered_of_entered? hl
    have hint : Chain.enteredInt? (l.gist "chain") = Chain.enteredInt? l := by
      have hsame : ∀ m : Literal, Chain.enteredInt? m = literalInt? m := fun m => by cases m <;> rfl
      rw [hsame, hsame, Literal.literalInt?_gist (by decide)]
    rw [Option.map_some, Chain.resolve_of_isEntered (Literal.isEntered_gist hentered _),
      Chain.resolve_of_isEntered hentered, Chain.entered, Chain.entered, hint]
    cases Chain.enteredInt? l with
    | error f => exact .refl _
    | ok n =>
      simp only
      cases n.bind ChainId.ofNumber? with
      | some c => exact .refl _
      | none =>
        refine congrArg Except.error ?_
        rw [unquoted_faultShowing, unquoted_faultShowing, isWritable_gist (by decide)]

theorem numericTest_gist {slot : String} (hslot : slot ∈ numberSlots) :
    numericTest b.gist slot = numericTest b slot := by
  rw [numericTest, numericTest, Block.entered?_gist hk]
  cases b.entered? slot with
  | none => rfl
  | some l => simp only [Option.map_some, slotInt_gist hslot, Block.comparatorOf_gist hk]

theorem methodOf_gist : methodOf b.gist = methodOf b := by
  rw [methodOf, methodOf, Block.entered?_gist_of_other hk (by decide) (by decide),
    Block.gist_property, Block.gist_id]

theorem addressOf_gist : addressOf b.gist = addressOf b := by
  rw [addressOf, addressOf, Block.entered?_gist_of_other hk (by decide) (by decide)]

theorem listedParameters_gist : listedParameters b.gist = listedParameters b := by
  simp only [listedParameters, slotJson_gist, Block.gist_id]
  rw [Block.entered?_gist_of_other hk (by decide) (by decide)]

theorem numberedParameters_gist : numberedParameters b.gist = numberedParameters b := by
  rw [numberedParameters, numberedParameters, Block.gist_slots_of_condition hk, filledSlots_gist]

theorem parametersOf_gist : parametersOf b.gist = parametersOf b := by
  simp only [parametersOf, listedParameters_gist hk, numberedParameters_gist hk,
    presetParameters_gist, Block.entered?_gist hk]
  cases b.entered? "tokenId" with
  | none => rfl
  | some l => simp only [Option.map_some, slotInt_gist (by decide : "tokenId" ∈ numberSlots)]

theorem contractTest_gist : contractTest b.gist = contractTest b := by
  simp only [contractTest, numericTest_gist hk (by decide : "tokenAmount" ∈ numberSlots),
    Block.entered?_gist hk, Block.comparatorOf_gist hk, Block.gist_property, Block.gist_id]
  cases b.entered? "expectedValue" with
  | none => rfl
  | some l => simp only [Option.map_some, Literal.integerOrLiteral_gist]

theorem abiOf_gist : abiOf b.gist = abiOf b := by
  simp only [abiOf, slotJson_gist, Block.gist_id, Block.gist_property]
  rw [Block.entered?_gist_of_other hk (by decide) (by decide)]

theorem timeLeaf_gist : (timeLeaf mode b.gist).Matches (timeLeaf mode b) := by
  refine (chainOf_gist hk).bind fun chain => ?_
  have hslot : (if (b.slot? "minTimestamp").isSome then "minTimestamp" else "timestamp") ∈
      numberSlots := by split <;> decide
  simp only [Block.slot?_gist hk, Option.isSome_map, numericTest_gist hk hslot]
  exact .refl _

theorem balanceLeaf_gist : (balanceLeaf mode b.gist).Matches (balanceLeaf mode b) := by
  rw [balanceLeaf, balanceLeaf, Block.gist_property, Block.gist_id,
    numericTest_gist hk (by decide : "minBalance" ∈ numberSlots)]
  simp only
  split
  · exact Matches.bind (.refl _) fun _ => (chainOf_gist hk).bind fun _ => .refl _
  · exact (chainOf_gist hk).bind fun _ => .refl _

theorem contractLeaf_gist : (contractLeaf mode b.gist).Matches (contractLeaf mode b) := by
  refine (chainOf_gist hk).bind fun chain => ?_
  rw [methodOf_gist hk, parametersOf_gist hk, contractTest_gist hk, abiOf_gist hk,
    addressOf_gist hk, standardOf, Block.gist_property, Block.gist_id, ← standardOf]
  exact .refl _

/-- **A condition block** has the condition of its gist. -/
theorem leaf_gist : (leaf mode b.gist).Matches (leaf mode b) := by
  have hkind : kindProperty b.gist = kindProperty b := by
    simp only [kindProperty, Block.gist_property]
  rw [leaf, leaf, hkind, Block.gist_id]
  split
  · exact timeLeaf_gist hk
  · exact balanceLeaf_gist hk
  · exact contractLeaf_gist hk
  · exact .refl _

end

/-! ### Trees -/

theorem each_matches {blocks : List Block} {f : Block → Block}
    (h : ∀ b ∈ blocks, (block mode (f b)).Matches (block mode b)) :
    (each mode (blocks.map f)).Matches (each mode blocks) := by
  induction blocks with
  | nil => exact .refl _
  | cons b rest ih =>
    rw [List.map_cons, each, each]
    refine (h b List.mem_cons_self).andThen fun c => ?_
    exact (ih fun d hd => h d (List.mem_cons_of_mem b hd)).andThen fun _ => .refl _

/-- **A block** has the condition of its gist. -/
theorem block_gist (mode : CompileMode) (b : Block) :
    (block mode b.gist).Matches (block mode b) := by
  induction b using Block.childInduction with
  | step b ih =>
    cases hk : b.kind with
    | value =>
      rw [block_value _ hk, block_value _ (by rw [Block.gist_kind, hk])]
      exact .refl _
    | condition =>
      rw [block_condition _ hk, block_condition _ (by rw [Block.gist_kind, hk])]
      exact ((leaf_gist hk).map some).orDrop _ _ _
    | operator =>
      rw [block_operator _ hk, block_operator _ (by rw [Block.gist_kind, hk]),
        Block.gist_children_of_operator hk, Block.gist_id, Block.gist_properties]
      exact (each_matches ih).andThen fun _ => .refl _

/-! ### Compositions -/

/-- The blocks at the top have the same gists if the same ids are connected. -/
theorem roots_gist {blocks others : List Block} (h : blocks.map Block.gist = others.map Block.gist)
    (hids : ∀ b ∈ blocks, b.id ∈ Block.connectedIds blocks ↔ b.id ∈ Block.connectedIds others) :
    (roots blocks).map Block.gist = (roots others).map Block.gist := by
  have hroots : ∀ bs : List Block, (roots bs).map Block.gist = (bs.map Block.gist).filter fun b =>
      !(Block.connectedIds bs).contains b.id && decide (b.kind ≠ .value) := by
    intro bs
    rw [roots, Block.topLevel, List.filter_filter, List.filter_map]
    refine congrArg _ (List.filter_congr fun b _ => ?_)
    rw [Function.comp_apply, Block.gist_id, Block.gist_kind, Bool.and_comm]
  rw [hroots, hroots, ← h]
  refine List.filter_congr fun c hc => ?_
  obtain ⟨b, hb, rfl⟩ := List.mem_map.mp hc
  rw [Block.gist_id]
  congr 2
  rw [Bool.eq_iff_iff, List.contains_iff_mem, List.contains_iff_mem]
  exact hids b hb

/-- **Only gists are compiled.** If two compositions have the same gists, and the same of their
blocks are connected somewhere, they have the same condition, or fail with faults of one class. -/
theorem workspace_of_gist_eq (mode : CompileMode) {blocks others : List Block}
    (h : blocks.map Block.gist = others.map Block.gist)
    (hids : ∀ b ∈ blocks, b.id ∈ Block.connectedIds blocks ↔ b.id ∈ Block.connectedIds others) :
    (workspace mode blocks).result.mapError className =
      (workspace mode others).result.mapError className := by
  have hsame : ((each mode (roots blocks)).Matches (each mode (roots others))) := by
    have hl := each_matches fun b (_ : b ∈ roots blocks) => block_gist mode b
    have hr := each_matches fun b (_ : b ∈ roots others) => block_gist mode b
    rw [roots_gist h hids] at hl
    exact hl.symm.trans hr
  exact ((hsame.andThen fun _ => .refl _).andThen fun _ => .refl _).className

end Compile

end AccessTree
