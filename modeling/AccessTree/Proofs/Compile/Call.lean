import AccessTree.Catalog
import AccessTree.Edit.Basic
import AccessTree.Proofs.Block.Path
import AccessTree.Proofs.Compile.Chain
import AccessTree.Proofs.Compile.Operators
import Mathlib.Data.List.Nodup
import Mathlib.Data.List.Range

/-! # Contract calls that are filled in

A placed contract call to which `n` parameters were added has the slots of its template and, after
its first parameter slot, those with the numbers up to `n` (`Block.callIds`). What was entered in them
is given by the ids (`Block.Calls`), and it is all that compilation reads of such a block. So the
parameters of the condition are what was entered in the parameter slots, in the order of their numbers
(`Calls.parametersOf_eq`), and nothing is missing once a chain, a method and a parameter are there
(`Calls.block_eq`). -/

namespace AccessTree

/-- The id of the parameter slot with a number. -/
def Slot.parameterId (n : Nat) : String := parameterStem ++ Text.ofNat n

theorem Slot.numbered?_parameterId (n : Nat) : Text.numbered? parameterStem (parameterId n) =
    some (Text.charDigits (Text.natChars n)) := Text.numbered?_append_ofNat parameterStem n

theorem Slot.parameterId_injective : Function.Injective parameterId := by
  intro n m h
  have hdigits := numbered?_parameterId n
  rw [h, numbered?_parameterId, Option.some.injEq] at hdigits
  rw [← Text.ofDigits_charDigits n, ← hdigits, Text.ofDigits_charDigits]

namespace Block

/-! ### The slots of a contract call -/

/-- The ids of the slots of a contract call before its parameter slots. -/
def idsBefore : List String := ["chain", "contractAddress", "method"]

/-- The ids of the slots of a contract call after its parameter slots. -/
def idsAfter : List String := ["functionAbi", "expectedValue"]

/-- The ids of the slots of a contract call to which `n` parameters were added. -/
def callIds (n : Nat) : List String :=
  idsBefore ++ ((List.range (n + 1)).map Slot.parameterId ++ idsAfter)

theorem numbered?_of_mem_idsBefore : ∀ id ∈ idsBefore,
    Text.numbered? Slot.parameterStem id = none := by decide

theorem numbered?_of_mem_idsAfter : ∀ id ∈ idsAfter,
    Text.numbered? Slot.parameterStem id = none := by decide

theorem parameterId_ne {id : String} (h : Text.numbered? Slot.parameterStem id = none) (i : Nat) :
    Slot.parameterId i ≠ id := by
  rintro rfl
  cases (Slot.numbered?_parameterId i).symm.trans h

theorem parameterId_mem_callIds {i n : Nat} : Slot.parameterId i ∈ callIds n ↔ i ≤ n := by
  have hbefore : Slot.parameterId i ∉ idsBefore := fun h =>
    parameterId_ne (numbered?_of_mem_idsBefore _ h) i rfl
  have hafter : Slot.parameterId i ∉ idsAfter := fun h =>
    parameterId_ne (numbered?_of_mem_idsAfter _ h) i rfl
  rw [callIds, List.mem_append, List.mem_append, or_iff_right hbefore, or_iff_left hafter,
    List.mem_map_of_injective Slot.parameterId_injective, List.mem_range, Nat.lt_succ_iff]

theorem notMem_callIds {id : String} {n : Nat} (h : Text.numbered? Slot.parameterStem id = none)
    (hbefore : id ∉ idsBefore) (hafter : id ∉ idsAfter) : id ∉ callIds n := by
  intro hid
  rcases List.mem_append.mp hid with hid | hid
  · exact hbefore hid
  · rcases List.mem_append.mp hid with hid | hid
    · obtain ⟨i, -, rfl⟩ := List.mem_map.mp hid
      exact parameterId_ne h i rfl
    · exact hafter hid

/-- The slots that are there are there after another parameter was added. -/
theorem callIds_subset (n : Nat) : callIds n ⊆ callIds (n + 1) := by
  intro id h
  rw [callIds, List.range_succ]
  simp only [callIds, List.mem_append, List.map_append] at h ⊢
  tauto

theorem nodup_callIds (n : Nat) : (callIds n).Nodup := by
  refine List.Nodup.append (by decide) (List.Nodup.append ?_ (by decide) ?_) ?_
  · exact (List.nodup_range).map Slot.parameterId_injective
  · intro id hid hafter
    obtain ⟨i, -, rfl⟩ := List.mem_map.mp hid
    exact parameterId_ne (numbered?_of_mem_idsAfter _ hafter) i rfl
  · intro id hbefore hid
    rcases List.mem_append.mp hid with hid | hafter
    · obtain ⟨i, -, rfl⟩ := List.mem_map.mp hid
      exact parameterId_ne (numbered?_of_mem_idsBefore _ hbefore) i rfl
    · have hdisjoint : ∀ id ∈ idsBefore, id ∉ idsAfter := by decide
      exact hdisjoint id hbefore hafter

/-- The properties of a contract call to which `n` parameters were added. -/
def callProperties (n : Nat) : Fields :=
  [("conditionType", .str "contract"), ("canAddParameters", .bool true),
    ("parameterCount", .int (n + 1 : Nat))]

/-- **A contract call to which `n` parameters were added**, and what was entered in its slots. -/
structure Calls (n : Nat) (entries : String → Option Literal) (b : Block) : Prop where
  kind : b.kind = .condition
  properties : b.properties = callProperties n
  ids : b.slots.map Slot.id = callIds n
  empty : ∀ s ∈ b.slots, s.isEmpty = true
  entered : ∀ s ∈ b.slots, s.entered? = entries s.id
  /-- Nothing was entered elsewhere. -/
  known : ∀ id, id ∉ callIds n → entries id = none
  /-- The numbers of the parameter slots are short enough to be read. -/
  short : n < 10 ^ Text.maxDigits

end Block

/-- **A contract call as it is placed**: as the template is but under an id of its own, or as a
copy. -/
inductive Catalog.PlacedCall : Block → Prop where
  | moved {t : Block} (h : find? "contract-call" = some t) (id : String) :
    PlacedCall { t with id := id, isTemplate := false }
  | copy {t : Block} (h : find? "contract-call" = some t) (suffix : Nat → String) (first : Nat) :
    PlacedCall (t.instantiate suffix first)

/-- Nothing was entered in a placed contract call. -/
theorem Catalog.PlacedCall.calls {b : Block} (h : PlacedCall b) : b.Calls 0 fun _ => none := by
  have hshort : 0 < 10 ^ Text.maxDigits := Nat.pow_pos (by decide)
  cases h with
  | @moved t h id =>
    cases h
    have hslots : ∀ s ∈ templates[6].slots, s.isEmpty = true ∧ s.entered? = none := by decide
    exact ⟨rfl, rfl, rfl, fun s hs => (hslots s hs).1, fun s hs => (hslots s hs).2, fun _ _ => rfl,
      hshort⟩
  | copy h suffix first =>
    cases h
    have hslots : ∀ s ∈ templates[6].slots.map Slot.initialized,
        s.isEmpty = true ∧ s.entered? = none := by decide
    exact ⟨rfl, rfl, by rfl, fun s hs => (hslots s hs).1, fun s hs => (hslots s hs).2,
      fun _ _ => rfl, hshort⟩

namespace Block

variable {n : Nat} {entries : String → Option Literal} {b : Block}

namespace Calls

theorem exists_slot? (h : b.Calls n entries) {id : String} :
    (∃ s, b.slot? id = some s) ↔ id ∈ callIds n := by
  rw [← h.ids, ← Option.isSome_iff_exists, slot?, List.find?_isSome]
  simp

/-- What was entered in the slot of an id. -/
theorem entered?_eq (h : b.Calls n entries) (id : String) : b.entered? id = entries id := by
  rw [entered?]
  cases hs : b.slot? id with
  | none =>
    have hid : id ∉ callIds n := fun hid => by
      obtain ⟨s, hs'⟩ := h.exists_slot?.mpr hid
      cases hs.symm.trans hs'
    exact (h.known id hid).symm
  | some s =>
    have hid : s.id = id := (slot?_split hs).1
    rw [Option.bind_some, h.entered s (List.mem_of_find?_eq_some hs), hid]

end Calls

/-! ### What is read of it -/

/-- What the parameters of a call read of a slot: the digits of its number and what was entered. -/
def numberedEntry (entries : String → Option Literal) (id : String) :
    Option (List Nat × Literal) := do
  let digits ← Text.numbered? Slot.parameterStem id
  let l ← entries id
  return (digits, l)

theorem numberedEntry_parameterId (entries : String → Option Literal) (i : Nat) :
    numberedEntry entries (Slot.parameterId i) =
      (entries (Slot.parameterId i)).map fun l => (Text.charDigits (Text.natChars i), l) := by
  rw [numberedEntry, Slot.numbered?_parameterId]
  cases entries (Slot.parameterId i) <;> rfl

theorem filterMap_numberedEntry_eq_nil {ids : List String}
    (h : ∀ id ∈ ids, Text.numbered? Slot.parameterStem id = none)
    (entries : String → Option Literal) : ids.filterMap (numberedEntry entries) = [] :=
  List.filterMap_eq_nil_iff.mpr fun id hid => by rw [numberedEntry, h id hid]; rfl

/-- The parameter slots in which something was entered stand in the order of their numbers. -/
theorem filterMap_numberedEntry (n : Nat) (entries : String → Option Literal) :
    (callIds n).filterMap (numberedEntry entries) = (List.range (n + 1)).filterMap fun i =>
      (entries (Slot.parameterId i)).map fun l => (Text.charDigits (Text.natChars i), l) := by
  rw [callIds, List.filterMap_append, List.filterMap_append,
    filterMap_numberedEntry_eq_nil numbered?_of_mem_idsBefore,
    filterMap_numberedEntry_eq_nil numbered?_of_mem_idsAfter, List.nil_append, List.append_nil,
    List.filterMap_map]
  exact List.filterMap_congr fun i _ => numberedEntry_parameterId entries i

namespace Calls

/-- **The filled parameter slots** of a call are read with their numbers. -/
theorem filledSlots_eq (h : b.Calls n entries) : Compile.filledSlots b.slots =
    .ok ((List.range (n + 1)).filterMap fun i =>
      (entries (Slot.parameterId i)).map fun l => (i, l.toJson)) := by
  have hread : b.slots.filterMap (fun s => do
      let digits ← s.parameterDigits?
      let l ← s.entered?
      return (digits, l)) = (callIds n).filterMap (numberedEntry entries) := by
    rw [← h.ids, List.filterMap_map]
    refine List.filterMap_congr fun s hs => ?_
    rw [h.entered s hs]
    rfl
  rw [Compile.filledSlots, hread, filterMap_numberedEntry]
  refine (mapM_eq_ok (fun x => (Text.ofDigits x.1, x.2.toJson)) fun x hx => ?_).trans ?_
  · obtain ⟨i, hi, hl⟩ := List.mem_filterMap.mp hx
    obtain ⟨l, -, rfl⟩ := Option.map_eq_some_iff.mp hl
    have hlength : (Text.natChars i).length ≤ Text.maxDigits := Text.length_natChars_le_iff.mpr
      ((Nat.lt_succ_iff.mp (List.mem_range.mp hi)).trans_lt h.short)
    have hread : Text.readDigits (Text.charDigits (Text.natChars i)) = .ok _ :=
      Text.readDigits_eq_ok.mpr ⟨(Text.length_charDigits _).trans_le hlength, rfl⟩
    simp only [hread]
    rfl
  · rw [List.map_filterMap]
    refine congrArg Except.ok (List.filterMap_congr fun i _ => ?_)
    rw [Option.map_map]
    simp only [Function.comp_def, Text.ofDigits_charDigits]

/-- **The parameters of a call** are what was entered in its parameter slots, in the order of their
numbers. -/
theorem numberedParameters_eq (h : b.Calls n entries) {vs : List Literal}
    (hvs : ((List.range (n + 1)).filterMap fun i => entries (Slot.parameterId i)) = vs)
    (hne : vs ≠ []) :
    Compile.numberedParameters b = .done (some (vs.map Literal.toJson)) := by
  rw [Compile.numberedParameters, h.filledSlots_eq]
  generalize hfilled : ((List.range (n + 1)).filterMap fun i =>
    (entries (Slot.parameterId i)).map fun l => (i, l.toJson)) = filled
  have hsnd : filled.map Prod.snd = vs.map Literal.toJson := by
    rw [← hfilled, ← hvs, List.map_filterMap, List.map_filterMap]
    refine List.filterMap_congr fun i _ => ?_
    rw [Option.map_map]
    rfl
  have hsorted : filled.mergeSort (fun x y => decide (x.1 ≤ y.1)) = filled := by
    refine List.mergeSort_of_pairwise ?_
    rw [← hfilled, List.pairwise_filterMap]
    refine List.pairwise_le_range.imp fun {i j} hij x hx y hy => ?_
    obtain ⟨-, -, rfl⟩ := Option.map_eq_some_iff.mp hx
    obtain ⟨-, -, rfl⟩ := Option.map_eq_some_iff.mp hy
    exact decide_eq_true hij
  cases filled with
  | nil => exact absurd (List.map_eq_nil_iff.mp hsnd.symm) hne
  | cons x xs =>
    change Outcome.done (some (((x :: xs).mergeSort _).map Prod.snd)) = _
    rw [hsorted, hsnd]

theorem parametersOf_eq (h : b.Calls n entries) {vs : List Literal}
    (hvs : ((List.range (n + 1)).filterMap fun i => entries (Slot.parameterId i)) = vs)
    (hne : vs ≠ []) : Compile.parametersOf b = .done (vs.map Literal.toJson) := by
  rw [Compile.parametersOf, Compile.listedParameters, h.entered?_eq, h.entered?_eq,
    h.known "parameters" (notMem_callIds rfl (by decide) (by decide)),
    h.known "tokenId" (notMem_callIds rfl (by decide) (by decide))]
  change (Compile.numberedParameters b >>= fun entered =>
    Outcome.done (entered.getD (Compile.presetParameters b))) = _
  rw [h.numberedParameters_eq hvs hne]
  rfl

theorem property_eq (h : b.Calls n entries) (key : String) :
    b.property key = Json.valueAt (callProperties n) key := by rw [property, h.properties]

end Calls

end Block

namespace Compile

/-- The condition of a contract call of which the chain, the method and the parameters were
entered. -/
def plainCall (chain : ChainId) (method : String) (vs : List Literal) : Condition :=
  .contract ⟨chain, "", Text.trim method, vs.map Literal.toJson, none, none, aboveZero⟩

end Compile

namespace Block.Calls

/-- **A call with a chain, a method and parameters** has a condition in either mode. -/
theorem block_eq (h : b.Calls n entries) (mode : CompileMode) {chain : Literal} {c : ChainId}
    {method : String} {vs : List Literal} (hchain : entries "chain" = some chain)
    (hc : chain.Denotes c.number) (hmethod : entries "method" = some (.text method))
    (hblank : Text.allBlank method = false)
    (hvs : ((List.range (n + 1)).filterMap fun i => entries (Slot.parameterId i)) = vs)
    (hne : vs ≠ [])
    (hothers : ∀ id ∈ ["contractAddress", "functionAbi", "expectedValue"], entries id = none) :
    Compile.block mode b = .done (some (Compile.plainCall c method vs)) := by
  have hentered : ∀ id ∈ ["contractAddress", "functionAbi", "expectedValue"], b.entered? id = none :=
    fun id hid => (h.entered?_eq id).trans (hothers id hid)
  have hchainOf : Compile.chainOf mode b = .done c := by
    have hb := (h.entered?_eq "chain").trans hchain
    rw [Compile.chainOf, hb, Chain.resolve_of_isEntered (isEntered_of_entered? hb),
      Chain.entered_eq_ok.mpr hc]
    rfl
  have hmethodOf : Compile.methodOf b = .done (Text.trim method) := by
    rw [Compile.methodOf, h.entered?_eq, hmethod]
    simp [Literal.toJson, hblank]
  have htest : Compile.contractTest b = .done Compile.aboveZero := by
    rw [Compile.contractTest, Compile.numericTest, h.entered?_eq "tokenAmount",
      h.known "tokenAmount" (notMem_callIds rfl (by decide) (by decide)),
      hentered "expectedValue" (by decide), h.property_eq]
    rfl
  have habi : Compile.abiOf b = .done none := by
    rw [Compile.abiOf, hentered "functionAbi" (by decide), h.property_eq]
    rfl
  have hstandard : Compile.standardOf b = .ok none := by
    rw [Compile.standardOf, h.property_eq]
    rfl
  have haddress : Compile.addressOf b = .done "" := by
    rw [Compile.addressOf, hentered "contractAddress" (by decide)]
  have hleaf : Compile.leaf mode b = .done (Compile.plainCall c method vs) := by
    have hkind : kindOfTag? (Compile.kindProperty b) = some .contract := by
      rw [Compile.kindProperty, h.property_eq, h.property_eq]
      rfl
    rw [Compile.leaf, hkind]
    simp only
    rw [Compile.contractLeaf, hchainOf, hmethodOf, haddress, h.parametersOf_eq hvs hne, htest, habi,
      hstandard]
    rfl
  rw [Compile.block_condition mode h.kind, hleaf]
  cases mode with
  | mk strict fallback => cases strict <;> rfl

/-- A call that stands alone is all of its composition. -/
theorem workspace_eq (h : b.Calls n entries) {fallback : Except ChainFault ChainId} {c : Condition}
    (hb : Compile.block ⟨false, fallback⟩ b = .done (some c)) :
    Compile.workspace ⟨false, fallback⟩ [b] = .done (some c) := by
  have hbelow : b.descendants = [] := (List.cons.inj ((nested_eq b).symm.trans
    (nested_of_empty h.empty))).2
  have hkind : b.kind ≠ .value := by simp [h.kind]
  rw [Compile.workspace_lenient, Compile.unvalidated, Compile.roots_eq_tops,
    Compile.tops_singleton (by simp [hbelow]), if_neg hkind, Compile.each, hb, Compile.each]
  rfl

end Block.Calls

end AccessTree
