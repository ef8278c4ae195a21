import AccessTree.Proofs.Compile.Erased
import AccessTree.Proofs.Compile.Strict
import AccessTree.Proofs.Json.Faults
import AccessTree.Proofs.Json.Walk
import AccessTree.Proofs.Text.Numeral

/-! # What lenient compilation fails with

What builds the condition of a condition block fails with a gap, with an entered chain that is not
supported, with a numeral of the block that is too long to be read, or with an integer of the block
that is too long to be written (`LeafFault`). Lenient compilation turns the gaps into warnings, and
an operator adds nothing but gaps; so it comes to a condition or to none, or it fails with a problem
of a chain, or with the numeral or the integer of a condition block that is reached
(`workspace_lenient_total`). It falls back on a supported chain here. -/

namespace AccessTree

/-! ### Numerals that are too long -/

/-- Between blanks, a text is `digits` digits after at most one sign. -/
def Text.IsLiteral (s : String) (digits : Nat) : Prop :=
  ∃ cs, (trimChars s.toList = cs ∨ trimChars s.toList = '+' :: cs ∨ trimChars s.toList = '-' :: cs) ∧
    (∀ c ∈ cs, c.isDigit) ∧ cs.length = digits

theorem Text.readDigits_eq_error {ds : List Nat} {f : NumeralFault} (h : readDigits ds = .error f) :
    f = .tooLongToRead ds.length ∧ maxDigits < ds.length := by
  rw [readDigits] at h
  split at h
  · next hlong => exact ⟨(Except.error.inj h).symm, hlong⟩
  · cases h

theorem Text.isLiteral_of_integerLiteral? {s : String} {negative : Bool} {ds : List Nat}
    (h : integerLiteral? s = some (negative, ds)) : IsLiteral s ds.length := by
  unfold integerLiteral? at h
  split at h <;> obtain ⟨es, hu, he⟩ := Option.map_eq_some_iff.mp h <;> cases he <;>
    obtain ⟨-, hd, rfl⟩ := unsigned?_eq_some.mp hu <;>
    refine ⟨_, ?_, hd, (length_charDigits _).symm⟩
  · next hs => exact .inr (.inr hs)
  · next hs => exact .inr (.inl hs)
  · exact .inl rfl

/-- Only a literal of too many digits cannot be read. -/
theorem Text.readInteger_eq_error {s : String} {f : NumeralFault} (h : readInteger s = .error f) :
    ∃ n, f = .tooLongToRead n ∧ maxDigits < n ∧ IsLiteral s n := by
  unfold readInteger at h
  split at h
  · cases h
  · next negative ds hl =>
    obtain ⟨rfl, hlong⟩ := readDigits_eq_error (map_eq_error.mp h)
    exact ⟨_, rfl, hlong, isLiteral_of_integerLiteral? hl⟩

/-- The slots of a condition block that an integer is read from. -/
def integerSlots : List String :=
  ["chain", "minTimestamp", "timestamp", "minBalance", "tokenAmount", "tokenId", "expectedValue"]

/-- The slots of a condition block that JSON text is read from. -/
def jsonSlots : List String := ["parameters", "functionAbi"]

/-- **A numeral of a condition block** that has `digits` digits. -/
inductive Block.HoldsNumeral (b : Block) (digits : Nat) : Prop where
  /-- A text is an integer literal. -/
  | literal {slot s : String} (hslot : slot ∈ integerSlots) (hs : b.entered? slot = some (.text s))
      (h : Text.IsLiteral s digits)
  /-- The id of a parameter slot has a number, and something was entered there. -/
  | parameter {s : Slot} {ds : List Nat} (hs : s ∈ b.slots) (hfilled : s.entered?.isSome)
      (hds : s.parameterDigits? = some ds) (h : ds.length = digits)
  /-- JSON text has an integer in it. -/
  | json {slot s : String} (hslot : slot ∈ jsonSlots) (hs : b.entered? slot = some (.text s))
      (h : Json.HoldsInteger s.toList digits)

/-- The slots of a condition block whose integers may have to be written. -/
def writtenSlots : List String := ["chain", "contractAddress"]

/-- The properties of a condition block that a gap shows. -/
def shownProperties : List String := ["conditionType", "method"]

/-- **An integer of a condition block** that may have to be written. -/
inductive Block.ShowsInteger (b : Block) (n : Int) : Prop where
  /-- The integer was entered. -/
  | entered {slot : String} (hslot : slot ∈ writtenSlots) (h : b.entered? slot = some (.int n))
  /-- The integer is a property or a part of one. -/
  | property {key : String} (hkey : key ∈ shownProperties) (h : .int n ∈ (b.property key).parts)

/-- **Why a numeral of a block** cannot be converted. -/
inductive Block.Exceeds (b : Block) : NumeralFault → Prop where
  | read {n : Nat} (hn : Text.maxDigits < n) (h : b.HoldsNumeral n) : Exceeds b (.tooLongToRead n)
  | write {n : Int} (hn : Text.writeInt n = .error .tooLongToWrite) (h : b.ShowsInteger n) :
    Exceeds b .tooLongToWrite

/-- A literal that cannot be written is an integer. -/
theorem Block.Exceeds.of_literal {b : Block} {slot : String} {l : Literal}
    (hslot : slot ∈ writtenSlots) (hl : b.entered? slot = some l)
    (hw : l.toJson.isWritable = false) : b.Exceeds .tooLongToWrite := by
  cases l with
  | int n => exact .write (Json.isWritable_int.mp hw) (.entered hslot hl)
  | text | float | flag => cases hw

/-- **Why a block ends lenient compilation.** -/
inductive CompileFault.Ends (b : Block) : CompileFault → Prop where
  /-- What was entered is no supported chain. -/
  | chain (entered : Literal.Writable) : Ends b (.chain (.unsupported entered))
  /-- A chain is a numeral that is too long. -/
  | chainNumeral {f : NumeralFault} (h : b.Exceeds f) : Ends b (.chain (.numeral f))
  /-- Another numeral is too long. -/
  | numeral {f : NumeralFault} (h : b.Exceeds f) : Ends b (.numeral f)

namespace Outcome

variable {α β : Type} {P : CompileFault → Prop}

/-- If an outcome is a fault, then it is one of these. -/
def FaultsIn (P : CompileFault → Prop) (x : Outcome α) : Prop := ∀ f, x.result = .error f → P f

theorem faultsIn_done (a : α) : (done a).FaultsIn P := by
  rintro f ⟨⟩

theorem faultsIn_warn (w : Warning) : (warn w).FaultsIn P := by
  rintro f ⟨⟩

theorem faultsIn_fail {f : CompileFault} (h : P f) : (fail f : Outcome α).FaultsIn P := by
  rintro g ⟨⟩
  exact h

theorem FaultsIn.andThen {x : Outcome α} {k : α → Outcome β} (hx : x.FaultsIn P)
    (hk : ∀ a, (k a).FaultsIn P) : (x.andThen k).FaultsIn P := by
  intro f hf
  rw [result_andThen] at hf
  cases hr : x.result with
  | error g =>
    rw [hr] at hf
    cases hf
    exact hx f hr
  | ok a =>
    rw [hr] at hf
    exact hk a f hf

theorem FaultsIn.bind {x : Outcome α} {k : α → Outcome β} (hx : x.FaultsIn P)
    (hk : ∀ a, (k a).FaultsIn P) : (x >>= k).FaultsIn P := hx.andThen hk

theorem FaultsIn.map {x : Outcome α} (g : α → β) (hx : x.FaultsIn P) : (g <$> x).FaultsIn P :=
  hx.andThen fun _ => faultsIn_done _

theorem FaultsIn.mono {Q : CompileFault → Prop} {x : Outcome α} (hx : x.FaultsIn P)
    (h : ∀ f, P f → Q f) : x.FaultsIn Q := fun f hf => h f (hx f hf)

theorem faultsIn_ofExcept {ε : Type} {cause : ε → CompileFault} {x : Except ε α}
    (h : ∀ e, x = .error e → P (cause e)) : (ofExcept cause x).FaultsIn P := by
  cases x with
  | ok a => exact faultsIn_done a
  | error e => exact faultsIn_fail (h e rfl)

theorem faultsIn_ofChecked {gap : List Issue → Gap} (h : ∀ g, P (.gap g)) (x : Checked α) :
    (ofChecked gap x).FaultsIn P := by
  cases x with
  | ok a => exact faultsIn_done a
  | rejected issues => exact faultsIn_fail (h _)

/-- Without strictness, no gap is left. -/
theorem faultsIn_orDrop {warning : Gap → Warning} {x : Outcome (Option α)}
    (hx : x.FaultsIn fun f => (∃ g, f = .gap g) ∨ P f) : (orDrop false warning x).FaultsIn P := by
  intro f hf
  unfold orDrop at hf
  split at hf
  · cases hf
  · next hkeep =>
    obtain ⟨g, rfl⟩ | hp := hx f hf
    · exact absurd hf (hkeep g rfl)
    · exact hp

end Outcome

namespace Compile

open Outcome CompileFault

/-! ### Condition blocks -/

/-- **Why a condition block has no condition.** -/
def LeafFault (b : Block) (f : CompileFault) : Prop := (∃ g, f = .gap g) ∨ Ends b f

variable {b : Block} {slot : String}

theorem leafFault_gap (g : Gap) : LeafFault b (.gap g) := .inl ⟨g, rfl⟩

/-- A gap that shows a value may fail with an integer in the value. -/
theorem faultsIn_gapShowing {α : Type} {v : Json} {gap : v.isWritable = true → Gap}
    (h : ∀ n, .int n ∈ v.parts → b.ShowsInteger n) :
    (gapShowing v gap : Outcome α).FaultsIn (LeafFault b) := by
  refine faultsIn_fail (Json.faultShowing_cases (fun hw => leafFault_gap (gap hw)) fun hw => ?_)
  obtain ⟨n, hn, hlong⟩ := Json.isWritable_eq_false.mp hw
  exact .inr (.numeral (.write hlong (h n hn)))

theorem literalInt?_eq_error {l : Literal} {f : NumeralFault} (h : literalInt? l = .error f) :
    ∃ s, l = .text s ∧ Text.readInteger s = .error f := by
  cases l with
  | text s => exact ⟨s, rfl, h⟩
  | int | float | flag => cases h

theorem faultsIn_chainOf (fallback : ChainId) (b : Block) :
    (chainOf ⟨false, .ok fallback⟩ b).FaultsIn (LeafFault b) := by
  refine faultsIn_ofExcept fun e he => .inr ?_
  unfold Chain.resolve at he
  split at he
  · cases he
  · next l hl =>
    split at he
    · cases he
    · unfold Chain.entered at he
      split at he
      · next f hf =>
        cases he
        cases l with
        | text s =>
          obtain ⟨n, rfl, hlong, hliteral⟩ := Text.readInteger_eq_error hf
          exact .chainNumeral (.read hlong (.literal (by simp [integerSlots]) hl hliteral))
        | int | float | flag => cases hf
      · split at he <;> cases he
        exact Json.faultShowing_cases (P := fun e => Ends b (.chain e)) (fun h => .chain ⟨l, h⟩)
          fun hw => .chainNumeral (.of_literal (by simp [writtenSlots]) hl hw)

/-- What is no integer is no integer that is too long. -/
theorem faultsIn_slotGap {l : Literal} (h : literalInt? l = .ok none)
    (gap : l.toJson.isWritable = true → Gap) :
    (gapShowing l.toJson gap : Outcome Int).FaultsIn (LeafFault b) := by
  refine faultsIn_gapShowing fun n hn => ?_
  cases l with
  | int m => cases h
  | text | float | flag => cases List.mem_singleton.mp hn

theorem faultsIn_slotInt (hslot : slot ∈ integerSlots) {l : Literal}
    (hl : b.entered? slot = some l) : (slotInt b slot l).FaultsIn (LeafFault b) := by
  unfold slotInt
  split
  · next f hf =>
    obtain ⟨s, rfl, hread⟩ := literalInt?_eq_error hf
    obtain ⟨n, rfl, hlong, hliteral⟩ := Text.readInteger_eq_error hread
    exact faultsIn_fail (.inr (.numeral (.read hlong (.literal hslot hl hliteral))))
  · exact faultsIn_done _
  · next hnone => exact faultsIn_slotGap hnone _

theorem faultsIn_numericTest (hslot : slot ∈ integerSlots) :
    (numericTest b slot).FaultsIn (LeafFault b) := by
  unfold numericTest
  split
  · exact faultsIn_done _
  · next l hl => exact (faultsIn_slotInt hslot hl).bind fun _ => faultsIn_done _

theorem faultsIn_slotJson (hslot : slot ∈ jsonSlots) {l : Literal}
    (hl : b.entered? slot = some l) : (slotJson b slot l).FaultsIn (LeafFault b) := by
  unfold slotJson
  split
  · next s =>
    split
    · exact faultsIn_done _
    · exact (faultsIn_warn _).bind fun _ => faultsIn_done _
    · next f hread =>
      obtain ⟨n, rfl, hlong, hholds⟩ := Json.holdsInteger_of_read hread
      exact faultsIn_fail (.inr (.numeral (.read hlong (.json hslot hl hholds))))
  · exact faultsIn_done _

theorem faultsIn_methodOf (b : Block) : (methodOf b).FaultsIn (LeafFault b) := by
  unfold methodOf
  simp only
  split
  · split
    · exact faultsIn_fail (leafFault_gap _)
    · exact faultsIn_done _
  · exact faultsIn_fail (leafFault_gap _)

theorem faultsIn_addressOf (b : Block) : (addressOf b).FaultsIn (LeafFault b) := by
  unfold addressOf
  split
  · next l hl =>
    refine (faultsIn_ofExcept fun e he => .inr (.numeral ?_)).map _
    obtain ⟨hw, rfl⟩ := Json.written_eq_error.mp he
    exact .of_literal (by simp [writtenSlots]) hl hw
  · exact faultsIn_done _

theorem faultsIn_listedParameters (b : Block) :
    (listedParameters b).FaultsIn (LeafFault b) := by
  unfold listedParameters
  split
  · exact faultsIn_done _
  · next l hl =>
    refine (faultsIn_slotJson (by simp [jsonSlots]) hl).bind fun v => ?_
    split
    · exact faultsIn_done _
    · exact faultsIn_done _
    · exact faultsIn_done _
    · exact (faultsIn_warn _).bind fun _ => faultsIn_done _

theorem exists_of_mapM_eq_error {α β ε : Type} {g : α → Except ε β} {e : ε} {as : List α}
    (h : as.mapM g = .error e) : ∃ a ∈ as, g a = .error e := by
  induction as with
  | nil => cases h
  | cons a as ih =>
    rw [List.mapM_cons] at h
    obtain ha | ⟨_, -, h⟩ := bind_eq_error.mp h
    · exact ⟨a, List.mem_cons_self, ha⟩
    · obtain hrest | ⟨_, -, ⟨⟩⟩ := bind_eq_error.mp h
      obtain ⟨a', ha', hfault⟩ := ih hrest
      exact ⟨a', List.mem_cons_of_mem a ha', hfault⟩

theorem filledSlots_eq_error {slots : List Slot} {f : NumeralFault}
    (h : filledSlots slots = .error f) : ∃ s ∈ slots, ∃ ds, s.entered?.isSome ∧
      s.parameterDigits? = some ds ∧ f = .tooLongToRead ds.length ∧ Text.maxDigits < ds.length := by
  obtain ⟨⟨ds, l⟩, hfilled, h⟩ := exists_of_mapM_eq_error h
  obtain ⟨s, hs, hsome⟩ := List.mem_filterMap.mp hfilled
  obtain ⟨ds', hds, hentered⟩ := Option.bind_eq_some_iff.mp hsome
  obtain ⟨l', hl, heq⟩ := Option.bind_eq_some_iff.mp hentered
  cases heq
  obtain hread | ⟨_, -, ⟨⟩⟩ := bind_eq_error.mp h
  obtain ⟨rfl, hlong⟩ := Text.readDigits_eq_error hread
  exact ⟨s, hs, ds, by rw [hl]; rfl, hds, rfl, hlong⟩

theorem faultsIn_numberedParameters (b : Block) :
    (numberedParameters b).FaultsIn (LeafFault b) := by
  refine (faultsIn_ofExcept fun e he => ?_).bind fun filled => ?_
  · obtain ⟨s, hs, ds, hfilled, hds, rfl, hlong⟩ := filledSlots_eq_error he
    exact .inr (.numeral (.read hlong (.parameter hs hfilled hds rfl)))
  · split
    · exact faultsIn_done _
    · exact faultsIn_done _

theorem faultsIn_withToken (parameters : List Json) :
    (match b.entered? "tokenId" with
      | none => pure parameters
      | some l => do return withToken (← slotInt b "tokenId" l) parameters : Outcome _).FaultsIn
        (LeafFault b) := by
  split
  · exact faultsIn_done _
  · next l hl =>
    exact (faultsIn_slotInt (by simp [integerSlots]) hl).bind fun _ => faultsIn_done _

theorem faultsIn_parametersOf (b : Block) : (parametersOf b).FaultsIn (LeafFault b) := by
  refine (faultsIn_listedParameters b).bind fun listed => ?_
  cases listed with
  | some items => exact (faultsIn_done (some items)).bind fun _ => faultsIn_withToken _
  | none => exact (faultsIn_numberedParameters b).bind fun _ => faultsIn_withToken _

theorem faultsIn_contractTest (b : Block) : (contractTest b).FaultsIn (LeafFault b) := by
  refine (faultsIn_numericTest (by simp [integerSlots])).bind fun test => ?_
  split
  · exact faultsIn_done _
  · split
    · next l hl =>
      refine (faultsIn_ofExcept fun e he => ?_).bind fun _ => faultsIn_done _
      cases l with
      | text s =>
        obtain ⟨n, rfl, hlong, hliteral⟩ := Text.readInteger_eq_error (map_eq_error.mp he)
        exact .inr (.numeral (.read hlong (.literal (by simp [integerSlots]) hl hliteral)))
      | int | float | flag => cases he
    · split
      · exact faultsIn_ofChecked leafFault_gap _
      · exact faultsIn_done _

theorem faultsIn_abiOf (b : Block) : (abiOf b).FaultsIn (LeafFault b) := by
  unfold abiOf
  split
  · split
    · exact faultsIn_done _
    · exact faultsIn_done _
  · next l hl =>
    refine (faultsIn_slotJson (by simp [jsonSlots]) hl).bind fun v => ?_
    split
    · exact faultsIn_done _
    · exact faultsIn_done _
    · exact faultsIn_done _
    · exact (faultsIn_warn _).bind fun _ => faultsIn_done _

theorem faultsIn_timeLeaf (fallback : ChainId) (b : Block) :
    (timeLeaf ⟨false, .ok fallback⟩ b).FaultsIn (LeafFault b) := by
  refine (faultsIn_chainOf fallback b).bind fun _ => ?_
  refine (faultsIn_numericTest ?_).bind fun _ => faultsIn_done _
  split <;> simp [integerSlots]

theorem faultsIn_balanceLeaf (fallback : ChainId) (b : Block) :
    (balanceLeaf ⟨false, .ok fallback⟩ b).FaultsIn (LeafFault b) := by
  have supported : (do
      let chain ← chainOf ⟨false, .ok fallback⟩ b
      let test ← numericTest b "minBalance"
      return .balance chain (test.getD atLeastZero) : Outcome Condition).FaultsIn (LeafFault b) :=
    (faultsIn_chainOf fallback b).bind fun _ =>
      (faultsIn_numericTest (by simp [integerSlots])).bind fun _ => faultsIn_done _
  unfold balanceLeaf
  simp only
  split
  · refine (faultsIn_gapShowing fun n hn => ?_).bind fun _ => supported
    exact .property (by simp [shownProperties]) hn
  · exact supported

theorem faultsIn_contractLeaf (fallback : ChainId) (b : Block) :
    (contractLeaf ⟨false, .ok fallback⟩ b).FaultsIn (LeafFault b) :=
  (faultsIn_chainOf fallback b).bind fun _ => (faultsIn_methodOf b).bind fun _ =>
    (faultsIn_addressOf b).bind fun _ => (faultsIn_parametersOf b).bind fun _ =>
    (faultsIn_contractTest b).bind fun _ => (faultsIn_abiOf b).bind fun _ =>
    (faultsIn_ofChecked leafFault_gap _).bind fun _ => faultsIn_done _

/-- The property that tells the kind of a block is shown, unless it goes without one. -/
theorem showsInteger_of_kindProperty {n : Int} (h : .int n ∈ (kindProperty b).parts) :
    b.ShowsInteger n := by
  rw [kindProperty] at h
  split at h
  · cases List.mem_singleton.mp h
  · exact .property (by simp [shownProperties]) h

/-- **A condition block** fails with a gap, its chain or one of its numerals. -/
theorem faultsIn_leaf (fallback : ChainId) (b : Block) :
    (leaf ⟨false, .ok fallback⟩ b).FaultsIn (LeafFault b) := by
  unfold leaf
  split
  · exact faultsIn_timeLeaf fallback b
  · exact faultsIn_balanceLeaf fallback b
  · exact faultsIn_contractLeaf fallback b
  · exact faultsIn_gapShowing fun n => showsInteger_of_kindProperty

/-! ### Compositions -/

/-- A condition block among some visits ends lenient compilation with a fault. -/
def EndedBy (visited : List Visit) (f : CompileFault) : Prop :=
  ∃ v ∈ visited, v.block.kind = .condition ∧ Ends v.block f

theorem faultsIn_combine (fallback : ChainId) (id : String) (properties : Fields)
    (operands : List Condition) {P : CompileFault → Prop} :
    (combine ⟨false, .ok fallback⟩ id properties operands).FaultsIn P := by
  unfold combine
  split
  · exact faultsIn_done _
  · exact faultsIn_orDrop ((faultsIn_ofChecked (fun g => .inl ⟨g, rfl⟩) _).map _)

theorem faultsIn_each {fallback : ChainId} {above : List Block} {blocks : List Block}
    (h : ∀ b ∈ blocks, (block ⟨false, .ok fallback⟩ b).FaultsIn (EndedBy (visits above b))) :
    (each ⟨false, .ok fallback⟩ blocks).FaultsIn (EndedBy (blocks.flatMap (visits above))) := by
  induction blocks with
  | nil =>
    rw [each]
    exact faultsIn_done _
  | cons b rest ih =>
    rw [each]
    refine ((h b List.mem_cons_self).mono ?_).andThen fun c => ?_
    · rintro f ⟨v, hv, hends⟩
      exact ⟨v, List.mem_flatMap.mpr ⟨b, List.mem_cons_self, hv⟩, hends⟩
    · refine ((ih fun d hd => h d (List.mem_cons_of_mem b hd)).mono ?_).andThen fun cs =>
        faultsIn_done _
      rintro f ⟨v, hv, hends⟩
      exact ⟨v, by rw [List.flatMap_cons]; exact List.mem_append_right _ hv, hends⟩

/-- **A block** ends lenient compilation by a condition block that is visited from it. -/
theorem faultsIn_block (fallback : ChainId) (b : Block) : ∀ above : List Block,
    (block ⟨false, .ok fallback⟩ b).FaultsIn (EndedBy (visits above b)) := by
  induction b using Block.childInduction with
  | step b ih =>
    intro above
    cases hk : b.kind with
    | value =>
      rw [block_value _ hk]
      exact faultsIn_done _
    | condition =>
      rw [block_condition _ hk, visits_of_ne_operator above (by simp [hk])]
      refine faultsIn_orDrop (((faultsIn_leaf fallback b).map some).mono ?_)
      rintro f (hgap | hends)
      · exact .inl hgap
      · exact .inr ⟨⟨above, b⟩, List.mem_singleton_self _, hk, hends⟩
    | operator =>
      rw [block_operator _ hk, visits_operator above hk]
      refine ((faultsIn_each fun c hc => ih c hc (b :: above)).mono ?_).andThen fun cs =>
        faultsIn_combine fallback _ _ _
      rintro f ⟨v, hv, hends⟩
      exact ⟨v, List.mem_cons_of_mem _ hv, hends⟩

theorem faultsIn_workspace (fallback : ChainId) (blocks : List Block) :
    (workspace ⟨false, .ok fallback⟩ blocks).FaultsIn (EndedBy (reached blocks)) := by
  rw [workspace_lenient, unvalidated, roots_eq_tops]
  exact (faultsIn_each fun b _ => faultsIn_block fallback b []).andThen fun cs => faultsIn_done _

/-- **Lenient compilation comes to a condition or to none**, or it fails: with a problem of a chain,
or because a condition block that is reached holds a numeral that is too long to be read or an
integer that is too long to be written (JSON text with the latter is not read). -/
theorem workspace_lenient_total (fallback : ChainId) (blocks : List Block) :
    (∃ c, (workspace ⟨false, .ok fallback⟩ blocks).result = .ok c) ∨
    ∃ f, (workspace ⟨false, .ok fallback⟩ blocks).result = .error f ∧
      ((∃ p, f.toFailure = .problem p ∧ p.category = .chain) ∨
      ∃ v ∈ reached blocks, v.block.kind = .condition ∧
        ((∃ n, Text.maxDigits < n ∧ v.block.HoldsNumeral n ∧
          f.toFailure = .breakdown .value (NumeralFault.tooLongToRead n).message) ∨
        ∃ n, Text.writeInt n = .error .tooLongToWrite ∧ v.block.ShowsInteger n ∧
          f.toFailure = .breakdown .value NumeralFault.tooLongToWrite.message)) := by
  cases hr : (workspace ⟨false, .ok fallback⟩ blocks).result with
  | ok c => exact .inl ⟨c, rfl⟩
  | error f =>
    refine .inr ⟨f, rfl, ?_⟩
    obtain ⟨v, hv, hk, hends⟩ := faultsIn_workspace fallback blocks f hr
    cases hends with
    | chain entered => exact .inl ⟨_, rfl, rfl⟩
    | chainNumeral h | numeral h =>
      refine .inr ⟨v, hv, hk, ?_⟩
      cases h with
      | read hn h => exact .inl ⟨_, hn, h, rfl⟩
      | write hn h => exact .inr ⟨_, hn, h, rfl⟩

end Compile

end AccessTree
