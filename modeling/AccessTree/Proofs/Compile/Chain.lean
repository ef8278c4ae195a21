import AccessTree.Proofs.Compile.Lenient
import AccessTree.Proofs.Text.Numeral
import AccessTree.Proofs.Word
import Mathlib.Data.List.Forall2

/-! # Chains are never replaced

A chain that was entered is the chain that the condition is checked on, or compilation ends. What
was entered `Denotes` an integer or none; a block `StandsFor` the chain of that number, and for the
chain to fall back on only if nothing was entered (`result_chainOf_eq_ok`). The builders look at the
chain before all that may be missing, so that a chain that is not supported is a fault of the chain
and not a gap (`result_leaf_of_chain`); no mode drops a block for such a fault, wherever it is reached
(`gap_of_mem_visits`). -/

namespace AccessTree

/-- **The integer that a literal denotes**, as a number or spelled out. -/
inductive Literal.Denotes : Literal → Int → Prop where
  | int (n : Int) : Denotes (.int n) n
  | float {x : Binary64} {n : Int} (h : x.toInt? = some n) : Denotes (.float x) n
  | text {s : String} {n : Int} (h : Text.Spells s n) : Denotes (.text s) n

namespace Chain

theorem enteredInt?_eq_some {l : Literal} {n : Int} :
    enteredInt? l = .ok (some n) ↔ l.Denotes n := by
  cases l with
  | int m =>
    constructor
    · intro h
      cases h
      exact .int _
    · rintro ⟨⟩
      rfl
  | float x =>
    constructor
    · intro h
      exact .float (Except.ok.inj h)
    · rintro ⟨⟩
      exact congrArg Except.ok ‹_›
  | text s =>
    constructor
    · intro h
      exact .text (Text.readInteger_eq_some_iff.mp h)
    · rintro ⟨⟩
      exact Text.readInteger_eq_some_iff.mpr ‹_›
  | flag b =>
    constructor
    · intro h
      cases h
    · rintro ⟨⟩

/-- **A chain that was entered** is the one whose number is denoted. -/
theorem entered_eq_ok {l : Literal} {c : ChainId} : entered l = .ok c ↔ l.Denotes c.number := by
  rw [← enteredInt?_eq_some, entered]
  cases enteredInt? l with
  | error f => simp
  | ok n =>
    cases n with
    | none => simp
    | some n =>
      rw [Except.ok.injEq, Option.some.injEq, ← ChainId.ofNumber?_eq_some]
      cases h : ChainId.ofNumber? n <;> simp [h]

/-- What counts as entered is not blank, so the fallback does not apply. -/
theorem resolve_of_isEntered {l : Literal} (h : l.isEntered = true)
    (fallback : Except ChainFault ChainId) : resolve fallback (some l) = entered l := by
  have hopen : isOpen (some l) = false := by
    cases l with
    | text s => simpa [Literal.isEntered, isOpen] using h
    | int | float | flag => rfl
  rw [resolve, hopen]
  rfl

end Chain

/-! ### The chain of a block -/

theorem Literal.isEntered_of_entered? {o : Option Literal} {l : Literal}
    (h : Literal.entered? o = some l) : l.isEntered = true :=
  (Option.filter_eq_some_iff.mp h).2

namespace Block

theorem isEntered_of_entered? {b : Block} {slot : String} {l : Literal}
    (h : b.entered? slot = some l) : l.isEntered = true := by
  obtain ⟨s, -, hs⟩ := Option.bind_eq_some_iff.mp h
  rcases Option.or_eq_some_iff.mp hs with hs | ⟨-, hs⟩
  · exact Literal.isEntered_of_entered? hs
  · exact Literal.isEntered_of_entered? hs

/-- **The chain that a block stands for**: the one that was entered, and the one to fall back on if
nothing was entered. -/
def StandsFor (b : Block) (d chain : ChainId) : Prop :=
  match b.entered? "chain" with
  | none => chain = d
  | some l => l.Denotes chain.number

/-- The condition blocks whose condition is checked on a chain: those of time, of contracts, and of
balances, whose method may be left out, or else whose kind. -/
def Chained (b : Block) : Prop :=
  b.property "conditionType" = .str "time" ∨
  b.property "conditionType" = .str "contract" ∨
  b.property "conditionType" = .str "rpc" ∧
    ((b.property "method").isTruthy = false ∨ b.property "method" = .str "eth_getBalance") ∨
  b.property "conditionType" = .null ∧ b.property "method" = .str "eth_getBalance"

/-- Whether a condition block that is checked on a chain has something else entered as its chain. -/
def EntersUnsupported (b : Block) : Prop :=
  b.kind = .condition ∧ b.Chained ∧
    ∃ l, b.entered? "chain" = some l ∧ ∀ chain : ChainId, ¬ l.Denotes chain.number

end Block

namespace Compile

open Outcome

variable {mode : CompileMode} {d : ChainId}

/-- **A block is checked on the chain that it stands for.** -/
theorem result_chainOf_eq_ok (hd : mode.fallback = .ok d) {b : Block} {chain : ChainId} :
    (chainOf mode b).result = .ok chain ↔ b.StandsFor d chain := by
  have ofExcept_ok : ∀ x : Except ChainFault ChainId,
      (Outcome.ofExcept .chain x).result = .ok chain ↔ x = .ok chain := by
    rintro (f | c) <;> simp [Outcome.ofExcept, Outcome.fail, Outcome.done]
  rw [chainOf, ofExcept_ok, Block.StandsFor]
  cases h : b.entered? "chain" with
  | none => simp [Chain.resolve, hd, eq_comm]
  | some l =>
    rw [Chain.resolve_of_isEntered (Block.isEntered_of_entered? h)]
    exact Chain.entered_eq_ok

theorem result_chainOf_of_entersUnsupported (hd : mode.fallback = .ok d) {b : Block}
    (h : b.EntersUnsupported) : ∃ f, (chainOf mode b).result = .error (.chain f) := by
  obtain ⟨-, -, l, hl, hunsupported⟩ := h
  cases hc : Chain.resolve mode.fallback (b.entered? "chain") with
  | error f => exact ⟨f, by rw [chainOf, hc, Outcome.ofExcept, Outcome.fail]⟩
  | ok chain =>
    have hstands : b.StandsFor d chain := (result_chainOf_eq_ok hd).mp (by rw [chainOf, hc]; rfl)
    rw [Block.StandsFor, hl] at hstands
    exact absurd hstands (hunsupported chain)

/-! ### Chains before gaps -/

theorem result_bind_of_error {α β : Type} {x : Outcome α} {f : α → Outcome β} {e : CompileFault}
    (h : x.result = .error e) : (x >>= f).result = .error e := by
  change (x.andThen f).result = _
  rw [result_andThen, h]
  rfl

theorem kindProperty_of_str {b : Block} {s : String} (h : b.property "conditionType" = .str s) :
    kindProperty b = .str s := by
  simp [kindProperty, h]

theorem kindOfTag?_of_chained {b : Block} (h : b.Chained) :
    kindOfTag? (kindProperty b) = some .time ∨ kindOfTag? (kindProperty b) = some .contract ∨
      kindOfTag? (kindProperty b) = some .rpc ∧
        ((b.property "method").isTruthy = false ∨ b.property "method" = .str balanceMethod) := by
  rcases h with h | h | ⟨h, hm⟩ | ⟨h, hm⟩
  · rw [kindProperty_of_str h]
    exact Or.inl (by decide)
  · rw [kindProperty_of_str h]
    exact Or.inr (Or.inl (by decide))
  · rw [kindProperty_of_str h]
    exact Or.inr (Or.inr ⟨by decide, hm⟩)
  · rw [kindProperty, h, hm]
    exact Or.inr (Or.inr ⟨by decide, Or.inr rfl⟩)

/-- **A fault of the chain comes before every gap** of a condition that is checked on a chain. -/
theorem result_leaf_of_chain {b : Block} (hb : b.Chained) {e : CompileFault}
    (h : (chainOf mode b).result = .error e) : (leaf mode b).result = .error e := by
  rw [leaf]
  rcases kindOfTag?_of_chained hb with hk | hk | ⟨hk, hm⟩
  · rw [hk]
    exact result_bind_of_error h
  · rw [hk]
    exact result_bind_of_error h
  · have supported : ¬ ((b.property "method").isTruthy ∧
        b.property "method" ≠ .str balanceMethod) := by
      rintro ⟨htruthy, hne⟩
      rcases hm with hm | hm
      · rw [hm] at htruthy
        cases htruthy
      · exact hne hm
    rw [hk]
    simp only [balanceLeaf, if_neg supported]
    exact result_bind_of_error h

/-! ### Faults that are not gaps -/

theorem result_each_eq_ok {blocks : List Block} {cs : List Condition}
    (h : (each mode blocks).result = .ok cs) :
    ∀ b ∈ blocks, ∃ r, (block mode b).result = .ok r := by
  induction blocks generalizing cs with
  | nil => simp
  | cons b rest ih =>
    rw [each] at h
    obtain ⟨c, hc, h⟩ := result_andThen_eq_ok.mp h
    obtain ⟨ds, hds, -⟩ := result_andThen_eq_ok.mp h
    intro e he
    rcases List.mem_cons.mp he with rfl | he
    · exact ⟨c, hc⟩
    · exact ih hds e he

/-- **A block that is reached is dropped for a gap only**, in whatever it is nested. -/
theorem gap_of_mem_visits {fallback : Except ChainFault ChainId} {b : Block} :
    ∀ {above : List Block} {r : Option Condition}, (block ⟨false, fallback⟩ b).result = .ok r →
    ∀ v ∈ visits above b, v.block.kind = .condition →
    ∀ e, built fallback v.block = .error e → ∃ g, e = .gap g := by
  induction b using Block.childInduction with
  | step b ih =>
    intro above r hr v hv hk e he
    cases hb : b.kind with
    | value =>
      rw [visits_of_ne_operator above (by simp [hb]), List.mem_singleton] at hv
      subst hv
      cases hk.symm.trans hb
    | condition =>
      rw [visits_of_ne_operator above (by simp [hb]), List.mem_singleton] at hv
      subst hv
      rw [built] at he
      cases e with
      | gap g => exact ⟨g, rfl⟩
      -- any other fault would have ended the compilation of the block
      | chain | numeral | invalid =>
        simp [block_condition _ hb, orDrop, result_map, he, Except.map] at hr
    | operator =>
      rw [visits_operator above hb, List.mem_cons, List.mem_flatMap] at hv
      rcases hv with rfl | ⟨c, hc, hv⟩
      · cases hk.symm.trans hb
      · rw [block_operator _ hb] at hr
        obtain ⟨cs, hcs, -⟩ := result_andThen_eq_ok.mp hr
        obtain ⟨s, hs⟩ := result_each_eq_ok hcs c hc
        exact ih c hc hs v hv hk e he

/-! ### Compositions -/

/-- What is compiled strictly is compiled leniently with the same result. -/
theorem result_lenient {blocks : List Block} {r : Option Condition}
    (h : (workspace mode blocks).result = .ok r) :
    (unvalidated ⟨false, mode.fallback⟩ blocks).result = .ok r := by
  obtain ⟨strict, fallback⟩ := mode
  cases strict with
  | false => rwa [workspace_lenient] at h
  | true =>
    obtain ⟨c, hc, hv⟩ := result_andThen_eq_ok.mp h
    obtain ⟨rfl, -⟩ := (validated_strict fallback).mp hv
    exact ((agrees_unvalidated fallback blocks c).mp hc).1

/-- Where an unsupported chain is entered in a block that is reached, nothing is compiled. -/
theorem not_entersUnsupported (hd : mode.fallback = .ok d) {blocks : List Block}
    {r : Option Condition} (h : (workspace mode blocks).result = .ok r) {v : Visit}
    (hv : v ∈ reached blocks) : ¬ v.block.EntersUnsupported := by
  intro hu
  have hl := result_lenient h
  rw [unvalidated, roots_eq_tops] at hl
  obtain ⟨cs, hcs, -⟩ := result_andThen_eq_ok.mp hl
  obtain ⟨b, hb, hvb⟩ := List.mem_flatMap.mp hv
  obtain ⟨c, hc⟩ := result_each_eq_ok hcs b hb
  have hd : (⟨false, mode.fallback⟩ : CompileMode).fallback = .ok d := hd
  obtain ⟨f, hf⟩ := result_chainOf_of_entersUnsupported hd hu
  obtain ⟨g, hg⟩ := gap_of_mem_visits hc v hvb hu.1 _ (result_leaf_of_chain hu.2.1 hf)
  cases hg

/-- **Every leaf is checked on the chain that its block stands for.** -/
theorem forall₂_leaves_standsFor (hd : mode.fallback = .ok d) {blocks : List Block}
    {r : Option Condition} (h : (workspace mode blocks).result = .ok r) :
    List.Forall₂ (fun v c => built mode.fallback v.block = .ok c ∧
        ∃ chain, c.chain? = some chain ∧ v.block.StandsFor d chain)
      (survivors mode.fallback blocks) (r.toList.flatMap Condition.leaves) := by
  obtain ⟨rfl, -⟩ := unvalidated_lenient mode.fallback (result_lenient h)
  have hleaves := leaves_present mode.fallback blocks
  rw [← leaves_joined] at hleaves
  have heq : List.Forall₂ (fun x y => x = y)
      ((survivors mode.fallback blocks).map fun v => built mode.fallback v.block)
      (((joined (present mode.fallback blocks)).toList.flatMap Condition.leaves).map .ok) := by
    rw [hleaves, List.forall₂_eq_eq_eq]
  rw [List.forall₂_map_left_iff, List.forall₂_map_right_iff] at heq
  refine heq.imp fun v c hvc => ⟨hvc, ?_⟩
  obtain ⟨chain, hchain, hc⟩ := exists_chain_of_leaf hvc
  have hd : (⟨false, mode.fallback⟩ : CompileMode).fallback = .ok d := hd
  exact ⟨chain, hc, (result_chainOf_eq_ok hd).mp hchain⟩

/-- **No chain is replaced.** In either mode, if a composition compiles, every leaf of the condition
is checked on the chain entered in its block, and on the default one if nothing was entered there,
and no reached block that is checked on a chain has anything else entered as its chain. Where one
has, compilation ends with a fault. -/
theorem workspace_chains (hd : mode.fallback = .ok d) (blocks : List Block) :
    (∀ r, (workspace mode blocks).result = .ok r →
      List.Forall₂ (fun v c => built mode.fallback v.block = .ok c ∧
          ∃ chain, c.chain? = some chain ∧ v.block.StandsFor d chain)
        (survivors mode.fallback blocks) (r.toList.flatMap Condition.leaves) ∧
      ∀ v ∈ reached blocks, ¬ v.block.EntersUnsupported) ∧
    ((∃ v ∈ reached blocks, v.block.EntersUnsupported) →
      ∃ f, (workspace mode blocks).result = .error f) := by
  refine ⟨fun r h => ⟨forall₂_leaves_standsFor hd h, fun v => not_entersUnsupported hd h⟩, ?_⟩
  rintro ⟨v, hv, hu⟩
  cases h : (workspace mode blocks).result with
  | error f => exact ⟨f, rfl⟩
  | ok r => exact absurd hu (not_entersUnsupported hd h hv)

theorem not_denotes_two (chain : ChainId) : ¬ (Literal.text "2").Denotes chain.number := by
  intro h
  have hr := Chain.enteredInt?_eq_some.mpr h
  have h2 : Chain.enteredInt? (.text "2") = .ok (some 2) := by rfl
  rw [h2] at hr
  cases chain <;> cases hr

/-- The chain that was entered is kept in strict mode, and a chain that is not supported ends the
compilation also without strictness. -/
theorem workspace_chains_timeBlock :
    (workspace ⟨true, .ok .sepolia⟩ [timeBlock "1" (some (.text " 137"))]).result =
      .ok (some (.time .polygon atLeastZero)) ∧
    List.Forall₂ (fun v c => built (.ok .sepolia) v.block = .ok c ∧
        ∃ chain, c.chain? = some chain ∧ v.block.StandsFor .sepolia chain)
      (survivors (.ok .sepolia) [timeBlock "1" (some (.text " 137"))])
      [.time .polygon atLeastZero] ∧
    ∃ f, (workspace ⟨false, .ok .sepolia⟩ [timeBlock "2" (some (.text "2"))]).result =
      .error f := by
  have kept : (workspace ⟨true, .ok .sepolia⟩ [timeBlock "1" (some (.text " 137"))]).result =
      .ok (some (.time .polygon atLeastZero)) := by rfl
  have unsupported : (timeBlock "2" (some (.text "2"))).EntersUnsupported :=
    ⟨rfl, Or.inl rfl, .text "2", rfl, not_denotes_two⟩
  have lenient : (⟨false, .ok .sepolia⟩ : CompileMode).fallback = .ok .sepolia := rfl
  refine ⟨kept, ((workspace_chains rfl _).1 _ kept).1, ?_⟩
  exact (workspace_chains lenient _).2
    ⟨⟨[], timeBlock "2" (some (.text "2"))⟩, List.mem_singleton.mpr rfl, unsupported⟩

end Compile

end AccessTree
