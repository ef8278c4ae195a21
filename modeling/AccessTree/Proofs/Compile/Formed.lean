import AccessTree.Proofs.Compile.Chain
import AccessTree.Proofs.Condition.Formed

/-! # Compiled conditions are well-formed

What compilation puts together is well-formed in either mode (`formed_of_workspace`): the builders
fill in tests with numbers and texts, or with a test that was read as a document; a contract call
without a method is a gap; and operands are combined only if there are any, by an operator that
allows their number. -/

namespace AccessTree

theorem Text.all_dropWhile {p : Char → Bool} (cs : List Char) :
    (cs.dropWhile p).all p = cs.all p := by
  induction cs with
  | nil => rfl
  | cons c cs ih =>
    rw [List.dropWhile_cons]
    split
    · next h => rw [ih, List.all_cons, h, Bool.true_and]
    · rfl

/-- Trimming leaves something of a text that is not blank. -/
theorem Text.allBlank_trim (s : String) : allBlank (trim s) = allBlank s := by
  rw [allBlank, trim, String.toList_ofList, trimChars, List.all_reverse, all_dropWhile,
    List.all_reverse, all_dropWhile, allBlank]

namespace Compile

open Outcome

/-! ### Parts of conditions -/

theorem formed_int (comparator : Comparator) (n : Int) : ValueTest.Formed ⟨comparator, .int n, []⟩ :=
  ⟨by simp, by simp⟩

theorem formed_of_numericTest {b : Block} {slot : String} {test : ValueTest}
    (h : (numericTest b slot).result = .ok (some test)) : test.Formed := by
  rw [numericTest] at h
  split at h
  · cases h
  · obtain ⟨n, -, h⟩ := result_bind_eq_ok.mp h
    cases h
    exact formed_int _ n

theorem formed_getD_numericTest {b : Block} {slot : String} {test : Option ValueTest}
    (h : (numericTest b slot).result = .ok test) : (test.getD atLeastZero).Formed := by
  cases test with
  | none => exact formed_int _ 0
  | some test => exact formed_of_numericTest h

theorem integerOrLiteral_ne_null {l : Literal} {v : Json} (h : integerOrLiteral l = .ok v) :
    v ≠ .null := by
  cases l with
  | text s =>
    rw [integerOrLiteral] at h
    cases hr : Text.readInteger s with
    | error f =>
      rw [hr] at h
      cases h
    | ok n =>
      rw [hr] at h
      cases n <;> cases h <;> simp
  | int | float | flag =>
    cases h
    simp [Literal.toJson]

theorem formed_of_contractTest {b : Block} {test : ValueTest}
    (h : (contractTest b).result = .ok test) : test.Formed := by
  obtain ⟨amount, hamount, h⟩ := result_bind_eq_ok.mp h
  cases amount with
  | some t =>
    cases h
    exact formed_of_numericTest hamount
  | none =>
    simp only at h
    split at h
    · obtain ⟨v, hv, h⟩ := result_bind_eq_ok.mp h
      cases h
      exact ⟨integerOrLiteral_ne_null (result_ofExcept_eq_ok.mp hv), by simp⟩
    · split at h
      · exact ValueTest.formed_of_ofDocument (result_ofChecked_eq_ok.mp h)
      · cases h
        exact formed_int _ 0

theorem allBlank_of_methodOf {b : Block} {method : String} (h : (methodOf b).result = .ok method) :
    Text.allBlank method = false := by
  rw [methodOf.eq_def] at h
  simp only at h
  split at h
  · split at h
    · cases h
    · next hs =>
      cases h
      rw [Text.allBlank_trim]
      exact Bool.eq_false_iff.mpr hs
  · cases h

/-! ### Blocks -/

theorem formed_of_leaf {mode : CompileMode} {b : Block} {c : Condition}
    (h : (leaf mode b).result = .ok c) : c.Formed := by
  rw [leaf] at h
  split at h
  · obtain ⟨chain, -, h⟩ := result_bind_eq_ok.mp h
    obtain ⟨test, htest, h⟩ := result_bind_eq_ok.mp h
    cases h
    exact .time chain (formed_getD_numericTest htest)
  · rw [balanceLeaf] at h
    simp only at h
    split at h
    · obtain ⟨_, hfail, -⟩ := result_bind_eq_ok.mp h
      cases hfail
    · obtain ⟨chain, -, h⟩ := result_bind_eq_ok.mp h
      obtain ⟨test, htest, h⟩ := result_bind_eq_ok.mp h
      cases h
      exact .balance chain (formed_getD_numericTest htest)
  · obtain ⟨_, -, h⟩ := result_bind_eq_ok.mp h
    obtain ⟨method, hmethod, h⟩ := result_bind_eq_ok.mp h
    obtain ⟨_, -, h⟩ := result_bind_eq_ok.mp h
    obtain ⟨_, -, h⟩ := result_bind_eq_ok.mp h
    obtain ⟨test, htest, h⟩ := result_bind_eq_ok.mp h
    obtain ⟨_, -, h⟩ := result_bind_eq_ok.mp h
    obtain ⟨_, -, h⟩ := result_bind_eq_ok.mp h
    cases h
    exact .contract (allBlank_of_methodOf hmethod) (formed_of_contractTest htest)
  · cases h

/-- What was not dropped is the result. -/
theorem result_of_orDrop {α : Type} {strict : Bool} {w : Gap → Warning} {x : Outcome (Option α)}
    {a : α} (h : (orDrop strict w x).result = .ok (some a)) : x.result = .ok (some a) := by
  obtain ⟨us, f | b⟩ := x
  · cases strict <;> cases f <;> cases h
  · cases strict <;> exact h

theorem formed_of_combine {mode : CompileMode} {id : String} {properties : Fields}
    {cs : List Condition} {c : Condition} (hcs : ∀ d ∈ cs, d.Formed)
    (h : (combine mode id properties cs).result = .ok (some c)) : c.Formed := by
  rw [combine] at h
  split at h
  · cases h
  · next hne =>
    obtain ⟨d, hd, hc⟩ := result_map_eq_ok.mp (result_of_orDrop h)
    obtain ⟨operator, -, hof⟩ := Checked.andThen_eq_ok.mp (result_ofChecked_eq_ok.mp hd)
    obtain ⟨rfl, hone⟩ := compoundOf_eq_ok.mp hof
    cases hc
    exact .compound (by simpa using hne) hone hcs

theorem formed_of_each {mode : CompileMode} {blocks : List Block} {cs : List Condition}
    (hb : ∀ b ∈ blocks, ∀ c, (block mode b).result = .ok (some c) → c.Formed)
    (h : (each mode blocks).result = .ok cs) : ∀ c ∈ cs, c.Formed := by
  induction blocks generalizing cs with
  | nil =>
    rw [each] at h
    cases h
    simp
  | cons b rest ih =>
    rw [each] at h
    obtain ⟨r, hr, h⟩ := result_andThen_eq_ok.mp h
    obtain ⟨ds, hds, h⟩ := result_andThen_eq_ok.mp h
    cases h
    intro c hc
    rcases List.mem_append.mp hc with hc | hc
    · rw [Option.mem_toList] at hc
      exact hb b List.mem_cons_self c (hr.trans (congrArg Except.ok hc))
    · exact ih (fun d hd => hb d (List.mem_cons_of_mem b hd)) hds c hc

/-- **What a block comes to is well-formed.** -/
theorem formed_of_block {mode : CompileMode} (b : Block) :
    ∀ c, (block mode b).result = .ok (some c) → c.Formed := by
  induction b using Block.childInduction with
  | step b ih =>
    intro c h
    cases hk : b.kind with
    | value =>
      rw [block_value _ hk] at h
      cases h
    | condition =>
      rw [block_condition _ hk] at h
      obtain ⟨d, hd, hc⟩ := result_map_eq_ok.mp (result_of_orDrop h)
      cases hc
      exact formed_of_leaf hd
    | operator =>
      rw [block_operator _ hk] at h
      obtain ⟨cs, hcs, h⟩ := result_andThen_eq_ok.mp h
      exact formed_of_combine (formed_of_each ih hcs) h

theorem formed_of_joined {cs : List Condition} (hcs : ∀ d ∈ cs, d.Formed) {c : Condition}
    (h : joined cs = some c) : c.Formed := by
  rw [joined.eq_def] at h
  split at h
  · cases h
  · cases h
    exact hcs c List.mem_cons_self
  · next hnil _ =>
    cases h
    exact .compound hnil (by simp) hcs

theorem result_of_validated {mode : CompileMode} {c r : Option Condition}
    (h : (validated mode c).result = .ok r) : c = r := by
  obtain ⟨strict, fallback⟩ := mode
  cases strict with
  | true => exact ((validated_strict fallback).mp h).1
  | false =>
    rw [validated_lenient] at h
    exact Except.ok.inj h

/-- **A compiled composition is well-formed**, in either mode. -/
theorem formed_of_workspace {mode : CompileMode} {blocks : List Block} {c : Condition}
    (h : (workspace mode blocks).result = .ok (some c)) : c.Formed := by
  obtain ⟨r, hr, hv⟩ := result_andThen_eq_ok.mp h
  obtain ⟨cs, hcs, hj⟩ := result_andThen_eq_ok.mp hr
  have hr := (Except.ok.inj hj).trans (result_of_validated hv)
  exact formed_of_joined (formed_of_each (fun b _ => formed_of_block b) hcs) hr

end Compile

end AccessTree
