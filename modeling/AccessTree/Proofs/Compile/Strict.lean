import AccessTree.Proofs.Compile.Leaf

/-! # Strict and lenient compilation

The two modes run through the same blocks, and differ at a gap: strictness ends the compilation
there, lenience drops a block and warns about it. So a strict outcome `Agrees` with a lenient one if
it has the results that the lenient one has without a block dropped. That is kept when outcomes go
on (`Agrees.andThen`), and holds of a step at which a gap is met (`agrees_orDrop`); induction on blocks
carries it from the operands of an operator to the operator (`agrees_block`). Whether an operator can
be combined is decided on the same operands in both modes, because lenience has dropped none. -/

namespace AccessTree

namespace Outcome

variable {α β : Type}

/-- **The results of a strict outcome** are those of the lenient one, if no block was dropped. -/
def Agrees (strict lenient : Outcome α) : Prop :=
  ∀ a, strict.result = .ok a ↔ lenient.result = .ok a ∧ lenient.Undropped

/-- An outcome that drops nothing agrees with itself. -/
theorem Undropped.agrees {x : Outcome α} (h : x.Undropped) : x.Agrees x :=
  fun _ => (and_iff_left h).symm

theorem agrees_done (a : α) : (done a).Agrees (done a) := (undropped_done a).agrees

theorem undropped_andThen {x : Outcome α} {f : α → Outcome β} {a : α} (h : x.result = .ok a) :
    (x.andThen f).Undropped ↔ x.Undropped ∧ (f a).Undropped := by
  rw [Undropped, warnings_andThen h]
  exact List.forall_mem_append

theorem Agrees.andThen {x y : Outcome α} {f g : α → Outcome β} (hxy : x.Agrees y)
    (hfg : ∀ a, (f a).Agrees (g a)) : (x.andThen f).Agrees (y.andThen g) := by
  intro b
  rw [result_andThen_eq_ok, result_andThen_eq_ok]
  constructor
  · rintro ⟨a, hx, hf⟩
    obtain ⟨hy, hyd⟩ := (hxy a).mp hx
    obtain ⟨hg, hgd⟩ := (hfg a b).mp hf
    exact ⟨⟨a, hy, hg⟩, (undropped_andThen hy).mpr ⟨hyd, hgd⟩⟩
  · rintro ⟨⟨a, hy, hg⟩, hd⟩
    obtain ⟨hyd, hgd⟩ := (undropped_andThen hy).mp hd
    exact ⟨a, (hxy a).mpr ⟨hy, hyd⟩, (hfg a b).mpr ⟨hg, hgd⟩⟩

/-- Where a gap ends one outcome, the other drops a block. -/
theorem agrees_orDrop {w : Gap → Warning} (hw : ∀ g, (w g).isDrop = true)
    {x : Outcome (Option α)} (hx : x.Undropped) :
    (orDrop true w x).Agrees (orDrop false w x) := by
  obtain ⟨us, f | a⟩ := x
  · cases f with
    | gap g =>
      intro c
      simp [orDrop, Undropped, hw]
    | chain => exact hx.agrees
    | numeral => exact hx.agrees
    | invalid => exact hx.agrees
  · exact hx.agrees

end Outcome

namespace Compile

open Outcome

variable (fallback : Except ChainFault ChainId)

theorem agrees_combine (id : String) (properties : Fields) (cs : List Condition) :
    (combine ⟨true, fallback⟩ id properties cs).Agrees
      (combine ⟨false, fallback⟩ id properties cs) := by
  rw [combine, combine]
  split
  · exact agrees_done none
  · exact agrees_orDrop (fun _ => rfl) ((undropped_ofChecked _ _).bind fun _ => undropped_done _)

/-- The modes agree on several blocks if they agree on each. -/
theorem agrees_each {blocks : List Block}
    (h : ∀ b ∈ blocks, (block ⟨true, fallback⟩ b).Agrees (block ⟨false, fallback⟩ b)) :
    (each ⟨true, fallback⟩ blocks).Agrees (each ⟨false, fallback⟩ blocks) := by
  induction blocks with
  | nil => exact agrees_done []
  | cons b rest ih =>
    have hrest := ih fun c hc => h c (List.mem_cons_of_mem b hc)
    exact (h b List.mem_cons_self).andThen fun c => hrest.andThen fun cs => agrees_done _

/-- **The modes agree on a block** and everything connected below it. -/
theorem agrees_block (b : Block) :
    (block ⟨true, fallback⟩ b).Agrees (block ⟨false, fallback⟩ b) := by
  induction b using Block.childInduction with
  | step b ih =>
    cases hk : b.kind with
    | value =>
      rw [block_value _ hk, block_value _ hk]
      exact agrees_done none
    | condition =>
      have hleaf : leaf ⟨true, fallback⟩ b = leaf ⟨false, fallback⟩ b := leaf_congr rfl b
      rw [block_condition _ hk, block_condition _ hk, hleaf]
      exact agrees_orDrop (fun _ => rfl) ((undropped_leaf _ b).bind fun _ => undropped_done _)
    | operator =>
      -- the operands agree, so that both modes combine the same conditions
      rw [block_operator _ hk, block_operator _ hk]
      exact (agrees_each fallback ih).andThen (agrees_combine fallback _ _)

theorem agrees_unvalidated (blocks : List Block) :
    (unvalidated ⟨true, fallback⟩ blocks).Agrees (unvalidated ⟨false, fallback⟩ blocks) :=
  (agrees_each fallback fun b _ => agrees_block fallback b).andThen fun _ => agrees_done _

/-! ### Validation -/

theorem validated_lenient (c : Option Condition) :
    validated ⟨false, fallback⟩ c = .done c := by
  cases c <;> rfl

/-- Without strictness the condition is not validated. -/
theorem workspace_lenient (blocks : List Block) :
    workspace ⟨false, fallback⟩ blocks = unvalidated ⟨false, fallback⟩ blocks := by
  have h : validated ⟨false, fallback⟩ = Outcome.done := funext (validated_lenient fallback)
  rw [workspace, h, andThen_done]

theorem validated_strict {c r : Option Condition} :
    (validated ⟨true, fallback⟩ c).result = .ok r ↔
      c = r ∧ ∀ d, r = some d → Document.validate d.toDocument = .ok () := by
  cases c with
  | none =>
    simp only [validated, Outcome.done, Except.ok.injEq]
    constructor
    · rintro rfl
      exact ⟨rfl, by simp⟩
    · exact And.left
  | some d =>
    cases hd : Document.validate d.toDocument with
    | ok u =>
      simp only [validated, hd, Except.map, Outcome.ofExcept, Outcome.done, Except.ok.injEq]
      constructor
      · rintro rfl
        exact ⟨rfl, by simpa using hd⟩
      · exact And.left
    | error f =>
      simp only [validated, hd, Except.map, Outcome.ofExcept, Outcome.fail]
      constructor
      · intro h
        cases h
      · rintro ⟨rfl, hv⟩
        cases hd.symm.trans (hv d rfl)

/-- **What strict compilation returns.** A composition compiles strictly to a condition, or to none,
exactly if it does so without strictness, no condition block and no operator block is dropped with
a warning on the way, and the document of the condition passes validation. -/
theorem workspace_strict_eq_ok_iff (blocks : List Block) (r : Option Condition) :
    (workspace ⟨true, fallback⟩ blocks).result = .ok r ↔
      (workspace ⟨false, fallback⟩ blocks).result = .ok r ∧
      (∀ w ∈ (workspace ⟨false, fallback⟩ blocks).warnings, w.isDrop = false) ∧
      ∀ c, r = some c → Document.validate c.toDocument = .ok () := by
  rw [workspace_lenient, workspace, Outcome.result_andThen_eq_ok]
  have agrees := agrees_unvalidated fallback blocks
  constructor
  · rintro ⟨c, hc, hv⟩
    obtain ⟨rfl, hv⟩ := (validated_strict fallback).mp hv
    obtain ⟨hl, hd⟩ := (agrees c).mp hc
    exact ⟨hl, hd, hv⟩
  · rintro ⟨hl, hd, hv⟩
    exact ⟨r, (agrees r).mpr ⟨hl, hd⟩, (validated_strict fallback).mpr ⟨rfl, hv⟩⟩

end Compile

end AccessTree
