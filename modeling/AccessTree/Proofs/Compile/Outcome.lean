import AccessTree.Compile.Tree
import AccessTree.Proofs.Block.Walk

/-! # Outcomes step by step

An outcome that goes on has the result of its last part, and the warnings of all of them
(`result_andThen_eq_ok`, `warnings_andThen`); it is `Undropped` if none of its warnings tells of a
block that was dropped. The outcome of a block depends on its kind only (`block_value`,
`block_condition`, `block_operator`), and the operands of an operator are compiled as the list of
its children, so that one induction over blocks and one over lists reach all of a composition. -/

namespace AccessTree

/-- Whether a warning tells of a block that was dropped. -/
def Warning.isDrop : Warning → Bool
  | .droppedCondition .. | .droppedOperator .. => true
  | _ => false

/-- Texts that begin with different characters are different. -/
theorem append_ne_append {s t x y : String} {c d : Char} (hs : s.toList.head? = some c)
    (ht : t.toList.head? = some d) (hcd : c ≠ d) : s ++ x ≠ t ++ y := by
  intro h
  have hh := congrArg (fun u : String => u.toList.head?) h
  simp only [String.toList_append, List.head?_append, hs, ht, Option.some_or] at hh
  exact hcd (Option.some.inj hh)

/-- The text of a warning shows whether a block was dropped. -/
theorem Warning.isDrop_iff (w : Warning) : w.isDrop = true ↔ ∃ rest,
    w.message = "Dropping condition block " ++ rest ∨
      w.message = "Dropping operator block " ++ rest := by
  have other : ∀ {s x : String} {c : Char}, s.toList.head? = some c → c ≠ 'D' →
      ¬ ∃ rest, s ++ x = "Dropping condition block " ++ rest ∨
        s ++ x = "Dropping operator block " ++ rest := by
    rintro s x c hs hc ⟨rest, h | h⟩
    · exact append_ne_append hs (by rfl) hc h
    · exact append_ne_append hs (by rfl) hc h
  cases w with
  | droppedCondition block g =>
    refine iff_of_true rfl ⟨block ++ (": " ++ g.message), Or.inl ?_⟩
    change "Dropping condition block " ++ block ++ ": " ++ g.message = _
    rw [String.append_assoc, String.append_assoc]
  | droppedOperator block g =>
    refine iff_of_true rfl ⟨block ++ (": " ++ g.message), Or.inr ?_⟩
    change "Dropping operator block " ++ block ++ ": " ++ g.message = _
    rw [String.append_assoc, String.append_assoc]
  | unreadableJson block slot cause =>
    have text : (unreadableJson block slot cause).message = "Failed to parse " ++
        (slot ++ (" on block " ++ (block ++ (": " ++ cause.message)))) := by
      change "Failed to parse " ++ slot ++ " on block " ++ block ++ ": " ++ cause.message = _
      rw [String.append_assoc, String.append_assoc, String.append_assoc, String.append_assoc]
    rw [text]
    exact iff_of_false Bool.false_ne_true (other (by rfl) (by decide))
  | parametersNotList block =>
    exact iff_of_false Bool.false_ne_true (other (by rfl) (by decide))
  | abiNotObject block =>
    have text : (abiNotObject block).message = "Ignoring functionAbi on block " ++
        (block ++ ": not a JSON object") := by
      change "Ignoring functionAbi on block " ++ block ++ ": not a JSON object" = _
      rw [String.append_assoc]
    rw [text]
    exact iff_of_false Bool.false_ne_true (other (by rfl) (by decide))

namespace Outcome

variable {α β : Type}

theorem andThen_done (x : Outcome α) : x.andThen done = x := by
  obtain ⟨us, f | a⟩ := x <;> simp [andThen, done]

theorem result_andThen (x : Outcome α) (f : α → Outcome β) :
    (x.andThen f).result = x.result.bind fun a => (f a).result := by
  rw [andThen]
  cases x.result <;> rfl

/-- **A result that was gone on to** comes from results of both parts. -/
theorem result_andThen_eq_ok {x : Outcome α} {f : α → Outcome β} {b : β} :
    (x.andThen f).result = .ok b ↔ ∃ a, x.result = .ok a ∧ (f a).result = .ok b := by
  rw [result_andThen]
  cases x.result <;> simp [Except.bind]

theorem result_bind_eq_ok {x : Outcome α} {f : α → Outcome β} {b : β} :
    (x >>= f).result = .ok b ↔ ∃ a, x.result = .ok a ∧ (f a).result = .ok b :=
  result_andThen_eq_ok

theorem result_ofExcept_eq_ok {ε : Type} {cause : ε → CompileFault} {x : Except ε α} {a : α} :
    (ofExcept cause x).result = .ok a ↔ x = .ok a := by
  cases x <;> simp [ofExcept, done, fail]

theorem result_ofChecked_eq_ok {gap : List Issue → Gap} {x : Checked α} {a : α} :
    (ofChecked gap x).result = .ok a ↔ x = .ok a := by
  cases x <;> simp [ofChecked, done, fail]

theorem result_map (g : α → β) (x : Outcome α) : (g <$> x).result = x.result.map g := by
  change (x.andThen fun a => done (g a)).result = _
  rw [result_andThen]
  cases x.result <;> rfl

theorem result_map_eq_ok {g : α → β} {x : Outcome α} {b : β} :
    (g <$> x).result = .ok b ↔ ∃ a, x.result = .ok a ∧ g a = b := by
  rw [result_map]
  cases x.result <;> simp [Except.map]

theorem warnings_map (g : α → β) (x : Outcome α) : (g <$> x).warnings = x.warnings := by
  change (x.andThen fun a => done (g a)).warnings = _
  rw [andThen]
  split
  · exact List.append_nil _
  · rfl

/-- The warnings of both parts are put together. -/
theorem warnings_andThen {x : Outcome α} {f : α → Outcome β} {a : α} (h : x.result = .ok a) :
    (x.andThen f).warnings = x.warnings ++ (f a).warnings := by
  simp only [andThen, h]

/-- In strict mode nothing is dropped. -/
theorem orDrop_strict (w : Gap → Warning) (x : Outcome (Option α)) : orDrop true w x = x := by
  obtain ⟨us, f | a⟩ := x
  · cases f <;> rfl
  · rfl

/-! ### Outcomes that drop nothing -/

/-- No warning tells of a block that was dropped. -/
def Undropped (x : Outcome α) : Prop := ∀ w ∈ x.warnings, w.isDrop = false

theorem undropped_done (a : α) : (done a).Undropped := by simp [Undropped, done]

theorem undropped_fail (f : CompileFault) : (fail f : Outcome α).Undropped := by
  simp [Undropped, fail]

theorem undropped_warn {w : Warning} (h : w.isDrop = false) : (warn w).Undropped := by
  simpa [Undropped, warn] using h

theorem Undropped.andThen {x : Outcome α} {f : α → Outcome β} (hx : x.Undropped)
    (hf : ∀ a, (f a).Undropped) : (x.andThen f).Undropped := by
  intro w hw
  rw [Outcome.andThen] at hw
  split at hw
  · next a _ =>
    rcases List.mem_append.mp hw with hw | hw
    · exact hx w hw
    · exact hf a w hw
  · exact hx w hw

theorem Undropped.bind {x : Outcome α} {f : α → Outcome β} (hx : x.Undropped)
    (hf : ∀ a, (f a).Undropped) : (x >>= f).Undropped := hx.andThen hf

theorem Undropped.map {x : Outcome α} (g : α → β) (hx : x.Undropped) : (g <$> x).Undropped :=
  hx.andThen fun _ => undropped_done _

theorem undropped_ofExcept {ε : Type} (cause : ε → CompileFault) (x : Except ε α) :
    (ofExcept cause x).Undropped := by
  cases x with
  | ok a => exact undropped_done a
  | error e => exact undropped_fail _

theorem undropped_ofChecked (gap : List Issue → Gap) (x : Checked α) :
    (ofChecked gap x).Undropped := by
  cases x with
  | ok a => exact undropped_done a
  | rejected issues => exact undropped_fail _

end Outcome

namespace Compile

/-! ### Blocks by their kinds -/

variable (mode : CompileMode)

theorem block_value {b : Block} (h : b.kind = .value) : block mode b = .done none := by
  cases b
  simp only at h
  subst h
  rw [block]

theorem block_condition {b : Block} (h : b.kind = .condition) :
    block mode b =
      Outcome.orDrop mode.strict (.droppedCondition b.id) (some <$> leaf mode b) := by
  cases b
  simp only at h
  subst h
  rw [block]

theorem operands_eq_each (slots : List Slot) :
    operands mode slots = each mode (slots.filterMap Slot.connected) := by
  induction slots with
  | nil => rw [operands, List.filterMap_nil, each]
  | cons s rest ih =>
    obtain ⟨id, accepts, label, value, comparator, inputType, _ | b⟩ := s
    · rw [operands, List.filterMap_cons, ih]
    · rw [operands, List.filterMap_cons, each, ih]

/-- The operands are compiled first and then combined. -/
theorem block_operator {b : Block} (h : b.kind = .operator) :
    block mode b = (each mode b.children).andThen (combine mode b.id b.properties) := by
  rw [Block.children, ← operands_eq_each]
  cases b
  simp only at h
  subst h
  rw [block]

end Compile

end AccessTree
