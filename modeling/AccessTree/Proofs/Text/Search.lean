import AccessTree.Text.Search
import Mathlib.Data.List.Basic

/-! # What a search finds

Which characters match a pattern is said by `Pattern.Matches`, piece by piece and without an order
of trials: one character for a piece that stands for one, and a run of them, of any length, for a
piece that stands for many. The search tries out where a run ends; it succeeds exactly if some part
of the text matches (`occursIn_iff`). -/

namespace AccessTree.Text.Pattern

/-- **The characters that match a pattern.** -/
def Matches : Pattern → List Char → Prop
  | [], cs => cs = []
  | .one test :: rest, cs => ∃ c tail, cs = c :: tail ∧ test c = true ∧ Matches rest tail
  | .many test :: rest, cs =>
    ∃ run tail, cs = run ++ tail ∧ run ≠ [] ∧ (∀ c ∈ run, test c = true) ∧ Matches rest tail

variable {test : Char → Bool} {rest p : Pattern} {c : Char} {cs : List Char}

theorem not_matches_nil {piece : Piece} : ¬ Matches (piece :: rest) [] := by
  cases piece with
  | one test =>
    rintro ⟨c, tail, h, -⟩
    cases h
  | many test =>
    rintro ⟨run, tail, h, hrun, -⟩
    exact hrun (List.append_eq_nil_iff.mp h.symm).1

theorem matches_one_cons :
    Matches (.one test :: rest) (c :: cs) ↔ test c = true ∧ Matches rest cs := by
  constructor
  · rintro ⟨d, tail, h, hd, htail⟩
    obtain ⟨rfl, rfl⟩ := List.cons.inj h
    exact ⟨hd, htail⟩
  · rintro ⟨hc, hcs⟩
    exact ⟨c, cs, rfl, hc, hcs⟩

/-- After its first character a run is over, or it goes on. -/
theorem matches_many_cons : Matches (.many test :: rest) (c :: cs) ↔
    test c = true ∧ (Matches rest cs ∨ Matches (.many test :: rest) cs) := by
  constructor
  · rintro ⟨run, tail, h, hrun, htest, htail⟩
    rcases run with _ | ⟨d, run⟩
    · exact absurd rfl hrun
    · obtain ⟨rfl, rfl⟩ := List.cons.inj h
      obtain ⟨hc, hmore⟩ := List.forall_mem_cons.mp htest
      refine ⟨hc, ?_⟩
      by_cases hnil : run = []
      · subst hnil
        exact Or.inl htail
      · exact Or.inr ⟨run, tail, rfl, hnil, hmore, htail⟩
  · rintro ⟨hc, hcs | ⟨run, tail, rfl, -, htest, htail⟩⟩
    · exact ⟨[c], cs, rfl, by simp, by simpa using hc, hcs⟩
    · exact ⟨c :: run, tail, rfl, by simp, List.forall_mem_cons.mpr ⟨hc, htest⟩, htail⟩

/-- A part at the front that is not empty begins with the first character. -/
theorem exists_front_cons {P : List Char → Prop} (h : ¬ P []) :
    (∃ part after, c :: cs = part ++ after ∧ P part) ↔
      ∃ part after, cs = part ++ after ∧ P (c :: part) := by
  constructor
  · rintro ⟨part, after, hsplit, hpart⟩
    rcases part with _ | ⟨d, part⟩
    · exact absurd hpart h
    · obtain ⟨rfl, rfl⟩ := List.cons.inj hsplit
      exact ⟨part, after, rfl, hpart⟩
  · rintro ⟨part, after, rfl, hpart⟩
    exact ⟨c :: part, after, rfl, hpart⟩

/-- **A match starts at the front** exactly if some part at the front matches. -/
theorem starts_iff (p : Pattern) (cs : List Char) :
    starts p cs = true ↔ ∃ part after, cs = part ++ after ∧ p.Matches part := by
  fun_induction starts p cs with
  | case1 cs => exact iff_of_true rfl ⟨[], cs, rfl, rfl⟩
  | case2 piece rest =>
    refine iff_of_false (by simp) ?_
    rintro ⟨part, after, h, hpart⟩
    obtain ⟨rfl, -⟩ := List.append_eq_nil_iff.mp h.symm
    exact not_matches_nil hpart
  | case3 test rest c cs ih =>
    rw [exists_front_cons not_matches_nil, Bool.and_eq_true, ih]
    simp only [matches_one_cons]
    constructor
    · rintro ⟨hc, part, after, rfl, hpart⟩
      exact ⟨part, after, rfl, hc, hpart⟩
    · rintro ⟨part, after, rfl, hc, hpart⟩
      exact ⟨hc, part, after, rfl, hpart⟩
  | case4 test rest c cs ihover ihon =>
    rw [exists_front_cons not_matches_nil, Bool.and_eq_true, Bool.or_eq_true, ihover, ihon]
    simp only [matches_many_cons]
    constructor
    · rintro ⟨hc, ⟨part, after, rfl, hpart⟩ | ⟨part, after, rfl, hpart⟩⟩
      · exact ⟨part, after, rfl, hc, Or.inl hpart⟩
      · exact ⟨part, after, rfl, hc, Or.inr hpart⟩
    · rintro ⟨part, after, rfl, hc, hpart | hpart⟩
      · exact ⟨hc, Or.inl ⟨part, after, rfl, hpart⟩⟩
      · exact ⟨hc, Or.inr ⟨part, after, rfl, hpart⟩⟩

theorem occurs_iff (p : Pattern) (cs : List Char) :
    occurs p cs = true ↔ ∃ before part after, cs = before ++ part ++ after ∧ p.Matches part := by
  induction cs with
  | nil =>
    rw [occurs, starts_iff]
    constructor
    · rintro ⟨part, after, h, hpart⟩
      exact ⟨[], part, after, h, hpart⟩
    · rintro ⟨before, part, after, h, hpart⟩
      obtain ⟨hfront, rfl⟩ := List.append_eq_nil_iff.mp h.symm
      obtain ⟨-, rfl⟩ := List.append_eq_nil_iff.mp hfront
      exact ⟨[], [], rfl, hpart⟩
  | cons c cs ih =>
    rw [occurs, Bool.or_eq_true, starts_iff, ih]
    constructor
    · rintro (⟨part, after, h, hpart⟩ | ⟨before, part, after, rfl, hpart⟩)
      · exact ⟨[], part, after, h, hpart⟩
      · exact ⟨c :: before, part, after, rfl, hpart⟩
    · rintro ⟨before, part, after, h, hpart⟩
      rcases before with _ | ⟨d, before⟩
      · exact Or.inl ⟨part, after, h, hpart⟩
      · obtain ⟨rfl, rfl⟩ := List.cons.inj h
        exact Or.inr ⟨before, part, after, rfl, hpart⟩

/-- **A search succeeds** exactly if some part of the text matches. -/
theorem occursIn_iff (p : Pattern) (s : String) : p.occursIn s = true ↔
    ∃ before part after, s.toList = before ++ part ++ after ∧ p.Matches part :=
  occurs_iff p s.toList

end AccessTree.Text.Pattern
