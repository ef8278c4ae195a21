import AccessTree.Proofs.Binary64.Rounding
import AccessTree.Proofs.Text.Numeral

/-! # Shortest decimals lie in the interval

A decimal `n · 10 ^ k` is a quotient, with a denominator if the exponent is negative; moving a power
of ten between its digits and its exponent does not change whether it lies in an interval
(`holds_shift`). The decade of a magnitude is a power of ten at most the magnitude, so that sixteen
digits further a step of the grid is less than the interval is wide, and one of the neighbours of the
magnitude lies in it (`holds_neighbour`). What `shortest` finds does in any case
(`holds_shortest`), and it is rounded back to the magnitude (`ofDecimal_of_holds`). -/

namespace AccessTree.Binary64

/-! ### Decimals as quotients -/

/-- The numerator of `n · 10 ^ k`. -/
def numerator (n : Nat) : Int → Nat
  | .ofNat k => n * tenTo k
  | .negSucc _ => n

/-- The denominator of `n · 10 ^ k`. -/
def denominator : Int → Nat
  | .ofNat _ => 1
  | .negSucc k => tenTo (k + 1)

theorem tenTo_pos (k : Nat) : 0 < tenTo k := Nat.pow_pos (by decide)

theorem tenTo_eq (k : Nat) : tenTo k = 10 ^ k := rfl

theorem tenTo_succ (k : Nat) : tenTo (k + 1) = tenTo k * 10 := pow_succ 10 k

theorem denominator_pos (k : Int) : 0 < denominator k := by
  cases k with
  | ofNat k => exact Nat.one_pos
  | negSucc k => exact tenTo_pos (k + 1)

theorem scaled_eq (d : Nat) (k : Int) (quarters : Nat) :
    scaled d k quarters = (numerator d k * oneInQuarters, quarters * denominator k) := by
  cases k with
  | ofNat k => rw [scaled, numerator, denominator, Nat.mul_one]
  | negSucc k => rw [scaled, numerator, denominator]

theorem numerator_eq_mul (d : Nat) (k : Int) : numerator d k = d * numerator 1 k := by
  cases k with
  | ofNat k => rw [numerator, numerator, Nat.one_mul]
  | negSucc k => rw [numerator, numerator, Nat.mul_one]

/-- A power of ten is moved between the digits and the exponent: both fractions are equal. -/
theorem exists_shift (n j : Nat) (k : Int) : ∃ c, 0 < c ∧
    numerator (n * tenTo j) k = numerator n (k + j) * c ∧ denominator k = denominator (k + j) * c := by
  induction j generalizing n with
  | zero => exact ⟨1, Nat.one_pos, by simp [tenTo], by simp⟩
  | succ j ih =>
    have hstep : ∃ c, 0 < c ∧ numerator (n * 10) (k + j) = numerator n (k + j + 1) * c ∧
        denominator (k + j) = denominator (k + j + 1) * c := by
      match k + j with
      | .ofNat l =>
        refine ⟨1, Nat.one_pos, ?_, rfl⟩
        change n * 10 * tenTo l = n * tenTo (l + 1) * 1
        rw [tenTo_succ]
        ring
      | .negSucc 0 => exact ⟨10, by decide, by simp [numerator, tenTo], rfl⟩
      | .negSucc (l + 1) => exact ⟨10, by decide, rfl, tenTo_succ (l + 1)⟩
    obtain ⟨c, hc, hn, hd⟩ := ih (n * 10)
    obtain ⟨c', hc', hn', hd'⟩ := hstep
    have hk : k + ((j + 1 : Nat) : Int) = k + j + 1 := by omega
    refine ⟨c' * c, Nat.mul_pos hc' hc, ?_, ?_⟩
    · rw [tenTo_succ, Nat.mul_comm (tenTo j), ← Nat.mul_assoc, hn, hn', Nat.mul_assoc, hk]
    · rw [hd, hd', Nat.mul_assoc, hk]

namespace Interval

variable {i : Interval}

theorem has_mul {n d c : Nat} (hc : 0 < c) : i.Has (n * c) (d * c) ↔ i.Has n d := by
  simp only [Has, ← Nat.mul_assoc, Nat.mul_le_mul_right_iff hc, Nat.mul_left_inj (Nat.ne_of_gt hc)]

/-- A decimal is in the interval if its quotient is. -/
theorem holds_iff {d : Nat} {k : Int} :
    i.holds d k = true ↔ i.Has (numerator d k * oneInQuarters) (denominator k) := by
  rw [holds, scaled_eq, scaled_eq, Has]
  cases i.closed with
  | true => simp
  | false =>
    simp only [Bool.false_eq_true, if_false, Bool.and_eq_true, decide_eq_true_eq, imp_false]
    omega

/-- The form of a decimal does not matter. -/
theorem holds_shift {n j : Nat} {k : Int} : i.holds (n * tenTo j) k = i.holds n (k + j) := by
  obtain ⟨c, hc, hn, hd⟩ := exists_shift n j k
  rw [Bool.eq_iff_iff, holds_iff, holds_iff, hn, hd, Nat.mul_right_comm, has_mul hc]

/-! ### The grid of the decade -/

theorem oneInQuarters_pos : 0 < oneInQuarters := by decide

/-- The first digit of the centre stands for a power of ten that is at most the centre. -/
theorem decade_le (hc : 0 < i.centre) :
    numerator 1 i.decade * oneInQuarters ≤ i.centre * denominator i.decade := by
  have hQ := oneInQuarters_pos
  rw [decade]
  split_ifs with h
  · obtain ⟨l, hl⟩ := Text.exists_length_natChars (i.centre / oneInQuarters)
    have hpow := Text.pow_length_natChars_le (Nat.ne_of_gt (Nat.div_pos h hQ)) hl
    have hdecade : ((Text.natChars (i.centre / oneInQuarters)).length : Int) - 1 = .ofNat l := by
      rw [hl]
      exact Int.add_sub_cancel (l : Int) 1
    rw [hdecade, numerator, denominator, Nat.one_mul, Nat.mul_one]
    exact (Nat.le_div_iff_mul_le hQ).mp hpow
  · obtain ⟨l, hl⟩ := Text.exists_length_natChars ((oneInQuarters - 1) / i.centre)
    have hpow := Text.lt_pow_length_natChars ((oneInQuarters - 1) / i.centre)
    rw [hl] at hpow
    have hdecade : -((Text.natChars ((oneInQuarters - 1) / i.centre)).length : Int) =
        .negSucc l := by
      rw [hl]
      rfl
    rw [hdecade, numerator, denominator, Nat.one_mul]
    have hlt := (Nat.div_lt_iff_lt_mul hc).mp hpow
    rw [Nat.mul_comm, ← tenTo_eq] at hlt
    omega

/-- Sixteen digits further, a step of the grid is a small part of the centre. -/
theorem step_le (hc : 0 < i.centre) :
    10 ^ 16 * (numerator 1 (i.decade - 16) * oneInQuarters) ≤
      i.centre * denominator (i.decade - 16) := by
  obtain ⟨c, hpos, hn, hd⟩ := exists_shift 1 16 (i.decade - 16)
  have hk : i.decade - 16 + ((16 : Nat) : Int) = i.decade := Int.sub_add_cancel _ _
  rw [hk] at hn hd
  rw [numerator_eq_mul, Nat.one_mul, tenTo_eq] at hn
  rw [← Nat.mul_assoc, hn, hd, Nat.mul_right_comm, ← Nat.mul_assoc]
  exact Nat.mul_le_mul_right c (decade_le hc)

/-! ### The nearest decimal of a grid -/

theorem roundQuotient_eq_or (n d : Nat) :
    roundQuotient n d = n / d ∨ roundQuotient n d = n / d + 1 := by
  rw [roundQuotient]
  split_ifs
  · exact Or.inl rfl
  · exact Or.inr rfl
  · omega

theorem holds_of_nearest? {k : Int} {d : Nat} (h : i.nearest? k = some d) : i.holds d k = true := by
  rw [nearest?, below] at h
  rw [scaled_eq] at h
  simp only at h
  split at h
  · next hd hd' =>
    cases h
    rcases roundQuotient_eq_or (i.centre * denominator k) (numerator 1 k * oneInQuarters) with
      hr | hr
    · rw [hr]
      exact hd
    · rw [hr]
      exact hd'
  · next hd _ =>
    cases h
    exact hd
  · next _ hd =>
    cases h
    exact hd
  · cases h

/-- A neighbour of the centre is in the interval if the grid is fine enough. -/
theorem exists_nearest? {k : Int}
    (h : i.holds (i.below k) k = true ∨ i.holds (i.below k + 1) k = true) :
    ∃ d, i.nearest? k = some d := by
  rw [nearest?]
  rcases h with h | h <;> rw [h]
  · cases i.holds (i.below k + 1) k <;> exact ⟨_, rfl⟩
  · cases i.holds (i.below k) k <;> exact ⟨_, rfl⟩

end Interval

/-! ### Seventeen digits suffice -/

section

variable {m e : Nat}

/-- On the grid with seventeen digits, a neighbour of the centre is in the interval. -/
theorem holds_neighbour (h : Canonical m e) (hm : m ≠ 0) {k : Int}
    (hk : 10 ^ 16 * (numerator 1 k * oneInQuarters) ≤ (interval m e).centre * denominator k) :
    (interval m e).holds ((interval m e).below k) k = true ∨
      (interval m e).holds ((interval m e).below k + 1) k = true := by
  have hcentre : (interval m e).centre * denominator k = 4 * (m * (2 ^ e * denominator k)) := by
    rw [interval_centre, Nat.mul_assoc, Nat.mul_assoc]
  have hbelow : (interval m e).below k =
      4 * (m * (2 ^ e * denominator k)) / (numerator 1 k * oneInQuarters) := by
    rw [Interval.below, scaled_eq, hcentre]
  have hB : 0 < 2 ^ e * denominator k := Nat.mul_pos (Nat.two_pow_pos e) (denominator_pos k)
  have hS : 0 < numerator 1 k * oneInQuarters := by
    refine Nat.mul_pos ?_ Interval.oneInQuarters_pos
    cases k with
    | ofNat k => exact Nat.mul_pos Nat.one_pos (tenTo_pos k)
    | negSucc k => exact Nat.one_pos
  have hmB := Nat.mul_le_mul_right (2 ^ e * denominator k) (Nat.succ_le_of_lt h.1)
  rw [Nat.succ_mul] at hmB
  have hnumerator : ∀ d, numerator d k * oneInQuarters = d * (numerator 1 k * oneInQuarters) :=
    fun d => by rw [numerator_eq_mul, Nat.mul_assoc]
  rw [Interval.holds_iff, Interval.holds_iff, hnumerator ((interval m e).below k),
    hnumerator ((interval m e).below k + 1), Nat.succ_mul, interval_has_iff hm,
    interval_has_iff hm, hbelow]
  rw [hcentre] at hk
  clear hbelow hnumerator
  have hdiv := Nat.div_add_mod (4 * (m * (2 ^ e * denominator k)))
    (numerator 1 k * oneInQuarters)
  have hmod := Nat.mod_lt (4 * (m * (2 ^ e * denominator k))) hS
  rw [Nat.mul_comm (numerator 1 k * oneInQuarters)] at hdiv
  have hreach : reach m e * denominator k = 2 ^ e * denominator k ∧ m = 2 ^ 52 ∨
      reach m e * denominator k = 2 * (2 ^ e * denominator k) := by
    rw [reach]
    split_ifs with hp
    · exact Or.inl ⟨rfl, hp.1⟩
    · exact Or.inr (Nat.mul_assoc _ _ _)
  generalize numerator 1 k * oneInQuarters = step at *
  generalize 2 ^ e * denominator k = unit at *
  generalize reach m e * denominator k = below at *
  generalize 4 * (m * unit) / step * step = lower at *
  generalize 4 * (m * unit) % step = rest at *
  rcases hreach with ⟨rfl, rfl⟩ | rfl
  · -- below a power of two the interval is short, but a step is shorter than its other half
    exact Or.inr ⟨by omega, by omega, by omega⟩
  · by_cases hrest : rest < 2 * unit
    · exact Or.inl ⟨by omega, by omega, by omega⟩
    · exact Or.inr ⟨by omega, by omega, by omega⟩

/-- **The shortest decimal is in the interval** of the magnitude that it is for. -/
theorem holds_shortest (h : Canonical m e) (hm : m ≠ 0) :
    (interval m e).holds (interval m e).shortest.1 (interval m e).shortest.2 = true := by
  have hc : 0 < (interval m e).centre := by
    rw [interval_centre]
    have hpos := Nat.mul_pos (Nat.pos_of_ne_zero hm) (Nat.two_pow_pos e)
    omega
  rw [Interval.shortest]
  obtain ⟨d, hd⟩ := Interval.exists_nearest? (holds_neighbour h hm (Interval.step_le hc))
  cases hf : ((List.range 17).map fun n : Nat => (interval m e).decade - n).findSome? fun k =>
      ((interval m e).nearest? k).map (·, k) with
  | none =>
    -- the last grid has a nearest decimal
    have hmem : (interval m e).decade - 16 ∈
        (List.range 17).map fun n : Nat => (interval m e).decade - n :=
      List.mem_map.mpr ⟨16, by decide, rfl⟩
    have hnone := List.findSome?_eq_none_iff.mp hf _ hmem
    rw [hd] at hnone
    cases hnone
  | some r =>
    obtain ⟨k, -, hk⟩ := List.exists_of_findSome?_eq_some hf
    obtain ⟨d', hd', rfl⟩ := Option.map_eq_some_iff.mp hk
    exact Interval.holds_of_nearest? hd'

/-! ### Decimals in the interval -/

theorem oneInQuarters_eq : oneInQuarters = 2 ^ 1076 := by decide +kernel

/-- What is in the interval lies between the least and the greatest magnitude, up to a digit. -/
theorem bounds_of_holds (h : Canonical m e) (hm : m ≠ 0) {n : Nat} {k : Int}
    (hi : (interval m e).holds n k = true) :
    denominator k < numerator n k * 10 ^ 324 ∧ numerator n k < 10 ^ 309 * denominator k := by
  obtain ⟨hlow, hhigh, -⟩ := (interval_has_iff hm).mp (Interval.holds_iff.mp hi)
  have hD := denominator_pos k
  have hB : denominator k ≤ 2 ^ e * denominator k := Nat.le_mul_of_pos_left _ (Nat.two_pow_pos e)
  have hmB := Nat.mul_le_mul_right (2 ^ e * denominator k) (Nat.pos_of_ne_zero hm)
  have hmB' := Nat.mul_le_mul_right (2 ^ e * denominator k) (Nat.succ_le_of_lt h.1)
  have hreach : reach m e * denominator k ≤ 2 * (2 ^ e * denominator k) := by
    rw [← Nat.mul_assoc]
    exact Nat.mul_le_mul_right _ reach_le_two
  have he := Nat.mul_le_mul_right (denominator k) (Nat.pow_le_pow_right (by decide : 0 < 2) h.2.1)
  rw [Nat.succ_mul] at hmB hmB'
  rw [oneInQuarters_eq] at hlow hhigh
  generalize denominator k = d at *
  generalize numerator n k = x at *
  constructor
  · have hx : 2 * d ≤ x * 2 ^ 1076 := by omega
    have hpow : x * 2 ^ 1076 ≤ x * 10 ^ 324 := Nat.mul_le_mul_left x (by decide +kernel)
    omega
  · have hx : x * 2 ^ 1076 < 2 ^ 55 * (2 ^ 2045 * d) := by omega
    have hpow : 2 ^ 55 * 2 ^ 2045 ≤ 10 ^ 309 * 2 ^ 1076 := by decide +kernel
    generalize 2 ^ 2045 = a at hx hpow
    generalize 2 ^ 1076 = b at hx hpow
    refine Nat.lt_of_mul_lt_mul_right (Nat.lt_of_lt_of_le hx ?_) (a := b)
    rw [← Nat.mul_assoc, Nat.mul_right_comm _ d b]
    exact Nat.mul_le_mul_right d hpow

/-- The size of a decimal, by its first digit. -/
theorem decade_of_bounds {n a b : Nat} {k : Int} (hlow : denominator k < numerator n k * 10 ^ a)
    (hhigh : numerator n k < 10 ^ b * denominator k) :
    n ≠ 0 ∧ -(a : Int) ≤ ((Text.natChars n).length : Int) + k ∧
      ((Text.natChars n).length : Int) + k ≤ b + 1 := by
  have hn : n ≠ 0 := by
    rintro rfl
    rw [numerator_eq_mul, Nat.zero_mul, Nat.zero_mul] at hlow
    exact Nat.not_lt_zero _ hlow
  obtain ⟨l, hl⟩ := Text.exists_length_natChars n
  have hge := Text.pow_length_natChars_le hn hl
  have hlt := Text.lt_pow_length_natChars n
  rw [hl] at hlt
  refine ⟨hn, ?_⟩
  rw [hl]
  cases k with
  | ofNat k =>
    rw [numerator, denominator, tenTo_eq, Nat.mul_one] at hhigh
    have hpow := Nat.lt_of_le_of_lt (Nat.mul_le_mul_right (10 ^ k) hge) hhigh
    rw [← Nat.pow_add, Nat.pow_lt_pow_iff_right (by decide)] at hpow
    rw [Int.ofNat_eq_natCast]
    omega
  | negSucc k =>
    rw [numerator, denominator, tenTo_eq] at hlow hhigh
    have hpow := Nat.lt_of_le_of_lt hge hhigh
    have hpow' := Nat.lt_of_lt_of_le hlow (Nat.mul_le_mul_right (10 ^ a) (Nat.le_of_lt hlt))
    rw [← Nat.pow_add, Nat.pow_lt_pow_iff_right (by decide)] at hpow hpow'
    omega

/-- **A decimal in the interval is read as the magnitude**, its size being in range. -/
theorem ofDecimal_of_holds {negative : Bool} (h : Canonical m e) (hm : m ≠ 0) {n : Nat} {k : Int}
    (hi : (interval m e).holds n k = true) : ofDecimal negative n k = .finite negative m e h := by
  obtain ⟨hlow, hhigh⟩ := bounds_of_holds h hm hi
  obtain ⟨hn, hsmall, hlarge⟩ := decade_of_bounds hlow hhigh
  have hhas : (interval m e).Has (4 * (numerator n k * one)) (denominator k) := by
    have hmul : 4 * (numerator n k * one) = numerator n k * oneInQuarters := by
      rw [oneInQuarters]
      ring
    rw [hmul]
    exact Interval.holds_iff.mp hi
  have hratio : ofRatio negative (numerator n k) (denominator k) = .finite negative m e h :=
    ofRatio_of_has h hm (denominator_pos k) hhas
  unfold ofDecimal
  simp only [Bool.or_eq_true, decide_eq_true_eq]
  rw [if_neg (by omega), if_neg (by omega), ← hratio]
  cases k <;> rfl

end

end AccessTree.Binary64
