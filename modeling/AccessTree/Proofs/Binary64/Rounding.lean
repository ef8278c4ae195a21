import AccessTree.Binary64.Shortest
import Mathlib.Data.Nat.Log
import Mathlib.Tactic.Linarith
import Mathlib.Tactic.Ring

/-! # Rounding to the nearest number

The rounding interval of a magnitude holds exactly what it is meant to: a quotient that lies in it is
rounded to the magnitude (`ofRatio_of_has`). Its exponent is that of the magnitude, and the mantissa
is at most one half away (`roundQuotient_eq`); only below a power of two, where the next number is
nearer, a quotient of the interval has the exponent before and is rounded up to the power of two.
Everything is compared as natural numbers, with denominators multiplied out. -/

namespace AccessTree.Binary64

/-- A quotient is rounded to the natural number that is at most one half away, and to an even one if
it is exactly one half away. -/
theorem roundQuotient_eq {n d r : Nat} (hd : 0 < d) (hlow : 2 * (r * d) ≤ 2 * n + d)
    (hhigh : 2 * n ≤ 2 * (r * d) + d)
    (htie : 2 * (r * d) = 2 * n + d ∨ 2 * n = 2 * (r * d) + d → r % 2 = 0) :
    roundQuotient n d = r := by
  have hn : n / d * d + n % d = n := by rw [Nat.mul_comm, Nat.div_add_mod]
  have hs : n % d < d := Nat.mod_lt n hd
  rw [roundQuotient]
  generalize n / d = q at hn ⊢
  generalize n % d = s at hn hs ⊢
  have hle : q ≤ r := by
    by_contra h
    have hmul := Nat.mul_le_mul_right d (Nat.lt_of_not_le h)
    rw [Nat.succ_mul] at hmul
    omega
  have hge : r ≤ q + 1 := by
    by_contra h
    have hmul := Nat.mul_le_mul_right d (Nat.lt_of_not_le h)
    rw [Nat.succ_mul, Nat.succ_mul] at hmul
    omega
  obtain rfl | rfl : r = q ∨ r = q + 1 := by omega
  · split_ifs <;> omega
  · rw [Nat.succ_mul q d] at hlow hhigh htie
    split_ifs <;> omega

/-! ### The rounding interval -/

section

variable {m e : Nat}

/-- How far the interval of a magnitude reaches down, in quarters of a unit. -/
def reach (m e : Nat) : Nat := if m = 1 <<< 52 ∧ e ≠ 0 then 2 ^ e else 2 * 2 ^ e

theorem interval_lower : (interval m e).lower = 4 * (m * 2 ^ e) - reach m e := by
  rw [interval, reach]
  split_ifs <;> simp only [Nat.shiftLeft_eq, one_mul]

theorem interval_upper : (interval m e).upper = 4 * (m * 2 ^ e) + 2 * 2 ^ e := by
  simp only [interval, Nat.shiftLeft_eq]

theorem interval_centre : (interval m e).centre = 4 * (m * 2 ^ e) := by
  simp only [interval, Nat.shiftLeft_eq]

theorem interval_closed : (interval m e).closed = decide (m % 2 = 0) := rfl

end

/-- **A quotient lies in the interval** of a magnitude: `n / d`, in quarters of a unit. -/
def Interval.Has (i : Interval) (n d : Nat) : Prop :=
  i.lower * d ≤ n ∧ n ≤ i.upper * d ∧ (n = i.lower * d ∨ n = i.upper * d → i.closed = true)

section

variable {m e n d : Nat}

theorem reach_le_two : reach m e ≤ 2 * 2 ^ e := by
  rw [reach]
  split_ifs <;> omega

theorem reach_le (hm : m ≠ 0) : reach m e ≤ 4 * (m * 2 ^ e) := by
  have hmul := Nat.mul_le_mul_right (2 ^ e) (Nat.one_le_iff_ne_zero.mpr hm)
  have htwo := @reach_le_two m e
  omega

/-- The interval in terms of the magnitude `m · 2 ^ e`, with denominators multiplied out. -/
theorem interval_has_iff (hm : m ≠ 0) : (interval m e).Has n d ↔
    4 * (m * (2 ^ e * d)) ≤ n + reach m e * d ∧ n ≤ 4 * (m * (2 ^ e * d)) + 2 * (2 ^ e * d) ∧
      (n + reach m e * d = 4 * (m * (2 ^ e * d)) ∨
        n = 4 * (m * (2 ^ e * d)) + 2 * (2 ^ e * d) → m % 2 = 0) := by
  have hlow : (interval m e).lower * d + reach m e * d = 4 * (m * (2 ^ e * d)) := by
    rw [interval_lower, ← Nat.add_mul, Nat.sub_add_cancel (reach_le hm), Nat.mul_assoc,
      Nat.mul_assoc]
  have hhigh : (interval m e).upper * d = 4 * (m * (2 ^ e * d)) + 2 * (2 ^ e * d) := by
    rw [interval_upper, Nat.add_mul, Nat.mul_assoc, Nat.mul_assoc, Nat.mul_assoc]
  rw [Interval.Has, interval_closed, decide_eq_true_eq, hhigh, ← hlow]
  refine and_congr (by omega) (and_congr Iff.rfl (imp_congr_left (or_congr_left ?_)))
  omega

end

/-! ### Quotients in the interval -/

section

variable {negative : Bool} {m e u d : Nat}

theorem ofMantissa_of_canonical (h : Canonical m e) : ofMantissa negative m e = .finite negative m e h := by
  have hne : m ≠ 1 <<< 53 := Nat.ne_of_lt h.1
  simp only [ofMantissa, hne, if_false]
  rw [dif_pos h]

/-- A mantissa that was rounded up to the next power of two is carried to the exponent. -/
theorem ofMantissa_two_pow (h : Canonical (2 ^ 52) (e + 1)) :
    ofMantissa negative (2 ^ 53) e = .finite negative (2 ^ 52) (e + 1) h := by
  have hm : (if 2 ^ 53 = 1 <<< 53 then 1 <<< 52 else 2 ^ 53) = 2 ^ 52 := rfl
  have he : (if 2 ^ 53 = 1 <<< 53 then e + 1 else e) = e + 1 := rfl
  simp only [ofMantissa, hm, he]
  rw [dif_pos h]

/-- A quotient in the interval is rounded to the mantissa, with the exponent of the magnitude. -/
theorem roundQuotient_of_has (hm : m ≠ 0) (hd : 0 < d) (hi : (interval m e).Has (4 * u) d) :
    roundQuotient u (d <<< e) = m := by
  obtain ⟨hlow, hhigh, htie⟩ := (interval_has_iff hm).mp hi
  rw [Nat.shiftLeft_eq, Nat.mul_comm d]
  have hpos : 0 < 2 ^ e * d := Nat.mul_pos (Nat.two_pow_pos e) hd
  have hreach : reach m e * d ≤ 2 * (2 ^ e * d) := by
    rw [← Nat.mul_assoc]
    exact Nat.mul_le_mul_right d reach_le_two
  refine roundQuotient_eq hpos (by omega) (by omega) fun h => htie ?_
  omega

/-- A quotient in the interval lies below the next power of two. -/
theorem div_lt_of_has (h : Canonical m e) (hm : m ≠ 0) (hd : 0 < d)
    (hi : (interval m e).Has (4 * u) d) : u / d < 2 ^ (53 + e) := by
  obtain ⟨-, hhigh, -⟩ := (interval_has_iff hm).mp hi
  have hlt : m < 2 ^ 53 := h.1
  have hpos : 0 < 2 ^ e * d := Nat.mul_pos (Nat.two_pow_pos e) hd
  have hmul := Nat.mul_le_mul_right (2 ^ e * d) (Nat.succ_le_of_lt hlt)
  rw [Nat.succ_mul] at hmul
  rw [Nat.div_lt_iff_lt_mul hd, Nat.pow_add, Nat.mul_assoc]
  omega

/-- The exponent of a quotient in the interval is that of the magnitude, unless the quotient lies
below a power of two that the magnitude is. -/
theorem exponent_of_has (h : Canonical m e) (hm : m ≠ 0) (hd : 0 < d)
    (hi : (interval m e).Has (4 * u) d) (hge : e = 0 ∨ 2 ^ (52 + e) * d ≤ u) :
    (u / d).log2 - 52 = e := by
  have hlt := div_lt_of_has h hm hd hi
  rcases hge with rfl | hge
  · by_cases hz : u / d = 0
    · rw [hz]
      rfl
    · have hlog := (Nat.log2_lt hz).mpr hlt
      omega
  · have hle := (Nat.le_div_iff_mul_le hd).mpr hge
    have hz : u / d ≠ 0 := Nat.ne_of_gt (Nat.lt_of_lt_of_le (Nat.two_pow_pos _) hle)
    have hlog := (Nat.log2_lt hz).mpr hlt
    have hlog' := (Nat.le_log2 hz).mpr hle
    omega

/-- A quotient in the interval and below the power of two that the magnitude is has the exponent
before, and is rounded up to the power of two. -/
theorem roundQuotient_below (h : Canonical m (e + 1)) (hd : 0 < d)
    (hi : (interval m (e + 1)).Has (4 * u) d) (hlt : u < 2 ^ (52 + (e + 1)) * d) :
    m = 2 ^ 52 ∧ (u / d).log2 - 52 = e ∧ roundQuotient u (d <<< e) = 2 ^ 53 := by
  have hmge : 2 ^ 52 ≤ m := h.2.2.resolve_left (Nat.succ_ne_zero e)
  have hm : m ≠ 0 := by omega
  obtain ⟨hlow, -, -⟩ := (interval_has_iff hm).mp hi
  have hpos : 0 < 2 ^ e * d := Nat.mul_pos (Nat.two_pow_pos e) hd
  have hdouble : 2 ^ (e + 1) * d = 2 * (2 ^ e * d) := by rw [Nat.pow_succ]; ring
  have hpower : 2 ^ (52 + (e + 1)) * d = 2 ^ 53 * (2 ^ e * d) := by
    rw [show 52 + (e + 1) = 53 + e by omega, Nat.pow_add, Nat.mul_assoc]
  rw [hdouble] at hlow
  rw [hpower] at hlt
  have hmeq : m = 2 ^ 52 := by
    by_contra hne
    have hmul := Nat.mul_le_mul_right (2 * (2 ^ e * d)) (Nat.lt_of_le_of_ne hmge (Ne.symm hne))
    have hreach : reach m (e + 1) * d = 4 * (2 ^ e * d) := by
      rw [reach, if_neg fun hp => hne hp.1, Nat.pow_succ]
      ring
    rw [Nat.succ_mul] at hmul
    omega
  have hreach : reach m (e + 1) * d = 2 * (2 ^ e * d) := by
    rw [reach, if_pos ⟨hmeq, Nat.succ_ne_zero e⟩, hdouble]
  rw [hreach, hmeq] at hlow
  refine ⟨hmeq, ?_, ?_⟩
  · have hle : 2 ^ (52 + e) ≤ u / d := by
      rw [Nat.le_div_iff_mul_le hd, Nat.pow_add, Nat.mul_assoc]
      omega
    have hlt' : u / d < 2 ^ (53 + e) := by
      rw [Nat.div_lt_iff_lt_mul hd, Nat.pow_add, Nat.mul_assoc]
      omega
    have hz : u / d ≠ 0 := Nat.ne_of_gt (Nat.lt_of_lt_of_le (Nat.two_pow_pos _) hle)
    have hlog := (Nat.log2_lt hz).mpr hlt'
    have hlog' := (Nat.le_log2 hz).mpr hle
    omega
  · rw [Nat.shiftLeft_eq, Nat.mul_comm d]
    exact roundQuotient_eq hpos (by omega) (by omega) (by omega)

/-- **A quotient in the interval of a magnitude is rounded to it.** -/
theorem ofRatio_of_has (h : Canonical m e) (hm : m ≠ 0) {n : Nat} (hd : 0 < d)
    (hi : (interval m e).Has (4 * (n * one)) d) : ofRatio negative n d = .finite negative m e h := by
  rw [ofRatio]
  by_cases hge : e = 0 ∨ 2 ^ (52 + e) * d ≤ n * one
  · simp only [exponent_of_has h hm hd hi hge, roundQuotient_of_has hm hd hi]
    exact ofMantissa_of_canonical h
  · obtain ⟨hne, hlt⟩ := not_or.mp hge
    obtain ⟨e, rfl⟩ := Nat.exists_eq_succ_of_ne_zero hne
    obtain ⟨rfl, hexponent, hround⟩ := roundQuotient_below h hd hi (Nat.lt_of_not_le hlt)
    simp only [hexponent, hround]
    exact ofMantissa_two_pow h

end

end AccessTree.Binary64
