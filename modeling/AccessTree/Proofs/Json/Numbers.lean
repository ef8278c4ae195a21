import AccessTree.Json.Printer
import AccessTree.Json.Reader
import AccessTree.Proofs.Binary64.Shortest

/-! # Numbers read back

A written number is read back if what follows it does not go on with it (`EndsNumber`). The text of
a float is its shortest digits with a point or an exponent, and `layout` puts as many zeros beside
them as the exponent asks for: what is read is the same digits with a power of ten moved between
them and the exponent (`unsignedNumber_layout`). It lies in the interval of the float as the
shortest decimal does, and so it is rounded to the float (`scalar_float`). An integer has neither
point nor exponent, and no float is written like that. -/

namespace AccessTree.Json

/-! ### Digits -/

/-- What follows a number does not start with anything that could belong to it. -/
def EndsNumber (rest : List Char) : Prop :=
  ∀ c, rest.head? = some c → c.isDigit = false ∧ c ≠ '.' ∧ c ≠ 'e' ∧ c ≠ 'E'

theorem endsNumber_nil : EndsNumber [] := by
  rintro c ⟨⟩

theorem endsNumber_cons {c : Char} (h : c.isDigit = false ∧ c ≠ '.' ∧ c ≠ 'e' ∧ c ≠ 'E')
    (cs : List Char) : EndsNumber (c :: cs) := by
  rintro d ⟨rfl⟩
  exact h

/-- What follows digits does not start with one. -/
def EndsDigits (rest : List Char) : Prop := ∀ c, rest.head? = some c → c.isDigit = false

theorem EndsNumber.endsDigits {rest : List Char} (h : EndsNumber rest) : EndsDigits rest :=
  fun c hc => (h c hc).1

theorem endsDigits_cons {c : Char} {cs : List Char} (h : c.isDigit = false) :
    EndsDigits (c :: cs) := by
  rintro d ⟨rfl⟩
  exact h

theorem takeDigits_append {cs rest : List Char} (hd : ∀ c ∈ cs, c.isDigit) (hr : EndsDigits rest) :
    takeDigits (cs ++ rest) = (Text.charDigits cs, rest) := by
  induction cs with
  | nil =>
    cases rest with
    | nil => rfl
    | cons c rest =>
      have hc := hr c rfl
      rw [List.nil_append, takeDigits, Text.asciiDigit?, hc]
      rfl
  | cons c cs ih =>
    rw [List.cons_append, takeDigits, Text.asciiDigit?, if_pos (hd c List.mem_cons_self),
      ih fun d hc => hd d (List.mem_cons_of_mem c hc)]
    rfl

/-- Digits that a number may start with. -/
structure WholeDigits (cs : List Char) : Prop where
  digits : ∀ c ∈ cs, c.isDigit
  nonempty : cs ≠ []
  zero : cs.head? = some '0' → cs = ['0']

theorem wholeDigits_natChars (n : Nat) : WholeDigits (Text.natChars n) where
  digits _ := Text.isDigit_of_mem_natChars
  nonempty := Text.natChars_ne_nil n
  zero h := by
    by_cases hn : n = 0
    · rw [hn]
      rfl
    · exact absurd h (Text.head?_natChars_ne hn)

theorem wholePart?_append {cs rest : List Char} (h : WholeDigits cs) (hr : EndsDigits rest) :
    wholePart? (cs ++ rest) = some (Text.charDigits cs, rest) := by
  match cs, h with
  | [], h => exact absurd rfl h.nonempty
  | c :: cs, h =>
    by_cases hc : c = '0'
    · subst hc
      obtain ⟨-, rfl⟩ := List.cons.inj (h.zero rfl)
      rfl
    · have htake := takeDigits_append h.digits hr
      rw [List.cons_append] at htake ⊢
      rw [wholePart?, htake]
      · rfl
      · exact fun _ hz => hc (List.cons.inj hz).1

theorem fractionPart_append {cs rest : List Char} (hd : ∀ c ∈ cs, c.isDigit) (hne : cs ≠ [])
    (hr : EndsDigits rest) : fractionPart ('.' :: (cs ++ rest)) = (Text.charDigits cs, rest) := by
  rw [fractionPart, takeDigits_append hd hr]
  obtain ⟨c, cs', rfl⟩ := List.exists_cons_of_ne_nil hne
  rfl

theorem fractionPart_of_head {rest : List Char} (h : rest.head? ≠ some '.') :
    fractionPart rest = ([], rest) := by
  rw [fractionPart]
  rintro cs rfl
  exact h rfl

theorem exponentPart?_of_head {rest : List Char} (h : rest.head? ≠ some 'e')
    (h' : rest.head? ≠ some 'E') : exponentPart? rest = none := by
  match rest with
  | [] => rfl
  | c :: cs =>
    rw [exponentPart?, if_neg]
    rintro (rfl | rfl)
    · exact h rfl
    · exact h' rfl

/-- The written exponent is read back. -/
theorem exponentPart?_append (e : Int) {rest : List Char} (hr : EndsDigits rest) :
    exponentPart? (Binary64.exponentChars e ++ rest) = some (e, rest) := by
  let ds := List.replicate (2 - (Text.natChars e.natAbs).length) '0' ++ Text.natChars e.natAbs
  have hd : ∀ c ∈ ds, c.isDigit := by
    intro c hc
    rcases List.mem_append.mp hc with hz | hn
    · exact Text.isDigit_of_mem_zeros hz
    · exact Text.isDigit_of_mem_natChars hn
  have hval : Text.ofDigits (Text.charDigits ds) = e.natAbs := by
    rw [Text.ofDigits_zeros_append, Text.ofDigits_charDigits]
  have htake := takeDigits_append hd hr
  obtain ⟨d, ds', hds⟩ : ∃ d ds', Text.charDigits ds = d :: ds' := by
    refine List.exists_cons_of_ne_nil fun hnil => ?_
    exact Text.natChars_ne_nil e.natAbs (List.append_eq_nil_iff.mp (List.map_eq_nil_iff.mp hnil)).2
  rw [hds] at htake hval
  change exponentPart? ('e' :: (if e < 0 then '-' else '+') :: (ds ++ rest)) = _
  rw [exponentPart?, if_pos (Or.inl rfl)]
  split_ifs with h
  · rw [exponentSign]
    simp only [htake, hval, Text.signed, if_true]
    congr
    omega
  · rw [exponentSign]
    simp only [htake, hval, Text.signed, Bool.false_eq_true, if_false]
    congr
    omega

/-! ### Numbers without a sign -/

section

variable {whole fraction rest : List Char} (negative : Bool)

/-- Digits and no more are an integer, unless there are too many. -/
theorem unsignedNumber_whole (hw : WholeDigits whole) (hr : EndsNumber rest) :
    unsignedNumber negative (whole ++ rest) =
      some ((Text.readDigits (Text.charDigits whole)).map fun n => .int (Text.signed negative n),
        rest) := by
  have hpoint : rest.head? ≠ some '.' := fun h => (hr _ h).2.1 rfl
  have he : rest.head? ≠ some 'e' := fun h => (hr _ h).2.2.1 rfl
  have he' : rest.head? ≠ some 'E' := fun h => (hr _ h).2.2.2 rfl
  rw [unsignedNumber, wholePart?_append hw hr.endsDigits, Option.map_some]
  simp only [fractionPart_of_head hpoint, exponentPart?_of_head he he']

/-- Digits with a point in them. -/
theorem unsignedNumber_point (hw : WholeDigits whole) (hf : ∀ c ∈ fraction, c.isDigit)
    (hne : fraction ≠ []) (hr : EndsNumber rest) :
    unsignedNumber negative (whole ++ '.' :: (fraction ++ rest)) =
      some (.ok (.float (.ofDecimal negative (Text.ofDigits (Text.charDigits (whole ++ fraction)))
        (-fraction.length))), rest) := by
  have he : rest.head? ≠ some 'e' := fun h => (hr _ h).2.2.1 rfl
  have he' : rest.head? ≠ some 'E' := fun h => (hr _ h).2.2.2 rfl
  have hcons : ∃ d ds, Text.charDigits fraction = d :: ds :=
    List.exists_cons_of_ne_nil fun h => hne (List.map_eq_nil_iff.mp h)
  rw [unsignedNumber, wholePart?_append hw (endsDigits_cons rfl), Option.map_some]
  simp only [fractionPart_append hf hne hr.endsDigits, exponentPart?_of_head he he']
  obtain ⟨d, ds, hds⟩ := hcons
  rw [← Text.length_charDigits fraction, Text.charDigits_append, hds]
  simp only [Int.zero_sub]

/-- Digits with an exponent after them, and perhaps a point in them. -/
theorem unsignedNumber_exponent (hw : WholeDigits whole) (hf : ∀ c ∈ fraction, c.isDigit) (e : Int)
    (hr : EndsDigits rest) :
    unsignedNumber negative (whole ++ ((if fraction = [] then [] else '.' :: fraction) ++
        (Binary64.exponentChars e ++ rest))) =
      some (.ok (.float (.ofDecimal negative (Text.ofDigits (Text.charDigits (whole ++ fraction)))
        (e - fraction.length))), rest) := by
  have hexp : EndsDigits (Binary64.exponentChars e ++ rest) := endsDigits_cons rfl
  have hfraction : fractionPart ((if fraction = [] then [] else '.' :: fraction) ++
      (Binary64.exponentChars e ++ rest)) =
        (Text.charDigits fraction, Binary64.exponentChars e ++ rest) := by
    split_ifs with hnil
    · rw [hnil, List.nil_append, fractionPart_of_head]
      · rfl
      · exact fun h => absurd (Option.some.inj h) (by decide)
    · exact fractionPart_append hf hnil hexp
  have hwhole : EndsDigits ((if fraction = [] then [] else '.' :: fraction) ++
      (Binary64.exponentChars e ++ rest)) := by
    split_ifs
    · exact hexp
    · exact endsDigits_cons rfl
  rw [unsignedNumber, wholePart?_append hw hwhole, Option.map_some]
  simp only [hfraction, exponentPart?_append e hr, Text.charDigits_append, Text.length_charDigits]

end

/-! ### Shortest digits with a point or an exponent -/

/-- The decimal `n · 10 ^ k` has the digits `ds`, the first of which stands for `10 ^ e`; zeros may
follow them. -/
def IsDecimal (ds : List Char) (e : Int) (n : Nat) (k : Int) : Prop :=
  ∃ j, n = Text.ofDigits (Text.charDigits ds) * Binary64.tenTo j ∧ k + j = e + 1 - ds.length

theorem isDecimal_self {ds : List Char} {e k : Int} (hk : k = e + 1 - ds.length) :
    IsDecimal ds e (Text.ofDigits (Text.charDigits ds)) k :=
  ⟨0, (Nat.mul_one _).symm, by omega⟩

theorem isDecimal_zeros_append {ds : List Char} {e k : Int} (z : Nat)
    (hk : k = e + 1 - ds.length) :
    IsDecimal ds e (Text.ofDigits (Text.charDigits (List.replicate z '0' ++ ds))) k := by
  rw [Text.ofDigits_zeros_append]
  exact isDecimal_self hk

theorem isDecimal_append_zeros {ds : List Char} {e k : Int} (z : Nat)
    (hk : k + z = e + 1 - ds.length) :
    IsDecimal ds e (Text.ofDigits (Text.charDigits (ds ++ List.replicate z '0'))) k := by
  rw [Text.ofDigits_append_zeros]
  exact ⟨z, rfl, hk⟩

/-- It does not matter for a decimal in an interval how many zeros follow its digits. -/
theorem IsDecimal.holds_eq {ds : List Char} {e k : Int} {n : Nat} (h : IsDecimal ds e n k)
    (i : Binary64.Interval) :
    i.holds n k = i.holds (Text.ofDigits (Text.charDigits ds)) (e + 1 - ds.length) := by
  obtain ⟨j, rfl, hk⟩ := h
  rw [Binary64.Interval.holds_shift, hk]

/-- Digits of a number that is not zero, without zeros in front. -/
structure LeadingDigits (ds : List Char) : Prop where
  digits : ∀ c ∈ ds, c.isDigit
  nonempty : ds ≠ []
  head : ds.head? ≠ some '0'

namespace LeadingDigits

variable {ds rest : List Char} (negative : Bool)

theorem head?_append (h : LeadingDigits ds) (cs : List Char) : (ds ++ cs).head? = ds.head? := by
  obtain ⟨d, ds', rfl⟩ := List.exists_cons_of_ne_nil h.nonempty
  rfl

theorem whole_append (h : LeadingDigits ds) (z : Nat) :
    WholeDigits (ds ++ List.replicate z '0') where
  digits c hc := (List.mem_append.mp hc).elim (h.digits c) Text.isDigit_of_mem_zeros
  nonempty := List.append_ne_nil_of_left_ne_nil h.nonempty _
  zero hz := absurd (h.head?_append _ ▸ hz) h.head

theorem whole_take (h : LeadingDigits ds) (n : Nat) : WholeDigits (ds.take (n + 1)) := by
  have hhead : (ds.take (n + 1)).head? = ds.head? := by
    rw [List.head?_take, if_neg (Nat.succ_ne_zero n)]
  refine ⟨fun c hc => h.digits c (List.mem_of_mem_take hc), fun hnil => ?_, fun hz => ?_⟩
  · rw [hnil] at hhead
    exact h.nonempty (List.head?_eq_none_iff.mp hhead.symm)
  · exact absurd (hhead ▸ hz) h.head

/-- Zeros between the point and the digits. -/
theorem unsignedNumber_small (h : LeadingDigits ds) {e : Int} (he : e < 0) (hr : EndsNumber rest) :
    ∃ n k, IsDecimal ds e n k ∧
      unsignedNumber negative ('0' :: '.' :: (List.replicate (e.natAbs - 1) '0' ++ ds) ++ rest) =
        some (.ok (.float (.ofDecimal negative n k)), rest) := by
  have hf : ∀ c ∈ List.replicate (e.natAbs - 1) '0' ++ ds, c.isDigit := fun c hc =>
    (List.mem_append.mp hc).elim Text.isDigit_of_mem_zeros (h.digits c)
  have hread := unsignedNumber_point negative (wholeDigits_natChars 0) hf
    (List.append_ne_nil_of_right_ne_nil _ h.nonempty) hr
  have hzeros : Text.natChars 0 ++ (List.replicate (e.natAbs - 1) '0' ++ ds) =
      List.replicate (e.natAbs - 1 + 1) '0' ++ ds := by
    rw [List.replicate_succ]
    rfl
  rw [hzeros] at hread
  refine ⟨_, _, isDecimal_zeros_append _ ?_, hread⟩
  rw [List.length_append, List.length_replicate]
  omega

/-- Zeros between the digits and the point, and one after it. -/
theorem unsignedNumber_large (h : LeadingDigits ds) {e : Int} {z : Nat} (hz : e + 1 = ds.length + z)
    (hr : EndsNumber rest) :
    ∃ n k, IsDecimal ds e n k ∧
      unsignedNumber negative (ds ++ List.replicate z '0' ++ '.' :: (['0'] ++ rest)) =
        some (.ok (.float (.ofDecimal negative n k)), rest) := by
  have hf : ∀ c ∈ ['0'], c.isDigit := List.forall_mem_singleton.mpr rfl
  have hread := unsignedNumber_point negative (h.whole_append z) hf (List.cons_ne_nil _ _) hr
  have hzeros : ds ++ List.replicate z '0' ++ ['0'] = ds ++ List.replicate (z + 1) '0' := by
    rw [List.append_assoc, List.replicate_succ']
  rw [hzeros] at hread
  refine ⟨_, _, isDecimal_append_zeros _ ?_, hread⟩
  rw [List.length_singleton]
  omega

/-- A point between the digits. -/
theorem unsignedNumber_between (h : LeadingDigits ds) {e : Int} (he : 0 ≤ e)
    (hlen : e.natAbs + 1 < ds.length) (hr : EndsNumber rest) :
    ∃ n k, IsDecimal ds e n k ∧
      unsignedNumber negative (ds.take (e.natAbs + 1) ++ '.' :: (ds.drop (e.natAbs + 1) ++ rest)) =
        some (.ok (.float (.ofDecimal negative n k)), rest) := by
  have hne : ds.drop (e.natAbs + 1) ≠ [] := fun hnil =>
    absurd (List.drop_eq_nil_iff.mp hnil) (Nat.not_le_of_lt hlen)
  have hread := unsignedNumber_point negative (h.whole_take e.natAbs)
    (fun c hc => h.digits c (List.mem_of_mem_drop hc)) hne hr
  rw [List.take_append_drop, List.length_drop] at hread
  exact ⟨_, _, isDecimal_self (by omega), hread⟩

/-- One digit, the others after a point, and an exponent. -/
theorem unsignedNumber_scientific (h : LeadingDigits ds) (e : Int) (hr : EndsNumber rest) :
    ∃ n k, IsDecimal ds e n k ∧
      unsignedNumber negative (ds.take 1 ++ ((if ds.drop 1 = [] then [] else '.' :: ds.drop 1) ++
          (Binary64.exponentChars e ++ rest))) =
        some (.ok (.float (.ofDecimal negative n k)), rest) := by
  have hread := unsignedNumber_exponent negative (h.whole_take 0)
    (fun c hc => h.digits c (List.mem_of_mem_drop (i := 1) hc)) e hr.endsDigits
  have hlen := List.length_pos_iff.mpr h.nonempty
  rw [List.take_append_drop, List.length_drop] at hread
  exact ⟨_, _, isDecimal_self (by omega), hread⟩

/-- **Digits that were laid out are read back**, perhaps with more zeros and a smaller exponent. -/
theorem unsignedNumber_layout (h : LeadingDigits ds) (e : Int) (hr : EndsNumber rest) :
    ∃ n k, IsDecimal ds e n k ∧
      unsignedNumber negative (Binary64.layout ds e ++ rest) =
        some (.ok (.float (.ofDecimal negative n k)), rest) := by
  unfold Binary64.layout
  split_ifs with hsmall hwhole
  · exact h.unsignedNumber_small negative hsmall.2 hr
  · by_cases hlen : e.natAbs + 1 < ds.length
    · obtain ⟨n, k, hnk, hread⟩ := h.unsignedNumber_between negative hwhole.1 hlen hr
      have hne : ds.drop (e.natAbs + 1) ≠ [] := fun hnil =>
        absurd (List.drop_eq_nil_iff.mp hnil) (Nat.not_le_of_lt hlen)
      refine ⟨n, k, hnk, ?_⟩
      simpa only [if_neg hne, Nat.sub_eq_zero_of_le (Nat.le_of_lt hlen), List.replicate_zero,
        List.append_nil, List.append_assoc, List.cons_append] using hread
    · have hle := Nat.le_of_not_lt hlen
      have hz : e + 1 = ds.length + (e.natAbs + 1 - ds.length : Nat) := by omega
      obtain ⟨n, k, hnk, hread⟩ := h.unsignedNumber_large negative hz hr
      refine ⟨n, k, hnk, ?_⟩
      simpa only [List.take_of_length_le hle, List.drop_of_length_le hle, if_true,
        List.append_assoc, List.cons_append] using hread
  · obtain ⟨n, k, hnk, hread⟩ := h.unsignedNumber_scientific negative e hr
    refine ⟨n, k, hnk, ?_⟩
    rw [← hread]
    match ds, h.nonempty with
    | [d], _ => rfl
    | d :: d' :: ds, _ => simp

end LeadingDigits

/-! ### Floats -/

theorem exists_zeros (ds : List Char) :
    ∃ z, ds = Binary64.withoutTrailingZeros ds ++ List.replicate z '0' := by
  refine ⟨(ds.reverse.takeWhile (· = '0')).length, ?_⟩
  have hzeros : ds.reverse.takeWhile (· = '0') =
      List.replicate (ds.reverse.takeWhile (· = '0')).length '0' :=
    List.eq_replicate_of_mem fun c hc => of_decide_eq_true (List.all_eq_true.mp List.all_takeWhile c hc)
  have hsplit := congrArg List.reverse
    (List.takeWhile_append_dropWhile (p := (· = '0')) (l := ds.reverse))
  rw [List.reverse_append, List.reverse_reverse, hzeros, List.reverse_replicate] at hsplit
  rw [Binary64.withoutTrailingZeros, hsplit]

/-- The digits of a number that is not zero, without the zeros at the end. -/
theorem leadingDigits_withoutTrailingZeros {n : Nat} (hn : n ≠ 0) :
    LeadingDigits (Binary64.withoutTrailingZeros (Text.natChars n)) := by
  obtain ⟨z, hz⟩ := exists_zeros (Text.natChars n)
  have hhead := Text.head?_natChars_ne hn
  refine ⟨fun c hc => ?_, fun hnil => ?_, fun h => ?_⟩
  · have hmem := List.mem_append_left (List.replicate z '0') hc
    rw [← hz] at hmem
    exact Text.isDigit_of_mem_natChars hmem
  · -- otherwise all the digits are zeros
    rw [hnil, List.nil_append] at hz
    cases z with
    | zero => exact Text.natChars_ne_nil n hz
    | succ z =>
      rw [hz] at hhead
      exact hhead rfl
  · obtain ⟨ds, hds⟩ := List.head?_eq_some_iff.mp h
    rw [hz, hds] at hhead
    exact hhead rfl

theorem isDecimal_withoutTrailingZeros (n : Nat) (k : Int) :
    IsDecimal (Binary64.withoutTrailingZeros (Text.natChars n))
      (k + (Text.natChars n).length - 1) n k := by
  obtain ⟨z, hz⟩ := exists_zeros (Text.natChars n)
  have hlen := congrArg List.length hz
  rw [List.length_append, List.length_replicate] at hlen
  have hk : k + z = k + (Text.natChars n).length - 1 + 1 -
      (Binary64.withoutTrailingZeros (Text.natChars n)).length := by omega
  have hdecimal := isDecimal_append_zeros z hk
  rwa [← hz, Text.ofDigits_charDigits] at hdecimal

/-- **The text of a finite magnitude is read back.** -/
theorem unsignedNumber_magnitudeChars (negative : Bool) {m e : Nat} (h : Binary64.Canonical m e)
    {rest : List Char} (hr : EndsNumber rest) :
    unsignedNumber negative (Binary64.magnitudeChars m e ++ rest) =
      some (.ok (.float (.finite negative m e h)), rest) := by
  rw [Binary64.magnitudeChars]
  split_ifs with hm
  · have he : e = 0 := h.2.2.resolve_right fun hle => absurd (hm ▸ hle) (by decide)
    subst hm he
    have hf : ∀ c ∈ ['0'], c.isDigit := List.forall_mem_singleton.mpr rfl
    exact unsignedNumber_point negative (wholeDigits_natChars 0) hf (List.cons_ne_nil _ _) hr
  · have hshortest := Binary64.holds_shortest h hm
    have hd : (Binary64.interval m e).shortest.1 ≠ 0 := by
      obtain ⟨hlow, hhigh⟩ := Binary64.bounds_of_holds h hm hshortest
      exact (Binary64.decade_of_bounds hlow hhigh).1
    generalize (Binary64.interval m e).shortest = shortest at hshortest hd
    obtain ⟨d, k⟩ := shortest
    simp only at hshortest hd ⊢
    obtain ⟨n, k', hnk, hread⟩ := (leadingDigits_withoutTrailingZeros hd).unsignedNumber_layout
      negative (k + (Text.natChars d).length - 1) hr
    have hholds : (Binary64.interval m e).holds n k' = true := by
      rw [hnk.holds_eq, ← (isDecimal_withoutTrailingZeros d k).holds_eq]
      exact hshortest
    rw [hread, Binary64.ofDecimal_of_holds h hm hholds]

/-! ### Signs and words -/

theorem exists_digit_of_takeDigits {cs left : List Char} {d : Nat} {ds : List Nat}
    (h : takeDigits cs = (d :: ds, left)) : ∃ c t, cs = c :: t ∧ c.isDigit := by
  match cs with
  | [] => cases h
  | c :: t =>
    refine ⟨c, t, rfl, ?_⟩
    by_contra hc
    rw [takeDigits, Text.asciiDigit?, if_neg hc] at h
    cases h

/-- A number without its sign starts with a digit. -/
theorem exists_digit_of_unsignedNumber {negative : Bool} {cs : List Char}
    {r : Except NumeralFault Json × List Char} (h : unsignedNumber negative cs = some r) :
    ∃ c t, cs = c :: t ∧ c.isDigit := by
  obtain ⟨⟨whole, left⟩, hwhole, -⟩ := Option.map_eq_some_iff.mp h
  unfold wholePart? at hwhole
  split at hwhole
  · exact ⟨_, _, rfl, rfl⟩
  · split at hwhole
    · cases hwhole
    · next hne =>
      match htake : takeDigits cs with
      | ([], left) => exact absurd htake (hne left)
      | (d :: ds, left) => exact exists_digit_of_takeDigits htake

/-- The sign of a number. -/
def signChars (negative : Bool) : List Char := if negative then ['-'] else []

theorem number?_signed {negative : Bool} {cs : List Char}
    {r : Except NumeralFault Json × List Char} (h : unsignedNumber negative cs = some r) :
    number? (signChars negative ++ cs) = some r := by
  obtain ⟨c, t, rfl, hc⟩ := exists_digit_of_unsignedNumber h
  cases negative with
  | true => exact h
  | false =>
    change number? (c :: t) = some r
    rw [number?, h]
    rintro cs' heq
    obtain ⟨rfl, -⟩ := List.cons.inj heq
    exact absurd hc (by decide)

theorem word?_signed {negative : Bool} {c : Char} (hc : c.isDigit) (cs : List Char) :
    word? (signChars negative ++ c :: cs) = none := by
  have hne : ∀ d : Char, d.isDigit = false → d ≠ c := by
    rintro d hd rfl
    rw [hc] at hd
    cases hd
  cases negative <;>
    simp [signChars, word?, words, Text.afterStem?, hne 'n' rfl, hne 't' rfl, hne 'f' rfl,
      hne 'N' rfl, hne 'I' rfl, hne '-' rfl]

/-- A number is read with its sign, since no word starts like a number. -/
theorem scalar_signed {negative : Bool} {cs rest : List Char} {r : Except NumeralFault Json}
    (h : unsignedNumber negative cs = some (r, rest)) :
    scalar (signChars negative ++ cs) = (r.mapError .numeral).map (·, rest) := by
  have hnumber := number?_signed h
  obtain ⟨c, t, rfl, hc⟩ := exists_digit_of_unsignedNumber h
  rw [scalar, word?_signed hc, hnumber]
  cases r <;> rfl

theorem intChars_eq (n : Int) :
    Text.intChars n = signChars (n < 0) ++ Text.natChars n.natAbs := by
  cases n with
  | ofNat n =>
    rw [Text.intChars, signChars, if_neg]
    · rfl
    · simp
  | negSucc n =>
    rw [Text.intChars, signChars, if_pos]
    · rfl
    · simp [Int.negSucc_lt_zero]

/-- The digits of an integer, with its sign. -/
theorem unsignedNumber_int (n : Int) {rest : List Char} (hr : EndsNumber rest) :
    unsignedNumber (n < 0) (Text.natChars n.natAbs ++ rest) =
      some ((Text.readDigits (Text.charDigits (Text.natChars n.natAbs))).map fun _ => .int n,
        rest) := by
  rw [unsignedNumber_whole _ (wholeDigits_natChars n.natAbs) hr]
  cases hd : Text.readDigits (Text.charDigits (Text.natChars n.natAbs)) with
  | error fault => rfl
  | ok m =>
    obtain ⟨-, rfl⟩ := Text.readDigits_eq_ok.mp hd
    have hsigned : Text.signed (decide (n < 0)) n.natAbs = n := by
      rw [Text.signed]
      split_ifs with h
      · have := of_decide_eq_true h
        omega
      · have := of_decide_eq_false (Bool.eq_false_iff.mpr h)
        omega
    simp only [Except.map, Text.ofDigits_charDigits, hsigned]

theorem number?_int (n : Int) {rest : List Char} (hr : EndsNumber rest) :
    number? (Text.intChars n ++ rest) =
      some ((Text.readDigits (Text.charDigits (Text.natChars n.natAbs))).map fun _ => .int n,
        rest) := by
  rw [intChars_eq, List.append_assoc]
  exact number?_signed (unsignedNumber_int n hr)

/-- **An integer is read back**, unless it has too many digits. -/
theorem scalar_int (n : Int) {rest : List Char} (hr : EndsNumber rest) :
    scalar (Text.intChars n ++ rest) =
      ((Text.readDigits (Text.charDigits (Text.natChars n.natAbs))).mapError .numeral).map
        fun _ => (.int n, rest) := by
  rw [intChars_eq, List.append_assoc, scalar_signed (unsignedNumber_int n hr)]
  cases Text.readDigits (Text.charDigits (Text.natChars n.natAbs)) <;> rfl

/-- **Every float is read back.** -/
theorem scalar_float (x : Binary64) {rest : List Char} (hr : EndsNumber rest) :
    scalar (x.chars spelling ++ rest) = .ok (.float x, rest) := by
  cases x with
  | nan => simp [Binary64.chars, spelling, scalar, word?, words, Text.afterStem?]
  | infinite negative =>
    cases negative <;> simp [Binary64.chars, spelling, scalar, word?, words, Text.afterStem?]
  | finite negative m e h =>
    rw [Binary64.chars, List.append_assoc]
    exact scalar_signed (unsignedNumber_magnitudeChars negative h hr)

/-- No float is written like an integer. -/
theorem intChars_append_ne (n : Int) (x : Binary64) {r s : List Char} (hr : EndsNumber r)
    (hs : EndsNumber s) : Text.intChars n ++ r ≠ x.chars spelling ++ s := by
  intro h
  have hx := scalar_float x hs
  rw [← h, scalar_int n hr] at hx
  cases hd : Text.readDigits (Text.charDigits (Text.natChars n.natAbs)) <;> rw [hd] at hx <;>
    cases hx

end AccessTree.Json
