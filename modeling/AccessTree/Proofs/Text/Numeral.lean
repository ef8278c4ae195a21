import AccessTree.Text.Numeral
import Mathlib.Tactic.Common
import Mathlib.Tactic.Ring

/-! # Written numbers read back

The number in a numbered name is read back by `numbered?` when the name is a stem followed by the
decimal text of a natural number (`numbered?_append_ofNat`): the digit values are those of the
characters (`charDigits`), they spell the number (`ofDigits_charDigits`), and there are as many of
them as there are characters. What `writeInt` writes is thus short enough for `readDigits`. Zeros at
the end of digits are a power of ten (`ofDigits_append_zeros`), and zeros in front, which `natChars`
does not write (`head?_natChars_ne`), are nothing (`ofDigits_zeros_append`). An integer literal may
also have blanks around it and a sign in front (`spells_padded`). -/

namespace AccessTree.Text

/-! ### Digits -/

/-- The values of ASCII digits. -/
def charDigits (cs : List Char) : List Nat := cs.map fun c => c.toNat - 48

theorem length_charDigits (cs : List Char) : (charDigits cs).length = cs.length := by
  simp [charDigits]

theorem toNat_of_isDigit {c : Char} (h : c.isDigit) : 48 ≤ c.toNat ∧ c.toNat ≤ 57 := by
  simp only [Char.isDigit, ge_iff_le, Bool.and_eq_true, decide_eq_true_eq,
    UInt32.le_iff_toNat_le] at h
  exact h

theorem digitValue?_of_isDigit {c : Char} (h : c.isDigit) :
    digitValue? c = some (c.toNat - 48) := by
  have hc := toNat_of_isDigit h
  have hz : digitZeros.find? (fun z => decide (z ≤ c.toNat) && decide (c.toNat < z + 10)) =
      some 0x30 := by
    rw [digitZeros, List.find?_cons_of_pos]
    simp only [Bool.and_eq_true, decide_eq_true_eq]
    omega
  simp [digitValue?, hz]

theorem lineDigits?_of_isDigit : ∀ {cs : List Char}, cs ≠ [] → (∀ c ∈ cs, c.isDigit) →
    lineDigits? cs = some (charDigits cs)
  | [c], _, h => by
    simp [lineDigits?, charDigits, digitValue?_of_isDigit (h c (by simp))]
  | c :: d :: cs, _, h => by
    have hd : d ≠ '\n' := by
      rintro rfl
      exact absurd (h '\n' (by simp)) (by decide)
    have ih : lineDigits? (d :: cs) = some (charDigits (d :: cs)) :=
      lineDigits?_of_isDigit (by simp) fun x hx => h x (by simp [hx])
    rw [lineDigits?, digitValue?_of_isDigit (h c (by simp)), ih]
    · rfl
    · simp
    · intro hcs
      exact hd (List.cons.inj hcs).1

/-- What starts with no digit is no number. -/
theorem lineDigits?_eq_none {c : Char} {cs : List Char} (h : digitValue? c = none) :
    lineDigits? (c :: cs) = none := by
  unfold lineDigits?
  split <;> simp_all

theorem isDigit_of_mem_natChars {n : Nat} {c : Char} (h : c ∈ natChars n) : c.isDigit :=
  Nat.isDigit_of_mem_toDigits (by decide) (by decide) h

theorem natChars_ne_nil (n : Nat) : natChars n ≠ [] := Nat.toDigits_ne_nil

/-- The digits of the decimal text of a number spell the number. -/
theorem ofDigits_charDigits (n : Nat) : ofDigits (charDigits (natChars n)) = n := by
  rw [ofDigits, charDigits, List.foldl_map]
  exact Nat.ofDigitChars_toDigits (by decide) (by decide)

theorem charDigits_append (cs ds : List Char) :
    charDigits (cs ++ ds) = charDigits cs ++ charDigits ds := List.map_append

theorem charDigits_zeros (z : Nat) :
    charDigits (List.replicate z '0') = List.replicate z 0 := List.map_replicate

theorem ofDigits_cons (d : Nat) (ds : List Nat) :
    ofDigits (d :: ds) = d * 10 ^ ds.length + ofDigits ds := by
  have h : ∀ n, ds.foldl (fun n d => 10 * n + d) n = n * 10 ^ ds.length + ofDigits ds := by
    rw [ofDigits]
    induction ds with
    | nil => simp
    | cons e es ih =>
      intro n
      rw [List.foldl_cons, ih, List.foldl_cons, ih (10 * 0 + e), List.length_cons, pow_succ]
      ring
  rw [ofDigits, List.foldl_cons, h, Nat.mul_zero, Nat.zero_add]

theorem ofDigits_append (ds es : List Nat) :
    ofDigits (ds ++ es) = ofDigits ds * 10 ^ es.length + ofDigits es := by
  induction ds with
  | nil => simp [ofDigits]
  | cons d ds ih =>
    rw [List.cons_append, ofDigits_cons, ofDigits_cons, ih, List.length_append, pow_add]
    ring

theorem ofDigits_zeros (z : Nat) : ofDigits (List.replicate z 0) = 0 := by
  induction z with
  | zero => rfl
  | succ z ih => rw [List.replicate_succ, ofDigits_cons, ih, Nat.zero_mul]

theorem isDigit_of_mem_zeros {z : Nat} {c : Char} (h : c ∈ List.replicate z '0') :
    c.isDigit = true := by
  rw [List.eq_of_mem_replicate h]
  rfl

theorem ofDigits_zeros_append (z : Nat) (cs : List Char) :
    ofDigits (charDigits (List.replicate z '0' ++ cs)) = ofDigits (charDigits cs) := by
  rw [charDigits_append, charDigits_zeros, ofDigits_append, ofDigits_zeros, Nat.zero_mul,
    Nat.zero_add]

theorem ofDigits_append_zeros (z : Nat) (cs : List Char) :
    ofDigits (charDigits (cs ++ List.replicate z '0')) = ofDigits (charDigits cs) * 10 ^ z := by
  rw [charDigits_append, charDigits_zeros, ofDigits_append, ofDigits_zeros, Nat.add_zero,
    List.length_replicate]

theorem ofDigits_charDigits_lt {cs : List Char} (h : ∀ c ∈ cs, c.isDigit) :
    ofDigits (charDigits cs) < 10 ^ cs.length := by
  induction cs with
  | nil => exact Nat.one_pos
  | cons c cs ih =>
    have hc : c.toNat - 48 ≤ 9 :=
      Nat.sub_le_of_le_add (toNat_of_isDigit (h c List.mem_cons_self)).2
    have ih' := ih fun d hd => h d (List.mem_cons_of_mem c hd)
    rw [charDigits, List.map_cons, ofDigits_cons, List.length_map, List.length_cons, pow_succ]
    have hm := Nat.mul_le_mul_right (10 ^ cs.length) hc
    rw [charDigits] at ih'
    omega

theorem natChars_injective {n m : Nat} (h : natChars n = natChars m) : n = m := by
  rw [← ofDigits_charDigits n, h, ofDigits_charDigits]

theorem minus_ne_natChars {n : Nat} {cs : List Char} : natChars n ≠ '-' :: cs := fun h =>
  absurd (isDigit_of_mem_natChars (h ▸ List.mem_cons_self)) (by decide)

theorem intChars_injective {n m : Int} (h : intChars n = intChars m) : n = m := by
  cases n with
  | ofNat n =>
    cases m with
    | ofNat m => exact congrArg Int.ofNat (natChars_injective h)
    | negSucc m => exact absurd h minus_ne_natChars
  | negSucc n =>
    cases m with
    | ofNat m => exact absurd h.symm minus_ne_natChars
    | negSucc m =>
      have hnm := natChars_injective (List.cons.inj h).2
      rw [Nat.succ.inj hnm]

/-! ### Lengths -/

theorem lt_pow_length_natChars (n : Nat) : n < 10 ^ (natChars n).length :=
  (Nat.length_toDigits_le_iff (by decide) Nat.length_toDigits_pos).mp (Nat.le_refl _)

theorem pow_length_natChars_le {n l : Nat} (hn : n ≠ 0) (hl : (natChars n).length = l + 1) :
    10 ^ l ≤ n := by
  cases l with
  | zero => exact Nat.pos_of_ne_zero hn
  | succ l =>
    by_contra hlt
    have hle := (Nat.length_toDigits_le_iff (by decide) (Nat.succ_pos l)).mpr
      (Nat.lt_of_not_le hlt)
    rw [natChars] at hl
    omega

theorem exists_length_natChars (n : Nat) : ∃ l, (natChars n).length = l + 1 :=
  Nat.exists_eq_succ_of_ne_zero (Nat.ne_of_gt Nat.length_toDigits_pos)

/-- No number but zero is written with a zero in front. -/
theorem head?_natChars_ne {n : Nat} (hn : n ≠ 0) : (natChars n).head? ≠ some '0' := by
  intro h
  obtain ⟨t, ht⟩ := List.head?_eq_some_iff.mp h
  have hl : (natChars n).length = t.length + 1 := by rw [ht, List.length_cons]
  have hlow := pow_length_natChars_le hn hl
  have hval := ofDigits_charDigits n
  rw [ht, charDigits, List.map_cons, ofDigits_cons] at hval
  have hhigh := ofDigits_charDigits_lt fun c hc =>
    isDigit_of_mem_natChars (ht ▸ List.mem_cons_of_mem '0' hc)
  rw [charDigits] at hhigh
  have h0 : ('0' : Char).toNat - 48 = 0 := rfl
  rw [h0, Nat.zero_mul, Nat.zero_add] at hval
  omega

/-! ### Numbered names -/

theorem afterStem?_append (stem cs : List Char) : afterStem? stem (stem ++ cs) = some cs := by
  induction stem with
  | nil => rfl
  | cons s stem ih => simp [afterStem?, ih]

theorem afterStem?_eq_some {stem cs rest : List Char} :
    afterStem? stem cs = some rest ↔ cs = stem ++ rest := by
  induction stem generalizing cs with
  | nil => simp [afterStem?]
  | cons s stem ih =>
    cases cs with
    | nil => simp [afterStem?]
    | cons c cs =>
      rw [afterStem?]
      split
      · next h => rw [ih, h, List.cons_append, List.cons.injEq, eq_self, true_and]
      · next h => exact iff_of_false (by simp) fun hc => h (List.cons.inj hc).1.symm

theorem numbered?_append (stem s : String) : numbered? stem (stem ++ s) = lineDigits? s.toList := by
  simp [numbered?, afterStem?_append]

/-- **The number in a name that was numbered.** -/
theorem numbered?_append_ofNat (stem : String) (n : Nat) :
    numbered? stem (stem ++ ofNat n) = some (charDigits (natChars n)) := by
  rw [numbered?_append, ofNat, String.toList_ofList]
  exact lineDigits?_of_isDigit (natChars_ne_nil n) fun _ => isDigit_of_mem_natChars

/-! ### Bounds on the length -/

theorem writeInt_eq_ok {n : Int} {s : String} (h : writeInt n = .ok s) :
    s = ofInt n ∧ (natChars n.natAbs).length ≤ maxDigits := by
  rw [writeInt] at h
  split at h
  · cases h
  · next hl => exact ⟨(Except.ok.inj h).symm, by omega⟩

theorem ofInt_natCast (n : Nat) : ofInt n = ofNat n := rfl

theorem length_natChars_le_iff {n : Nat} :
    (natChars n).length ≤ maxDigits ↔ n < 10 ^ maxDigits :=
  Nat.length_toDigits_le_iff (by decide) (by decide)

/-- **A number is written** if it has few enough digits. -/
theorem writeInt_natCast_eq_ok {n : Nat} {s : String} :
    writeInt (n : Int) = .ok s ↔ n < 10 ^ maxDigits ∧ s = ofNat n := by
  rw [← length_natChars_le_iff]
  constructor
  · intro h
    obtain ⟨rfl, hlength⟩ := writeInt_eq_ok h
    exact ⟨hlength, rfl⟩
  · rintro ⟨hlength, rfl⟩
    rw [writeInt, Int.natAbs_natCast, if_neg (Nat.not_lt.mpr hlength), ofInt_natCast]

theorem readDigits_eq_ok {ds : List Nat} {n : Nat} :
    readDigits ds = .ok n ↔ ds.length ≤ maxDigits ∧ n = ofDigits ds := by
  rw [readDigits]
  split
  · next h => simp [Nat.not_le.mpr h]
  · next h => simp [Nat.not_lt.mp h, eq_comm]

/-- Numerals are read one by one if none of them is too long. -/
theorem mapM_readDigits_eq_ok {dss : List (List Nat)} {ns : List Nat} :
    dss.mapM readDigits = .ok ns ↔
      (∀ ds ∈ dss, ds.length ≤ maxDigits) ∧ ns = dss.map ofDigits := by
  induction dss generalizing ns with
  | nil => simp [pure, Except.pure, eq_comm]
  | cons ds dss ih =>
    rw [List.mapM_cons]
    cases hd : readDigits ds with
    | error f =>
      have hl : ¬ ds.length ≤ maxDigits := fun hl => by
        simp [readDigits_eq_ok.mpr ⟨hl, rfl⟩] at hd
      simp [bind, Except.bind, hl]
    | ok n =>
      obtain ⟨hl, rfl⟩ := readDigits_eq_ok.mp hd
      cases hr : dss.mapM readDigits with
      | error f =>
        have hne : ¬ ∀ es ∈ dss, es.length ≤ maxDigits := fun h => by
          simp [ih.mpr ⟨h, rfl⟩] at hr
        simp [bind, Except.bind, hne]
      | ok ms =>
        obtain ⟨hls, rfl⟩ := ih.mp hr
        simp only [bind, Except.bind, pure, Except.pure, Except.ok.injEq, List.mem_cons,
          List.map_cons, forall_eq_or_imp]
        exact ⟨fun h => ⟨⟨hl, hls⟩, h.symm⟩, fun h => h.2.symm⟩

/-! ### Integer literals -/

/-- One or more ASCII digits, but not too many. -/
structure IsNumeral (cs : List Char) : Prop where
  nonempty : cs ≠ []
  digits : ∀ c ∈ cs, c.isDigit
  short : cs.length ≤ maxDigits

/-- **A text spells an integer** if it is, between blanks, a numeral after at most one sign. -/
inductive Spells (s : String) : Int → Prop where
  | plain {cs : List Char} (h : IsNumeral cs) (hs : trimChars s.toList = cs) :
    Spells s (ofDigits (charDigits cs))
  | plus {cs : List Char} (h : IsNumeral cs) (hs : trimChars s.toList = '+' :: cs) :
    Spells s (ofDigits (charDigits cs))
  | minus {cs : List Char} (h : IsNumeral cs) (hs : trimChars s.toList = '-' :: cs) :
    Spells s (-ofDigits (charDigits cs))

/-- What is spelled is short enough to be written. -/
theorem Spells.natAbs_lt {s : String} {n : Int} (h : Spells s n) : n.natAbs < 10 ^ maxDigits := by
  have bound : ∀ {cs : List Char}, IsNumeral cs → ofDigits (charDigits cs) < 10 ^ maxDigits :=
    fun hcs => (ofDigits_charDigits_lt hcs.digits).trans_le
      (Nat.pow_le_pow_right (by decide) hcs.short)
  cases h with
  | plain hcs | plus hcs => exact bound hcs
  | minus hcs => exact (Int.natAbs_neg _).symm ▸ bound hcs

theorem mapM_asciiDigit? {cs : List Char} {ds : List Nat} :
    cs.mapM asciiDigit? = some ds ↔ (∀ c ∈ cs, c.isDigit) ∧ ds = charDigits cs := by
  induction cs generalizing ds with
  | nil => exact ⟨fun h => ⟨by simp, (Option.some.inj h).symm⟩, fun h => congrArg some h.2.symm⟩
  | cons c cs ih =>
    rw [List.mapM_cons, asciiDigit?]
    split
    · next hc =>
      change (cs.mapM asciiDigit?).bind (fun es => some ((c.toNat - 48) :: es)) = some ds ↔ _
      rw [Option.bind_eq_some_iff]
      constructor
      · rintro ⟨es, hes, he⟩
        obtain ⟨hcs, rfl⟩ := ih.mp hes
        exact ⟨List.forall_mem_cons.mpr ⟨hc, hcs⟩, (Option.some.inj he).symm⟩
      · rintro ⟨hcs, rfl⟩
        exact ⟨_, ih.mpr ⟨(List.forall_mem_cons.mp hcs).2, rfl⟩, rfl⟩
    · next hc =>
      exact iff_of_false (by simp) fun h => hc (h.1 c List.mem_cons_self)

theorem unsigned?_eq_some {cs : List Char} {ds : List Nat} :
    unsigned? cs = some ds ↔ cs ≠ [] ∧ (∀ c ∈ cs, c.isDigit) ∧ ds = charDigits cs := by
  cases cs with
  | nil => simp [unsigned?]
  | cons c cs =>
    rw [unsigned?, mapM_asciiDigit?]
    · simp
    · simp

/-- The digits of a literal that is short enough to be read. -/
theorem isNumeral_iff {cs : List Char} {ds : List Nat} {n : Nat} :
    (unsigned? cs = some ds ∧ readDigits ds = .ok n) ↔
      IsNumeral cs ∧ ds = charDigits cs ∧ n = ofDigits ds := by
  rw [unsigned?_eq_some, readDigits_eq_ok]
  constructor
  · rintro ⟨⟨hne, hd, rfl⟩, hl, hn⟩
    exact ⟨⟨hne, hd, length_charDigits cs ▸ hl⟩, rfl, hn⟩
  · rintro ⟨h, rfl, hn⟩
    exact ⟨⟨h.nonempty, h.digits, rfl⟩, (length_charDigits cs).symm ▸ h.short, hn⟩

theorem integerLiteral?_of_digits {s : String} {cs : List Char} (hne : cs ≠ [])
    (hd : ∀ c ∈ cs, c.isDigit) (hs : trimChars s.toList = cs) :
    integerLiteral? s = (unsigned? cs).map (false, ·) := by
  rw [integerLiteral?, hs]
  split
  · exact absurd (hd '-' (by simp)) (by decide)
  · exact absurd (hd '+' (by simp)) (by decide)
  · rfl

/-- **A literal is read as the integer that it spells.** -/
theorem readInteger_eq_some_iff {s : String} {n : Int} :
    readInteger s = .ok (some n) ↔ Spells s n := by
  constructor
  · intro h
    rw [readInteger] at h
    split at h
    · cases h
    · next negative ds hl =>
      cases hr : readDigits ds with
      | error f => simp [hr, Except.map] at h
      | ok m =>
        simp only [hr, Except.map, Except.ok.injEq, Option.some.injEq] at h
        subst h
        rw [integerLiteral?] at hl
        split at hl <;> obtain ⟨es, hu, he⟩ := Option.map_eq_some_iff.mp hl <;> cases he <;>
          obtain ⟨hn, rfl, rfl⟩ := isNumeral_iff.mp ⟨hu, hr⟩
        · next hs => exact .minus hn hs
        · next hs => exact .plus hn hs
        · exact .plain hn rfl
  · rintro (⟨h, hs⟩ | ⟨h, hs⟩ | ⟨h, hs⟩) <;>
      obtain ⟨hu, hr⟩ := isNumeral_iff.mpr ⟨h, rfl, rfl⟩
    · rw [readInteger, integerLiteral?_of_digits h.nonempty h.digits hs, hu]
      simp [hr, Except.map, signed]
    · rw [readInteger, integerLiteral?, hs]
      simp [hu, hr, Except.map, signed]
    · rw [readInteger, integerLiteral?, hs]
      simp [hu, hr, Except.map, signed]

/-! ### Padded literals -/

theorem isBlank_of_isDigit {c : Char} (h : c.isDigit) : isBlank c = false := by
  have hc := toNat_of_isDigit h
  rw [isBlank, Bool.eq_false_iff, ne_eq, CharSet.has_iff]
  rintro ⟨r, hr, hlow, hhigh⟩
  simp only [blanks, List.mem_cons, List.not_mem_nil, or_false] at hr
  rcases hr with rfl | rfl | rfl | rfl | rfl | rfl | rfl | rfl | rfl | rfl <;> simp only at hlow hhigh <;>
    omega

theorem dropWhile_isBlank {cs : List Char} (hne : cs ≠ []) (h : ∀ c ∈ cs, isBlank c = false)
    (rest : List Char) : (cs ++ rest).dropWhile isBlank = cs ++ rest := by
  obtain ⟨c, ds, rfl⟩ := List.exists_cons_of_ne_nil hne
  exact List.dropWhile_cons_of_neg (by simp [h c])

/-- Nothing but the blanks around characters is trimmed. -/
theorem trimChars_append {cs left right : List Char} (hne : cs ≠ [])
    (h : ∀ c ∈ cs, isBlank c = false) (hleft : ∀ c ∈ left, isBlank c = true)
    (hright : ∀ c ∈ right, isBlank c = true) : trimChars (left ++ cs ++ right) = cs := by
  have hreverse : (right.reverse ++ cs.reverse).dropWhile isBlank = cs.reverse := by
    rw [List.dropWhile_append_of_pos fun c hc => hright c (List.mem_reverse.mp hc)]
    have := dropWhile_isBlank (List.reverse_ne_nil_iff.mpr hne)
      (fun c hc => h c (List.mem_reverse.mp hc)) []
    rwa [List.append_nil] at this
  rw [trimChars, List.append_assoc, List.dropWhile_append_of_pos hleft, dropWhile_isBlank hne h,
    List.reverse_append, hreverse, List.reverse_reverse]

/-- **The decimal text of an integer** spells it, also after zeros and a plus sign and between
blanks, if there are not too many digits. -/
theorem spells_padded (n : Int) {left right sign : List Char} {zeros : Nat}
    (hleft : ∀ c ∈ left, isBlank c = true) (hright : ∀ c ∈ right, isBlank c = true)
    (hsign : sign = [] ∧ 0 ≤ n ∨ sign = ['+'] ∧ 0 ≤ n ∨ sign = ['-'] ∧ n < 0)
    (hlength : zeros + (natChars n.natAbs).length ≤ maxDigits) :
    Spells (String.ofList
      (left ++ (sign ++ (List.replicate zeros '0' ++ natChars n.natAbs)) ++ right)) n := by
  have hvalue := ofDigits_zeros_append zeros (natChars n.natAbs)
  rw [ofDigits_charDigits] at hvalue
  have hnumeral : IsNumeral (List.replicate zeros '0' ++ natChars n.natAbs) :=
    { nonempty := List.append_ne_nil_of_right_ne_nil _ (natChars_ne_nil _)
      digits := fun c hc => (List.mem_append.mp hc).elim isDigit_of_mem_zeros isDigit_of_mem_natChars
      short := by rwa [List.length_append, List.length_replicate] }
  generalize List.replicate zeros '0' ++ natChars n.natAbs = ds at hvalue hnumeral ⊢
  have htrim : ∀ cs : List Char, (∀ c ∈ cs, isBlank c = false) →
      trimChars (String.ofList (left ++ (cs ++ ds) ++ right)).toList = cs ++ ds := by
    intro cs hcs
    rw [String.toList_ofList]
    refine trimChars_append (List.append_ne_nil_of_right_ne_nil _ hnumeral.nonempty) ?_ hleft hright
    intro c hc
    exact (List.mem_append.mp hc).elim (hcs c) fun hd => isBlank_of_isDigit (hnumeral.digits c hd)
  rcases hsign with ⟨rfl, hn⟩ | ⟨rfl, hn⟩ | ⟨rfl, hn⟩
  · have h := Spells.plain hnumeral (htrim [] (List.forall_mem_nil _))
    rwa [hvalue, Int.natAbs_of_nonneg hn] at h
  · have h := Spells.plus hnumeral (htrim ['+'] (List.forall_mem_singleton.mpr (by decide)))
    rwa [hvalue, Int.natAbs_of_nonneg hn] at h
  · have h := Spells.minus hnumeral (htrim ['-'] (List.forall_mem_singleton.mpr (by decide)))
    rwa [hvalue, Int.ofNat_natAbs_of_nonpos hn.le, Int.neg_neg] at h

end AccessTree.Text
