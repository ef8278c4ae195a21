import AccessTree.Json.Printer
import AccessTree.Json.Reader

/-! # Strings read back

A string that is written with only the necessary escapes is read back, whatever follows its closing
quote (`stringBody_escaped`): a backslash starts an escape that stands for one character, and any
other character stands for itself. What was written is therefore all that tells two strings apart,
and their closing quotes end them at the same place (`stringChars_append_inj`). -/

namespace AccessTree.Json

theorem hexUnit?_hexChars : ∀ n < 0x20, hexUnit? (Text.hexChars 4 n) = some n := by decide

theorem length_hexChars : ∀ n < 0x20, (Text.hexChars 4 n).length = 4 := by decide

theorem hexUnit?_append {cs : List Char} (h : cs.length = 4) (rest : List Char) :
    hexUnit? (cs ++ rest) = hexUnit? cs := by
  match cs, h with
  | [a, b, c, d], _ => rfl

theorem loneUnit_toNat {c : Char} (h : c.toNat < 0x20) : Text.loneUnit c.toNat = c := by
  have hhigh : Text.isHighHalf c.toNat = false := by
    simp only [Text.isHighHalf, Bool.and_eq_false_iff, decide_eq_false_iff_not]
    omega
  have hlow : Text.isLowHalf c.toNat = false := by
    simp only [Text.isLowHalf, Bool.and_eq_false_iff, decide_eq_false_iff_not]
    omega
  rw [Text.loneUnit, hhigh, hlow]
  exact Char.ofNat_toNat c

/-- The escape of a control character, before at least one other character. -/
theorem codeEscape_hexChars {c : Char} (h : c.toNat < 0x20) {rest : List Char} (hr : rest ≠ []) :
    codeEscape (Text.hexChars 4 c.toNat ++ rest) = .ok (c, 4) := by
  have hunit : hexUnit? (Text.hexChars 4 c.toNat ++ rest) = some c.toNat := by
    rw [hexUnit?_append (length_hexChars _ h), hexUnit?_hexChars _ h]
  have hdrop : (Text.hexChars 4 c.toNat ++ rest).drop 4 = rest :=
    List.drop_left' (length_hexChars _ h)
  have hhigh : Text.isHighHalf c.toNat = false := by
    simp only [Text.isHighHalf, Bool.and_eq_false_iff, decide_eq_false_iff_not]
    omega
  rw [codeEscape, hunit, hdrop]
  split
  · next hn => cases hn
  · next hn => exact absurd rfl hr
  · next high more hn =>
    cases hn
    rw [hhigh, loneUnit_toNat h]
    rfl
  · have hn := Option.some.inj ‹some c.toNat = some _›
    rw [← hn, loneUnit_toNat h]

/-- An escape in a string stands for its character. -/
theorem stringBody_of_escape {start n : Nat} {c : Char} {cs rest : List Char}
    (h : escape start cs = .ok (c, n)) (hd : cs.drop n = rest) :
    stringBody start ('\\' :: cs) = (stringBody start rest).map fun p => (c :: p.1, p.2) := by
  rw [stringBody, h]
  change ((stringBody start (cs.drop n)).bind fun p => .ok (c :: p.1, p.2)) = _
  rw [hd]
  cases stringBody start rest <;> rfl

theorem escape_of_short {start : Nat} {c d : Char} (hu : d ≠ 'u') (h : shortEscape? d = some c)
    (rest : List Char) : escape start (d :: rest) = .ok (c, 1) := by
  rw [escape]
  · rw [h]
  · exact hu

/-- **One written character is read back**, before at least one other character. -/
theorem stringBody_escaped (start : Nat) (c : Char) {rest : List Char} (hr : rest ≠ []) :
    stringBody start (escaped false c ++ rest) =
      (stringBody start rest).map fun p => (c :: p.1, p.2) := by
  have short : ∀ d, d ≠ 'u' → shortEscape? d = some c →
      stringBody start ('\\' :: d :: rest) =
        (stringBody start rest).map fun p => (c :: p.1, p.2) :=
    fun d hu hd => stringBody_of_escape (escape_of_short hu hd rest) rfl
  rw [escaped]
  split
  · next h => subst h; exact short _ (by decide) rfl
  split
  · next h => subst h; exact short _ (by decide) rfl
  split
  · next h => subst h; exact short _ (by decide) rfl
  split
  · next h => subst h; exact short _ (by decide) rfl
  split
  · next h => subst h; exact short _ (by decide) rfl
  split
  · next h => subst h; exact short _ (by decide) rfl
  split
  · next h => subst h; exact short _ (by decide) rfl
  split
  · next h =>
    have hescape : escape start ('u' :: (Text.hexChars 4 c.toNat ++ rest)) = .ok (c, 5) := by
      rw [escape, codeEscape_hexChars h hr]
      rfl
    have hdrop : ('u' :: (Text.hexChars 4 c.toNat ++ rest)).drop 5 = rest :=
      List.drop_left' (length_hexChars _ h)
    exact stringBody_of_escape hescape hdrop
  · next hq hb _ _ _ _ _ hc =>
    rw [Bool.false_and, if_neg Bool.false_ne_true, List.singleton_append, stringBody]
    · rw [if_neg hc]
      cases stringBody start rest <;> rfl
    · exact hq
    · exact hb

/-- **A written string is read back**, up to its closing quote. -/
theorem stringBody_written (start : Nat) (cs rest : List Char) :
    stringBody start (cs.flatMap (escaped false) ++ '"' :: rest) = .ok (cs, rest) := by
  induction cs with
  | nil => rw [List.flatMap_nil, List.nil_append, stringBody]
  | cons c cs ih =>
    rw [List.flatMap_cons, List.append_assoc, stringBody_escaped start c (by simp), ih]
    rfl

/-- **Strings are told apart by what is written**, and end at the same place if they are equal. -/
theorem stringChars_append_inj {s t : String} {r q : List Char}
    (h : stringChars false s ++ r = stringChars false t ++ q) : s = t ∧ r = q := by
  rw [stringChars, stringChars, List.cons_append, List.cons_append, List.append_assoc,
    List.append_assoc, List.singleton_append, List.singleton_append] at h
  have hs := stringBody_written 0 s.toList r
  rw [(List.cons.inj h).2, stringBody_written] at hs
  obtain ⟨hst, hrq⟩ := Prod.mk.inj (Except.ok.inj hs)
  exact ⟨(String.toList_injective hst).symm, hrq.symm⟩

end AccessTree.Json
