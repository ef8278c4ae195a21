import AccessTree.Json.Nesting
import AccessTree.Proofs.Except
import AccessTree.Proofs.Json.Numbers
import Mathlib.Data.List.TakeWhile

/-! # Numerals in JSON text that are too long

Reading fails with the fault of a numeral only at an integer that has too many digits and stands
where a value can begin, outside strings (`holdsInteger_of_read`). What carries this is where the
readers are in the text: `Goes p q cs rest` says that the characters read between `cs` and `rest`
lead from one part of JSON text to another, as the scan for nesting sees it. Every reader that
succeeds at a value leaves the strings that it enters. -/

namespace AccessTree.Json

/-! ### Where the readers are -/

/-- Reading on from `cs` to `rest` leads from one part of JSON text to another. -/
def Goes (p q : Part) (cs rest : List Char) : Prop :=
  ∃ read, cs = read ++ rest ∧ read.foldl Part.next p = q

theorem Goes.refl (p : Part) (cs : List Char) : Goes p p cs cs := ⟨[], rfl, rfl⟩

theorem Goes.trans {p q r : Part} {cs ds es : List Char} (h : Goes p q cs ds)
    (h' : Goes q r ds es) : Goes p r cs es := by
  obtain ⟨read, rfl, rfl⟩ := h
  obtain ⟨more, rfl, rfl⟩ := h'
  exact ⟨read ++ more, (List.append_assoc _ _ _).symm, List.foldl_append⟩

theorem Goes.cons {p q : Part} {c : Char} {cs rest : List Char} (h : Goes (p.next c) q cs rest) :
    Goes p q (c :: cs) rest := by
  obtain ⟨read, rfl, hread⟩ := h
  exact ⟨c :: read, rfl, hread⟩

theorem goes_of_unquoted {read : List Char} (h : '"' ∉ read) (rest : List Char) :
    Goes .structural .structural (read ++ rest) rest := by
  induction read with
  | nil => exact .refl _ _
  | cons c read ih =>
    rw [List.mem_cons, not_or] at h
    refine .cons ?_
    rw [Part.next, if_neg fun hc => h.1 hc.symm]
    exact ih h.2

theorem goes_skip (cs : List Char) : Goes .structural .structural cs (skip cs) := by
  have h : '"' ∉ cs.takeWhile isSpace := fun hq => absurd (List.mem_takeWhile_imp hq) (by decide)
  have hgoes := goes_of_unquoted h (skip cs)
  rwa [skip, List.takeWhile_append_dropWhile] at hgoes

/-! ### Strings -/

theorem next_quoted {c : Char} (h : c ≠ '"') (h' : c ≠ '\\') : Part.quoted.next c = .quoted := by
  rw [Part.next, if_neg h, if_neg h']

theorem codeEscape_ne_numeral {cs : List Char} {f : NumeralFault} :
    codeEscape cs ≠ .error (.numeral f) := by
  unfold codeEscape
  repeat' split
  all_goals simp

theorem escape_ne_numeral {start : Nat} {cs : List Char} {f : NumeralFault} :
    escape start cs ≠ .error (.numeral f) := by
  unfold escape
  split
  · simp
  · rw [ne_eq, map_eq_error]
    exact codeEscape_ne_numeral
  · split <;> simp

theorem stringBody_ne_numeral {start : Nat} {cs : List Char} {f : NumeralFault} :
    stringBody start cs ≠ .error (.numeral f) := by
  fun_induction stringBody start cs with
  | case1 => simp
  | case2 => simp
  | case3 rest ih =>
    intro h
    obtain hescape | ⟨⟨c, used⟩, -, h⟩ := bind_eq_error.mp h
    · exact escape_ne_numeral hescape
    · obtain hmore | ⟨_, -, ⟨⟩⟩ := bind_eq_error.mp h
      exact ih used hmore
  | case4 => simp
  | case5 c rest hq hb hlow ih =>
    intro h
    obtain hmore | ⟨_, -, ⟨⟩⟩ := bind_eq_error.mp h
    exact ih hmore

theorem goes_hexUnit {cs : List Char} {n : Nat} (h : hexUnit? cs = some n) :
    Goes .quoted .quoted cs (cs.drop 4) := by
  have hex : ∀ {c : Char} {k : Nat}, hexValue? c = some k → Part.quoted.next c = .quoted := by
    intro c k hc
    refine next_quoted ?_ ?_ <;> rintro rfl <;> cases hc
  unfold hexUnit? at h
  split at h
  · next a b c d rest =>
    obtain ⟨ha, hha, h⟩ := Option.bind_eq_some_iff.mp h
    obtain ⟨hb, hhb, h⟩ := Option.bind_eq_some_iff.mp h
    obtain ⟨hc, hhc, h⟩ := Option.bind_eq_some_iff.mp h
    obtain ⟨hd, hhd, -⟩ := Option.bind_eq_some_iff.mp h
    refine ⟨[a, b, c, d], rfl, ?_⟩
    simp only [List.foldl_cons, List.foldl_nil, hex hha, hex hhb, hex hhc, hex hhd]
  · cases h

theorem goes_codeEscape {cs : List Char} {c : Char} {used : Nat}
    (h : codeEscape cs = .ok (c, used)) : Goes .quoted .quoted cs (cs.drop used) := by
  unfold codeEscape at h
  split at h
  · cases h
  · cases h
  · next high rest hhigh hdrop =>
    have hfour := goes_hexUnit hhigh
    split at h
    · split at h
      · cases h
      · next low hlow =>
        split at h
        · -- the second half of a pair is an escape of its own
          obtain ⟨-, rfl⟩ := Prod.mk.inj (Except.ok.inj h)
          have hten : cs.drop 10 = rest.drop 4 := by
            have hsplit : cs.drop 10 = (cs.drop 4).drop 6 := by rw [List.drop_drop]
            rw [hsplit, hdrop]
            rfl
          have hpair : Goes .quoted .quoted ('\\' :: 'u' :: rest) (rest.drop 4) :=
            .cons (.cons (goes_hexUnit hlow))
          rw [hten]
          exact hfour.trans (hdrop ▸ hpair)
        · obtain ⟨-, rfl⟩ := Prod.mk.inj (Except.ok.inj h)
          exact hfour
    · obtain ⟨-, rfl⟩ := Prod.mk.inj (Except.ok.inj h)
      exact hfour
  · next hunit _ _ =>
    obtain ⟨-, rfl⟩ := Prod.mk.inj (Except.ok.inj h)
    exact goes_hexUnit hunit

theorem goes_escape {start : Nat} {cs : List Char} {c : Char} {used : Nat}
    (h : escape start cs = .ok (c, used)) : Goes .escaped .quoted cs (cs.drop used) := by
  unfold escape at h
  split at h
  · cases h
  · obtain ⟨p, hcode, hp⟩ := map_eq_ok.mp h
    cases hp
    exact .cons (goes_codeEscape hcode)
  · split at h <;> cases h
    exact .cons (.refl _ _)

theorem goes_stringBody {start : Nat} {cs body left : List Char}
    (h : stringBody start cs = .ok (body, left)) : Goes .quoted .structural cs left := by
  fun_induction stringBody start cs generalizing body left with
  | case1 => cases h
  | case2 rest =>
    cases h
    exact .cons (.refl _ _)
  | case3 rest ih =>
    obtain ⟨⟨c, used⟩, hescape, h⟩ := bind_eq_ok.mp h
    obtain ⟨⟨more, left'⟩, hmore, hleft⟩ := bind_eq_ok.mp h
    cases hleft
    exact .cons ((goes_escape hescape).trans (ih used hmore))
  | case4 => cases h
  | case5 c rest hq hb hlow ih =>
    obtain ⟨⟨more, left'⟩, hmore, hleft⟩ := bind_eq_ok.mp h
    cases hleft
    refine .cons ?_
    rw [next_quoted hq hb]
    exact ih hmore

/-! ### Numbers -/

theorem takeDigits_split {cs left : List Char} {ds : List Nat} (h : takeDigits cs = (ds, left)) :
    ∃ read, cs = read ++ left ∧ (∀ c ∈ read, c.isDigit) ∧ read.length = ds.length ∧
      EndsDigits left := by
  induction cs generalizing ds left with
  | nil =>
    cases h
    exact ⟨[], rfl, by simp, rfl, by simp [EndsDigits]⟩
  | cons c cs ih =>
    rw [takeDigits, Text.asciiDigit?] at h
    by_cases hc : c.isDigit
    · rw [if_pos hc] at h
      cases h
      obtain ⟨read, hcs, hdigits, hlen, hleft⟩ := ih rfl
      refine ⟨c :: read, ?_, List.forall_mem_cons.mpr ⟨hc, hdigits⟩, ?_, hleft⟩
      · rw [List.cons_append, ← hcs]
      · rw [List.length_cons, List.length_cons, hlen]
    · rw [if_neg hc] at h
      cases h
      exact ⟨[], rfl, by simp, rfl, endsDigits_cons (by simpa using hc)⟩

theorem wholePart?_split {cs left : List Char} {ds : List Nat} (h : wholePart? cs = some (ds, left)) :
    ∃ read, cs = read ++ left ∧ (∀ c ∈ read, c.isDigit) ∧ read.length = ds.length ∧
      (1 < ds.length → EndsDigits left) := by
  unfold wholePart? at h
  split at h
  · cases h
    exact ⟨['0'], rfl, by simp, rfl, by simp⟩
  · split at h
    · cases h
    · obtain ⟨read, hcs, hdigits, hlen, hleft⟩ := takeDigits_split (Option.some.inj h)
      exact ⟨read, hcs, hdigits, hlen, fun _ => hleft⟩

theorem quote_notMem_of_digits {read : List Char} (h : ∀ c ∈ read, c.isDigit) : '"' ∉ read :=
  fun hq => absurd (h _ hq) (by decide)

theorem fractionPart_split {cs left : List Char} {ds : List Nat} (h : fractionPart cs = (ds, left)) :
    (∃ read, cs = read ++ left ∧ '"' ∉ read) ∧ (ds = [] → cs = left) := by
  unfold fractionPart at h
  split at h
  · next cs =>
    split at h
    · cases h
      exact ⟨⟨[], rfl, by simp⟩, fun _ => rfl⟩
    · next hne =>
      obtain ⟨read, rfl, hdigits, -, -⟩ := takeDigits_split h
      refine ⟨⟨'.' :: read, rfl, ?_⟩, ?_⟩
      · simpa using quote_notMem_of_digits hdigits
      · rintro rfl
        exact absurd h (hne left)
  · cases h
    exact ⟨⟨[], rfl, by simp⟩, fun _ => rfl⟩

theorem exponentPart?_split {cs left : List Char} {e : Int}
    (h : exponentPart? cs = some (e, left)) : ∃ read, cs = read ++ left ∧ '"' ∉ read := by
  have hsign : ∀ cs : List Char, ∃ sign, cs = sign ++ (exponentSign cs).2 ∧ '"' ∉ sign := by
    intro cs
    unfold exponentSign
    split
    · exact ⟨['-'], rfl, by decide⟩
    · exact ⟨['+'], rfl, by decide⟩
    · exact ⟨[], rfl, by simp⟩
  unfold exponentPart? at h
  split at h
  · next c cs =>
    split at h
    · next hc =>
      obtain ⟨sign, hcs, hquote⟩ := hsign cs
      simp only at h
      split at h
      · cases h
      · next ds left' hne htake =>
        cases h
        obtain ⟨read, hread, hdigits, -, -⟩ := takeDigits_split htake
        refine ⟨c :: (sign ++ read), ?_, ?_⟩
        · rw [List.cons_append, List.append_assoc, ← hread, ← hcs]
        · have hce : '"' ≠ c := by rintro rfl; revert hc; decide
          simpa [hce, hquote] using quote_notMem_of_digits hdigits
    · cases h
  · cases h

/-- **An integer literal** that has `digits` digits stands at the front, without its sign. -/
def StartsInteger (cs : List Char) (digits : Nat) : Prop :=
  ∃ numeral after, cs = numeral ++ after ∧ (∀ c ∈ numeral, c.isDigit) ∧ numeral.length = digits ∧
    EndsDigits after ∧ (fractionPart after).1 = [] ∧ exponentPart? after = none

theorem unsignedNumber_split {negative : Bool} {cs left : List Char} {r : Except NumeralFault Json}
    (h : unsignedNumber negative cs = some (r, left)) : (∃ read, cs = read ++ left ∧ '"' ∉ read) ∧
      ∀ f, r = .error f → ∃ n, f = .tooLongToRead n ∧ Text.maxDigits < n ∧ StartsInteger cs n := by
  obtain ⟨⟨whole, afterWhole⟩, hwhole, h⟩ := Option.map_eq_some_iff.mp h
  obtain ⟨read, hcs, hdigits, hlen, hends⟩ := wholePart?_split hwhole
  have hquote := quote_notMem_of_digits hdigits
  rcases hf : fractionPart afterWhole with ⟨fraction, afterFraction⟩
  obtain ⟨⟨point, hpoint, hpquote⟩, hnone⟩ := fractionPart_split hf
  have hpre : cs = read ++ point ++ afterFraction := by rw [hcs, hpoint, List.append_assoc]
  simp only [hf] at h
  split at h
  · next e _ he =>
    obtain ⟨rfl, rfl⟩ := Prod.mk.inj h
    obtain ⟨exponent, hexp, hequote⟩ := exponentPart?_split he
    refine ⟨⟨read ++ point ++ exponent, ?_, ?_⟩, by rintro f ⟨⟩⟩
    · rw [List.append_assoc, ← hexp, ← hpre]
    · simp [hquote, hpquote, hequote]
  · obtain ⟨rfl, rfl⟩ := Prod.mk.inj h
    exact ⟨⟨read ++ point, hpre, by simp [hquote, hpquote]⟩, by rintro f ⟨⟩⟩
  · next he =>
    obtain ⟨rfl, rfl⟩ := Prod.mk.inj h
    refine ⟨⟨read ++ point, hpre, by simp [hquote, hpquote]⟩, fun f hfault => ?_⟩
    rw [Text.readDigits] at hfault
    split at hfault <;> cases hfault
    next hlong =>
    have hone : 1 < whole.length := Nat.lt_trans (by decide) hlong
    refine ⟨_, rfl, hlong, read, afterWhole, hcs, hdigits, hlen, hends hone, ?_, ?_⟩
    · rw [hf]
    · rw [hnone rfl]
      exact he

theorem number?_split {cs left : List Char} {r : Except NumeralFault Json}
    (h : number? cs = some (r, left)) : (∃ read, cs = read ++ left ∧ '"' ∉ read) ∧
      ∀ f, r = .error f → ∃ n, f = .tooLongToRead n ∧ Text.maxDigits < n ∧
        ∃ sign rest, cs = sign ++ rest ∧ (sign = [] ∨ sign = ['-']) ∧ StartsInteger rest n := by
  unfold number? at h
  split at h
  · next rest =>
    obtain ⟨⟨read, hread, hquote⟩, hfault⟩ := unsignedNumber_split h
    refine ⟨⟨'-' :: read, by rw [hread, List.cons_append], by simpa using hquote⟩, fun f hf => ?_⟩
    obtain ⟨n, hn, hlong, hstarts⟩ := hfault f hf
    exact ⟨n, hn, hlong, ['-'], rest, rfl, .inr rfl, hstarts⟩
  · obtain ⟨hread, hfault⟩ := unsignedNumber_split h
    refine ⟨hread, fun f hf => ?_⟩
    obtain ⟨n, hn, hlong, hstarts⟩ := hfault f hf
    exact ⟨n, hn, hlong, [], cs, rfl, .inl rfl, hstarts⟩

theorem word?_split {cs left : List Char} {v : Json} (h : word? cs = some (v, left)) :
    ∃ read, cs = read ++ left ∧ '"' ∉ read := by
  obtain ⟨⟨w, u⟩, hw, h⟩ := List.exists_of_findSome?_eq_some h
  obtain ⟨rest, hrest, h⟩ := Option.map_eq_some_iff.mp h
  cases h
  refine ⟨w.toList, Text.afterStem?_eq_some.mp hrest, ?_⟩
  have hwords : ∀ p ∈ words, '"' ∉ p.1.toList := by decide
  exact hwords _ hw

/-! ### Values -/

/-- What may stand before a value: blanks, after a bracket, a comma or a colon outside strings if the
value is not all of the text. -/
inductive Opens : List Char → Prop where
  | start {gap : List Char} (hgap : ∀ c ∈ gap, isSpace c = true) : Opens gap
  | within {read gap : List Char} {c : Char} (hread : read.foldl Part.next .structural = .structural)
    (hc : c ∈ ['[', ',', ':']) (hgap : ∀ c ∈ gap, isSpace c = true) : Opens (read ++ c :: gap)

/-- A value can begin at `rest`. -/
def Begins (cs rest : List Char) : Prop := ∃ before, cs = before ++ rest ∧ Opens before

/-- **An integer literal** of `digits` digits stands in JSON text where a value can begin. -/
def HoldsInteger (cs : List Char) (digits : Nat) : Prop :=
  ∃ sign rest, Begins cs (sign ++ rest) ∧ (sign = [] ∨ sign = ['-']) ∧ StartsInteger rest digits

theorem begins_start (cs : List Char) : Begins cs (skip cs) :=
  ⟨cs.takeWhile isSpace, List.takeWhile_append_dropWhile.symm,
    .start fun _ => List.mem_takeWhile_imp⟩

theorem begins_within {cs rest : List Char} {c : Char}
    (h : Goes .structural .structural cs (c :: rest)) (hc : c ∈ ['[', ',', ':']) :
    Begins cs (skip rest) := by
  obtain ⟨read, rfl, hread⟩ := h
  refine ⟨read ++ c :: rest.takeWhile isSpace, ?_, .within hread hc fun _ => List.mem_takeWhile_imp⟩
  rw [List.append_assoc, List.cons_append, skip, List.takeWhile_append_dropWhile]

theorem Begins.goes {cs rest : List Char} (h : Begins cs rest) :
    Goes .structural .structural cs rest := by
  have hgap : ∀ {gap : List Char}, (∀ c ∈ gap, isSpace c = true) → '"' ∉ gap :=
    fun h hq => absurd (h _ hq) (by decide)
  obtain ⟨before, rfl, hopens⟩ := h
  cases hopens with
  | start h => exact goes_of_unquoted (hgap h) rest
  | @within read gap c hread hc h =>
    have hq : '"' ∉ c :: gap := by
      rw [List.mem_cons, not_or]
      exact ⟨by rintro rfl; revert hc; decide, hgap h⟩
    rw [List.append_assoc]
    exact .trans ⟨read, rfl, hread⟩ (goes_of_unquoted hq rest)

/-- **Where a reader of a part of the text ends:** outside strings, or at an integer that has too
many digits, or at something malformed. -/
def Follows {α : Type} (cs : List Char) : Reading (α × List Char) → Prop
  | .ok (_, left) => Goes .structural .structural cs left
  | .error (.numeral f) => ∃ n, f = .tooLongToRead n ∧ Text.maxDigits < n ∧ HoldsInteger cs n
  | .error (.malformed _ _) => True

theorem Follows.bind {α β : Type} {cs : List Char} {r : Reading (α × List Char)}
    {k : α × List Char → Reading (β × List Char)} (h : Follows cs r)
    (hk : ∀ a left, Goes .structural .structural cs left → Follows cs (k (a, left))) :
    Follows cs (r >>= k) := by
  match r, h with
  | .ok (a, left), h => exact hk a left h
  | .error (.numeral f), h => exact h
  | .error (.malformed _ _), h => exact h

theorem follows_string {cs rest : List Char} (h : Goes .structural .structural cs ('"' :: rest)) :
    Follows cs (string rest) := by
  unfold string
  cases hbody : stringBody (rest.length + 1) rest with
  | ok p =>
    have hstring : Goes .structural .structural ('"' :: rest) p.2 := .cons (goes_stringBody hbody)
    exact h.trans hstring
  | error f =>
    cases f with
    | malformed => trivial
    | numeral f => exact absurd hbody stringBody_ne_numeral

theorem follows_scalar {cs rest : List Char} (h : Begins cs rest) : Follows cs (scalar rest) := by
  unfold scalar
  split
  · next hw =>
    obtain ⟨read, rfl, hq⟩ := word?_split hw
    exact h.goes.trans (goes_of_unquoted hq _)
  · next hn =>
    obtain ⟨⟨read, rfl, hq⟩, -⟩ := number?_split hn
    exact h.goes.trans (goes_of_unquoted hq _)
  · next hn =>
    obtain ⟨-, hfault⟩ := number?_split hn
    obtain ⟨n, hf, hlong, sign, digits, rfl, hsign, hstarts⟩ := hfault _ rfl
    exact ⟨n, hf, hlong, sign, digits, h, hsign, hstarts⟩
  · trivial

/-! ### One level of the readers -/

/-- A character that is read outside strings and opens none. -/
theorem Goes.past {cs rest left : List Char} {c : Char} (h : Goes .structural .structural cs rest)
    (hrest : rest = c :: left) (hc : Part.structural.next c = .structural) :
    Goes .structural .structural cs left := by
  subst hrest
  refine h.trans (.cons ?_)
  rw [hc]
  exact .refl _ _

section Level

variable {cs : List Char} {bound : Nat}

theorem follows_value (hitems : ∀ rest, Begins cs rest → Follows cs (items bound rest))
    (hmembers : ∀ fields rest, Goes .structural .structural cs rest →
      Follows cs (members bound fields rest)) {rest : List Char} (h : Begins cs rest) :
    Follows cs (value (bound + 1) rest) := by
  have hgoes := h.goes
  rw [value.eq_def]
  simp only
  split
  · exact (follows_string hgoes).bind fun s left hs => hs
  · next inner =>
    have hskip : Goes .structural .structural cs (skip inner) :=
      (hgoes.past rfl rfl).trans (goes_skip inner)
    split
    · next left hend => exact hskip.past hend rfl
    · exact (hitems _ (begins_within hgoes (by simp))).bind fun vs left hvs => hvs
  · next inner =>
    have hskip : Goes .structural .structural cs (skip inner) :=
      (hgoes.past rfl rfl).trans (goes_skip inner)
    split
    · next left hend => exact hskip.past hend rfl
    · exact hmembers [] _ hskip
  · exact follows_scalar h

theorem follows_items (hvalue : ∀ rest, Begins cs rest → Follows cs (value bound rest))
    (hitems : ∀ rest, Begins cs rest → Follows cs (items bound rest)) {rest : List Char}
    (h : Begins cs rest) : Follows cs (items (bound + 1) rest) := by
  rw [items]
  refine (hvalue rest h).bind fun v afterValue hv => ?_
  have hskip := hv.trans (goes_skip afterValue)
  simp only
  split
  · next left hend => exact hskip.past hend rfl
  · next more hcomma =>
    rw [hcomma] at hskip
    exact (hitems _ (begins_within hskip (by simp))).bind fun vs left hvs => hvs
  · trivial

theorem follows_members (hvalue : ∀ rest, Begins cs rest → Follows cs (value bound rest))
    (hmembers : ∀ fields rest, Goes .structural .structural cs rest →
      Follows cs (members bound fields rest)) (fields : Fields) {rest : List Char}
    (h : Goes .structural .structural cs rest) : Follows cs (members (bound + 1) fields rest) := by
  rw [members.eq_def]
  simp only
  split
  · next hbound =>
    cases hbound
    refine (follows_string h).bind fun key afterKey hkey => ?_
    have hcolon := hkey.trans (goes_skip afterKey)
    simp only
    split
    · next inner hin =>
      rw [hin] at hcolon
      refine (hvalue _ (begins_within hcolon (by simp))).bind fun v afterValue hv => ?_
      have hskip := hv.trans (goes_skip afterValue)
      simp only
      split
      · next left hend => exact hskip.past hend rfl
      · next more hcomma => exact hmembers _ _ ((hskip.past hcomma rfl).trans (goes_skip more))
      · trivial
    · trivial
  · trivial

end Level

/-- The reader of values, that of items and that of members, with some bound on the recursion. -/
theorem follows_of_bound {cs : List Char} (bound : Nat) :
    (∀ rest, Begins cs rest → Follows cs (value bound rest)) ∧
    (∀ rest, Begins cs rest → Follows cs (items bound rest)) ∧
    ∀ fields rest, Goes .structural .structural cs rest →
      Follows cs (members bound fields rest) := by
  induction bound with
  | zero =>
    refine ⟨fun rest _ => ?_, fun rest _ => ?_, fun fields rest _ => ?_⟩
    · rw [value]; trivial
    · rw [items]; trivial
    · rw [members]
      · trivial
      · rintro _ _ ⟨⟩
  | succ bound ih =>
    obtain ⟨hvalue, hitems, hmembers⟩ := ih
    exact ⟨fun _ h => follows_value hitems hmembers h, fun _ h => follows_items hvalue hitems h,
      fun fields _ h => follows_members hvalue hmembers fields h⟩

/-- **Only an integer with too many digits** makes JSON text unreadable as a numeral. -/
theorem holdsInteger_of_read {s : String} {f : NumeralFault} (h : read s = .error (.numeral f)) :
    ∃ n, f = .tooLongToRead n ∧ Text.maxDigits < n ∧ HoldsInteger s.toList n := by
  have hwhole : whole s.toList = .error (.numeral f) := by
    unfold read readChars at h
    split at h
    · cases h
    · exact h
  unfold whole at hwhole
  split at hwhole
  · cases hwhole
  · obtain hvalue | ⟨⟨v, left⟩, -, hend⟩ := bind_eq_error.mp hwhole
    · have hfollows := (follows_of_bound (2 * s.toList.length + 1)).1 _ (begins_start s.toList)
      rwa [hvalue] at hfollows
    · simp only at hend
      split at hend <;> cases hend

end AccessTree.Json
