import AccessTree.Proofs.Json.Numbers
import AccessTree.Proofs.Json.Reordered
import AccessTree.Proofs.Json.Strings

/-! # The canonical text tells values apart

Compact text is uniquely readable: text that begins with the text of a value determines the value and
what follows, provided that what follows does not go on with a number (`readable`). The first
character tells the kinds of values apart, up to the two kinds of numbers (`opening_eq`); after it
the parts of a value are read one by one. Values with the same canonical text are therefore equal
once sorted, and differ in the order of fields only (`canonical_eq_iff_reordered`). -/

namespace AccessTree.Json

/-! ### The first character -/

/-- Whether the text of a number may start with a character. -/
def opensNumber (c : Char) : Bool := c.isDigit || c = '-' || c = 'N' || c = 'I'

/-- The first character of a value, where `0` stands for everything a number may start with. -/
def opening : Json → Char
  | .null => 'n'
  | .bool true => 't'
  | .bool false => 'f'
  | .int _ | .float _ => '0'
  | .str _ => '"'
  | .arr _ => '['
  | .obj _ => '{'

/-- A first character, where `0` stands for everything a number may start with. -/
def openingOf (c : Char) : Char := if opensNumber c then '0' else c

theorem openingOf_signed (negative : Bool) {cs : List Char}
    (h : ∃ c t, cs = c :: t ∧ c.isDigit) :
    ∃ c t, signChars negative ++ cs = c :: t ∧ openingOf c = '0' := by
  obtain ⟨c, t, rfl, hc⟩ := h
  cases negative with
  | true => exact ⟨'-', c :: t, rfl, rfl⟩
  | false => exact ⟨c, t, rfl, by rw [openingOf, opensNumber, hc, Bool.true_or]; rfl⟩

theorem opening_float (x : Binary64) :
    ∃ c t, x.chars spelling = c :: t ∧ openingOf c = '0' := by
  cases x with
  | nan => exact ⟨'N', ['a', 'N'], by simp [Binary64.chars, spelling], rfl⟩
  | infinite negative =>
    cases negative with
    | true => exact ⟨'-', "Infinity".toList, by simp [Binary64.chars, spelling], rfl⟩
    | false => exact ⟨'I', "nfinity".toList, by simp [Binary64.chars, spelling], rfl⟩
  | finite negative m e h =>
    have hread := unsignedNumber_magnitudeChars negative h endsNumber_nil
    rw [List.append_nil] at hread
    exact openingOf_signed negative (exists_digit_of_unsignedNumber hread)

theorem opening_chars (l : Layout) (level : Nat) (v : Json) :
    ∃ c t, chars l level v = c :: t ∧ openingOf c = v.opening := by
  cases v with
  | null => exact ⟨_, _, by rw [chars], rfl⟩
  | bool b => cases b <;> exact ⟨_, _, by rw [chars], rfl⟩
  | int n =>
    rw [chars, intChars_eq]
    obtain ⟨c, t, h⟩ := List.exists_cons_of_ne_nil (Text.natChars_ne_nil n.natAbs)
    refine openingOf_signed _ ⟨c, t, h, Text.isDigit_of_mem_natChars (n := n.natAbs) ?_⟩
    rw [h]
    exact List.mem_cons_self
  | float x =>
    rw [chars]
    exact opening_float x
  | str s => exact ⟨_, _, by rw [chars, stringChars], rfl⟩
  | arr items => cases items <;> exact ⟨_, _, by rw [chars], rfl⟩
  | obj fields => cases fields <;> exact ⟨_, _, by rw [chars], rfl⟩

/-- Values that start alike are of the same kind, or both are numbers. -/
theorem opening_eq {l : Layout} {level : Nat} {v w : Json} {r s : List Char}
    (h : chars l level v ++ r = chars l level w ++ s) : v.opening = w.opening := by
  obtain ⟨c, t, hv, hc⟩ := opening_chars l level v
  obtain ⟨d, u, hw, hd⟩ := opening_chars l level w
  rw [hv, hw, List.cons_append, List.cons_append] at h
  rw [← hc, ← hd, (List.cons.inj h).1]

theorem opening_ne_bracket (v : Json) : v.opening ≠ ']' := by
  cases v with
  | bool b => cases b <;> decide
  | null | int | float | str | arr | obj => simp [opening]

/-- No value starts with the end of a list. -/
theorem chars_append_ne {l : Layout} {level : Nat} {v : Json} {r s : List Char} :
    chars l level v ++ r ≠ ']' :: s := by
  obtain ⟨c, t, hv, hc⟩ := opening_chars l level v
  intro h
  rw [hv, List.cons_append] at h
  rw [(List.cons.inj h).1] at hc
  exact opening_ne_bracket v hc.symm

/-! ### Parts of compact text -/

theorem chars_items (level : Nat) (v : Json) (vs : List Json) (r : List Char) :
    chars .compact level (.arr (v :: vs)) ++ r =
      '[' :: (chars .compact (level + 1) v ++ (moreItems .compact level vs ++ r)) := by
  simp [chars, Layout.compact, Layout.lineBreak]

theorem moreItems_cons (level : Nat) (v : Json) (vs : List Json) (r : List Char) :
    moreItems .compact level (v :: vs) ++ r =
      ',' :: (chars .compact (level + 1) v ++ (moreItems .compact level vs ++ r)) := by
  simp [moreItems, Layout.compact, Layout.lineBreak]

theorem chars_fields (level : Nat) (k : String) (v : Json) (rest : Fields) (r : List Char) :
    chars .compact level (.obj ((k, v) :: rest)) ++ r =
      '{' :: (stringChars false k ++
        ':' :: (chars .compact (level + 1) v ++ (moreFields .compact level rest ++ r))) := by
  simp [chars, Layout.compact, Layout.lineBreak]

theorem moreFields_cons (level : Nat) (k : String) (v : Json) (rest : Fields) (r : List Char) :
    moreFields .compact level ((k, v) :: rest) ++ r =
      ',' :: (stringChars false k ++
        ':' :: (chars .compact (level + 1) v ++ (moreFields .compact level rest ++ r))) := by
  simp [moreFields, Layout.compact, Layout.lineBreak]

theorem endsNumber_moreItems (level : Nat) (vs : List Json) (r : List Char) :
    EndsNumber (moreItems .compact level vs ++ r) := by
  cases vs with
  | nil => exact endsNumber_cons (by decide) _
  | cons v vs =>
    rw [moreItems_cons]
    exact endsNumber_cons (by decide) _

theorem endsNumber_moreFields (level : Nat) (fields : Fields) (r : List Char) :
    EndsNumber (moreFields .compact level fields ++ r) := by
  cases fields with
  | nil => exact endsNumber_cons (by decide) _
  | cons f rest =>
    rw [moreFields_cons]
    exact endsNumber_cons (by decide) _

/-! ### Unique readability -/

/-- Compact text that begins with the text of a value determines the value and what follows. -/
def Readable (v : Json) : Prop :=
  ∀ ⦃w : Json⦄ ⦃level : Nat⦄ ⦃r s : List Char⦄, EndsNumber r → EndsNumber s →
    chars .compact level v ++ r = chars .compact level w ++ s → v = w ∧ r = s

theorem readable_int (n : Int) : Readable (.int n) := by
  intro w level r s hr hs h
  have hopen := opening_eq h
  cases w with
  | int m =>
    rw [chars, chars] at h
    have hn := number?_int n hr
    rw [h, number?_int m hs] at hn
    obtain rfl := (Prod.mk.inj (Option.some.inj hn)).2
    exact ⟨congrArg int (Text.intChars_injective (List.append_cancel_right h)), rfl⟩
  | float x =>
    rw [chars, chars] at h
    exact absurd h (intChars_append_ne n x hr hs)
  | bool b => cases b <;> cases hopen
  | null | str | arr | obj => cases hopen

theorem readable_float (x : Binary64) : Readable (.float x) := by
  intro w level r s hr hs h
  have hopen := opening_eq h
  cases w with
  | int n =>
    rw [chars, chars] at h
    exact absurd h.symm (intChars_append_ne n x hs hr)
  | float y =>
    have hx := scalar_float x hr
    rw [chars, chars] at h
    rw [h, scalar_float y hs] at hx
    obtain ⟨hxy, hrs⟩ := Prod.mk.inj (Except.ok.inj hx)
    exact ⟨hxy.symm, hrs.symm⟩
  | bool b => cases b <;> cases hopen
  | null | str | arr | obj => cases hopen

theorem moreItems_append_inj {level : Nat} {r s : List Char} {vs : List Json}
    (ih : ∀ v ∈ vs, Readable v) : ∀ {ws : List Json},
      moreItems .compact level vs ++ r = moreItems .compact level ws ++ s → vs = ws ∧ r = s := by
  induction vs with
  | nil =>
    intro ws h
    cases ws with
    | nil => exact ⟨rfl, (List.cons.inj h).2⟩
    | cons w ws =>
      rw [moreItems_cons] at h
      exact absurd (List.cons.inj h).1 (by decide)
  | cons v vs ihs =>
    intro ws h
    cases ws with
    | nil =>
      rw [moreItems_cons] at h
      exact absurd (List.cons.inj h).1 (by decide)
    | cons w ws =>
      rw [moreItems_cons, moreItems_cons] at h
      obtain ⟨rfl, h'⟩ := ih v List.mem_cons_self (endsNumber_moreItems level vs r)
        (endsNumber_moreItems level ws s) (List.cons.inj h).2
      obtain ⟨rfl, hrs⟩ := ihs (fun u hu => ih u (List.mem_cons_of_mem v hu)) h'
      exact ⟨rfl, hrs⟩

theorem moreFields_append_inj {level : Nat} {r s : List Char} {fs : Fields}
    (ih : ∀ f ∈ fs, Readable f.2) : ∀ {gs : Fields},
      moreFields .compact level fs ++ r = moreFields .compact level gs ++ s → fs = gs ∧ r = s := by
  induction fs with
  | nil =>
    intro gs h
    cases gs with
    | nil => exact ⟨rfl, (List.cons.inj h).2⟩
    | cons g gs =>
      rw [moreFields_cons] at h
      exact absurd (List.cons.inj h).1 (by decide)
  | cons f fs ihs =>
    intro gs h
    cases gs with
    | nil =>
      rw [moreFields_cons] at h
      exact absurd (List.cons.inj h).1 (by decide)
    | cons g gs =>
      obtain ⟨k, v⟩ := f
      obtain ⟨k', w⟩ := g
      rw [moreFields_cons, moreFields_cons] at h
      obtain ⟨rfl, hvalue⟩ := stringChars_append_inj (List.cons.inj h).2
      obtain ⟨rfl, h'⟩ := ih (k, v) List.mem_cons_self (endsNumber_moreFields level fs r)
        (endsNumber_moreFields level gs s) (List.cons.inj hvalue).2
      obtain ⟨rfl, hrs⟩ := ihs (fun u hu => ih u (List.mem_cons_of_mem _ hu)) h'
      exact ⟨rfl, hrs⟩

theorem readable_arr {items : List Json} (ih : ∀ v ∈ items, Readable v) :
    Readable (.arr items) := by
  intro w level r s hr hs h
  have hopen := opening_eq h
  cases w with
  | arr ws =>
    match items, ws with
    | [], [] =>
      rw [chars] at h
      exact ⟨rfl, List.append_cancel_left h⟩
    | [], w :: ws =>
      rw [chars_items, chars] at h
      exact absurd (List.cons.inj h).2.symm chars_append_ne
    | v :: vs, [] =>
      rw [chars_items, chars] at h
      exact absurd (List.cons.inj h).2 chars_append_ne
    | v :: vs, w :: ws =>
      rw [chars_items, chars_items] at h
      have hmore : moreItems .compact level (v :: vs) ++ r =
          moreItems .compact level (w :: ws) ++ s := by
        rw [moreItems_cons, moreItems_cons, (List.cons.inj h).2]
      obtain ⟨hvs, hrs⟩ := moreItems_append_inj ih hmore
      exact ⟨congrArg arr hvs, hrs⟩
  | bool b => cases b <;> cases hopen
  | null | int | float | str | obj => cases hopen

theorem readable_obj {fields : Fields} (ih : ∀ f ∈ fields, Readable f.2) :
    Readable (.obj fields) := by
  intro w level r s hr hs h
  have hopen := opening_eq h
  cases w with
  | obj gs =>
    match fields, gs with
    | [], [] =>
      rw [chars] at h
      exact ⟨rfl, List.append_cancel_left h⟩
    | [], (k, w) :: gs =>
      rw [chars_fields, chars] at h
      exact absurd (List.cons.inj (List.cons.inj h).2).1 (by decide)
    | (k, v) :: fs, [] =>
      rw [chars_fields, chars] at h
      exact absurd (List.cons.inj (List.cons.inj h).2).1 (by decide)
    | (k, v) :: fs, (k', w) :: gs =>
      rw [chars_fields, chars_fields] at h
      have hmore : moreFields .compact level ((k, v) :: fs) ++ r =
          moreFields .compact level ((k', w) :: gs) ++ s := by
        rw [moreFields_cons, moreFields_cons, (List.cons.inj h).2]
      obtain ⟨hfs, hrs⟩ := moreFields_append_inj ih hmore
      exact ⟨congrArg obj hfs, hrs⟩
  | bool b => cases b <;> cases hopen
  | null | int | float | str | arr => cases hopen

/-- **Compact text is uniquely readable.** -/
theorem readable (v : Json) : Readable v := by
  induction v with
  | null =>
    intro w level r s _ _ h
    have hopen := opening_eq h
    cases w with
    | null => exact ⟨rfl, List.append_cancel_left h⟩
    | bool b => cases b <;> cases hopen
    | int | float | str | arr | obj => cases hopen
  | bool b =>
    intro w level r s _ _ h
    have hopen := opening_eq h
    cases w with
    | bool b' =>
      have hb : b = b' := by cases b <;> cases b' <;> first | rfl | cases hopen
      subst hb
      exact ⟨rfl, List.append_cancel_left h⟩
    | null | int | float | str | arr | obj => cases b <;> cases hopen
  | int n => exact readable_int n
  | float x => exact readable_float x
  | str t =>
    intro w level r s _ _ h
    have hopen := opening_eq h
    cases w with
    | str u =>
      rw [chars, chars] at h
      obtain ⟨rfl, hrs⟩ := stringChars_append_inj h
      exact ⟨rfl, hrs⟩
    | bool b => cases b <;> cases hopen
    | null | int | float | arr | obj => cases hopen
  | arr items ih => exact readable_arr ih
  | obj fields ih => exact readable_obj ih

theorem render_compact_injective {v w : Json} (h : v.render .compact = w.render .compact) :
    v = w := by
  have hchars := String.ofList_injective h
  exact (readable v endsNumber_nil endsNumber_nil (congrArg (· ++ []) hchars)).1

/-- **The canonical text identifies a value up to the order of fields** and nothing more: if a value
can be written, the values that are written as the same text are those with other orders. -/
theorem canonical_eq_iff_reordered {a b : Json} (ha : a.Distinct) :
    (a.canonical = b.canonical ↔ Reordered a b) ∧
      ∀ s, a.writeCanonical = .ok s → (b.writeCanonical = .ok s ↔ Reordered a b) := by
  have hiff : a.canonical = b.canonical ↔ Reordered a b := by
    rw [← sorted_eq_iff_reordered ha]
    exact ⟨render_compact_injective, congrArg (render .compact)⟩
  refine ⟨hiff, fun s hs => ⟨fun h => ?_, fun h => ?_⟩⟩
  · rw [writeCanonical_eq, written_eq_ok] at hs h
    exact hiff.mp (hs.2.trans h.2.symm)
  · rw [← writeCanonical_eq_of_reordered ha h, hs]

/-- A value with two fields. -/
def twoKeys : Json := .obj [("chain", .int 1), ("methodParams", .arr [.null, .str "1"])]

/-- The same value with its fields in the other order. -/
def twoKeysSwapped : Json := .obj [("methodParams", .arr [.null, .str "1"]), ("chain", .int 1)]

theorem canonical_eq_iff_reordered_twoKeys :
    twoKeys.Distinct ∧ twoKeys.canonical = twoKeysSwapped.canonical ∧
      ∃ s, twoKeys.writeCanonical = .ok s ∧ twoKeysSwapped.writeCanonical = .ok s := by
  have hd : twoKeys.Distinct := by decide
  have hr : Reordered twoKeys twoKeysSwapped :=
    .obj rfl (forall₂_refl .refl _) (List.Perm.swap _ _ _)
  have hs : twoKeys.writeCanonical = .ok twoKeys.canonical := by
    rw [writeCanonical_eq, written_eq_ok]
    exact ⟨by decide, rfl⟩
  exact ⟨hd, (canonical_eq_iff_reordered hd).1.mpr hr, _, hs,
    ((canonical_eq_iff_reordered hd).2 _ hs).mpr hr⟩

/-- Values that look alike have texts of their own: `1`, `1.0`, `true` and the string of `1`; a
`null` and a missing field; keys, strings and lists that differ a little. -/
example : [.int 1, .float (.finite false (1 <<< 52) 1022 (by decide)), .bool true, .str "1",
    .obj [("data", .null)], .obj [("Data", .null)], .obj [], .str "\n", .str "\\n", .str "\"",
    .arr [.int 1, .int 2], .arr [.int 2, .int 1]].Pairwise
      fun a b : Json => a.canonical ≠ b.canonical := by decide +kernel

end AccessTree.Json
