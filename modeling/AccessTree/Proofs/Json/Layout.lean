import AccessTree.Proofs.Json.Canonical
import AccessTree.Proofs.Json.Fields

/-! # Laid out text is read back

A `Plain` layout writes nothing but blanks beside the commas and colons of JSON text, and escapes no
character that it need not escape. Text in such a layout is read back as the value that was written,
whatever follows it (`reads`), if no object in the value names a key twice; only an integer that has
too many digits is not, and then the first one of them is the fault (`overlong?`). The layout for
display is plain, so that what is displayed is read back (`read_render`). -/

namespace AccessTree

namespace Json

/-! ### Blanks -/

/-- Characters that may stand between tokens. -/
def Spaces (cs : List Char) : Prop := ∀ c ∈ cs, isSpace c = true

theorem skip_append {gap : List Char} (h : Spaces gap) (cs : List Char) :
    skip (gap ++ cs) = skip cs := by
  rw [skip, List.dropWhile_append_of_pos h, skip]

theorem skip_cons {c : Char} (h : isSpace c = false) (cs : List Char) : skip (c :: cs) = c :: cs := by
  rw [skip, List.dropWhile_cons_of_neg (by simp [h])]

theorem isSpace_opening (v : Json) : isSpace v.opening = false := by
  cases v with
  | bool b => cases b <;> rfl
  | null | int | float | str | arr | obj => rfl

theorem openingOf_of_isSpace {c : Char} (h : isSpace c = true) : openingOf c = c := by
  simp only [isSpace, Bool.or_eq_true, decide_eq_true_eq] at h
  rcases h with ((rfl | rfl) | rfl) | rfl <;> decide

/-- No value starts with a blank. -/
theorem skip_chars (l : Layout) (level : Nat) (v : Json) (rest : List Char) :
    skip (chars l level v ++ rest) = chars l level v ++ rest := by
  obtain ⟨c, t, hv, hc⟩ := opening_chars l level v
  rw [hv, List.cons_append]
  refine skip_cons ?_ _
  by_contra hs
  rw [Bool.not_eq_false] at hs
  rw [openingOf_of_isSpace hs] at hc
  rw [hc, isSpace_opening] at hs
  cases hs

theorem spaces_lineBreak (l : Layout) (level : Nat) : Spaces (l.lineBreak level) := by
  intro c hc
  unfold Layout.lineBreak at hc
  split at hc
  · cases hc
  · rcases List.mem_cons.mp hc with rfl | hc
    · rfl
    · rw [List.eq_of_mem_replicate hc]
      rfl

end Json

/-- **A layout without needless characters:** blanks apart, it separates by one comma or colon, and
it escapes only what has to be escaped. -/
structure Layout.Plain (l : Layout) : Prop where
  unescaped : l.asciiOnly = false
  separator : ∃ gap, l.separator = ',' :: gap ∧ Json.Spaces gap
  colon : ∃ gap, l.colon = ':' :: gap ∧ Json.Spaces gap

theorem Layout.plain_display : Layout.display.Plain where
  unescaped := rfl
  separator := ⟨[], rfl, by simp [Json.Spaces]⟩
  colon := ⟨[' '], rfl, by simp [Json.Spaces, Json.isSpace]⟩

namespace Json

/-! ### Integers with too many digits -/

/-- Why an integer cannot be read back, if it has too many digits. -/
def integerFault? : Json → Option NumeralFault
  | .int n =>
    let digits := (Text.natChars n.natAbs).length
    if Text.maxDigits < digits then some (.tooLongToRead digits) else none
  | _ => none

/-- **The fault of the first integer** inside a value that has too many digits. -/
def overlong? (v : Json) : Option NumeralFault := v.parts.findSome? integerFault?

theorem findSome?_flatMap {α : Type} (g : α → List Json) (as : List α) :
    (as.flatMap g).findSome? integerFault? = as.findSome? fun a => (g a).findSome? integerFault? := by
  induction as with
  | nil => rfl
  | cons a as ih =>
    rw [List.flatMap_cons, List.findSome?_append, ih, List.findSome?_cons]
    cases (g a).findSome? integerFault? <;> rfl

theorem overlong?_arr (items : List Json) : (arr items).overlong? = items.findSome? overlong? := by
  rw [overlong?, parts_arr, List.findSome?_cons, findSome?_flatMap]
  rfl

theorem overlong?_obj (fields : Fields) :
    (obj fields).overlong? = fields.findSome? fun f => f.2.overlong? := by
  rw [overlong?, parts_obj, List.findSome?_cons, findSome?_flatMap]
  rfl

/-- What is read if there is no fault of an integer. -/
def readUnless {α : Type} (fault : Option NumeralFault) (a : α) : Reading α :=
  match fault with
  | none => .ok a
  | some f => .error (.numeral f)

theorem readUnless_bind {α β : Type} {fault : Option NumeralFault} {more : Option NumeralFault}
    {a : α} {b : β} {k : α → Reading β} (h : k a = readUnless more b) :
    (readUnless fault a >>= k) = readUnless (fault.or more) b := by
  cases fault with
  | none => exact h
  | some f => rfl

theorem findSome?_or {α : Type} (f : α → Option NumeralFault) (a : α) (as : List α) :
    (f a).or (as.findSome? f) = (a :: as).findSome? f := by
  rw [List.findSome?_cons]
  cases f a <;> rfl

/-! ### Values -/

/-- Text in a layout that begins with the text of a value is read as the value and what follows. -/
def Reads (l : Layout) (v : Json) : Prop :=
  ∀ ⦃level : Nat⦄ ⦃rest : List Char⦄ ⦃bound : Nat⦄, EndsNumber rest →
    2 * (chars l level v).length ≤ bound →
      value bound (chars l level v ++ rest) = readUnless v.overlong? (v, rest)

theorem one_le_length_chars (l : Layout) (level : Nat) (v : Json) :
    1 ≤ (chars l level v).length := by
  obtain ⟨c, t, hv, -⟩ := opening_chars l level v
  rw [hv, List.length_cons]
  exact Nat.succ_pos _

/-- A bound by the length of a text allows for one step. -/
theorem exists_eq_add_one_of_chars (l : Layout) (level : Nat) (v : Json) (bound : Nat)
    (h : (chars l level v).length ≤ bound) : ∃ b, bound = b + 1 :=
  Nat.exists_eq_add_one.mpr ((one_le_length_chars l level v).trans h)

/-- A value that is neither a string nor a list nor an object is read as a word or a number. -/
theorem value_eq_scalar {l : Layout} {level bound : Nat} {v : Json} (rest : List Char)
    (hv : v.opening ∉ ['"', '[', '{']) (hb : 2 * (chars l level v).length ≤ bound) :
    value bound (chars l level v ++ rest) = scalar (chars l level v ++ rest) := by
  obtain ⟨b, rfl⟩ := exists_eq_add_one_of_chars l level v bound (by omega)
  obtain ⟨c, t, hc, ho⟩ := opening_chars l level v
  rw [hc, List.cons_append, value]
  all_goals
    rintro rest ⟨⟩
    exact hv (ho ▸ by decide)

theorem reads_null (l : Layout) : Reads l .null := by
  intro level rest bound _ hb
  rw [value_eq_scalar rest (by decide) hb, chars]
  simp [scalar, word?, words, Text.afterStem?, readUnless, overlong?, parts, integerFault?]

theorem reads_bool (l : Layout) (b : Bool) : Reads l (.bool b) := by
  intro level rest bound _ hb
  rw [value_eq_scalar rest (by cases b <;> decide) hb]
  cases b <;>
    simp [chars, scalar, word?, words, Text.afterStem?, readUnless, overlong?, parts, integerFault?]

theorem reads_int (l : Layout) (n : Int) : Reads l (.int n) := by
  intro level rest bound hr hb
  rw [value_eq_scalar rest (by simp [opening]) hb, chars, scalar_int n hr,
    Text.readDigits, Text.length_charDigits]
  simp only [overlong?, parts, List.findSome?_singleton, integerFault?]
  split <;> rfl

theorem reads_float (l : Layout) (x : Binary64) : Reads l (.float x) := by
  intro level rest bound hr hb
  rw [value_eq_scalar rest (by simp [opening]) hb, chars, scalar_float x hr]
  rfl

/-- A string is read back. -/
theorem string_written (s : String) (rest : List Char) :
    string (s.toList.flatMap (escaped false) ++ '"' :: rest) = .ok (s, rest) := by
  rw [string, stringBody_written]
  exact congrArg (fun s => Except.ok (s, rest)) String.ofList_toList

theorem reads_str {l : Layout} (hl : l.Plain) (s : String) : Reads l (.str s) := by
  intro level rest bound _ hb
  obtain ⟨b, rfl⟩ := exists_eq_add_one_of_chars l level (.str s) bound (by omega)
  rw [chars, stringChars, hl.unescaped, List.cons_append, List.append_assoc,
    List.singleton_append, value, string_written]
  rfl

/-! ### Lists -/

theorem skip_moreItems_nil (l : Layout) (level : Nat) (rest : List Char) :
    skip (moreItems l level [] ++ rest) = ']' :: rest := by
  rw [moreItems, List.append_assoc, skip_append (spaces_lineBreak l level)]
  exact skip_cons rfl rest

theorem skip_moreItems_cons {l : Layout} (hl : l.Plain) (level : Nat) (v : Json) (vs : List Json)
    (rest : List Char) : ∃ gap, Spaces gap ∧ skip (moreItems l level (v :: vs) ++ rest) =
      ',' :: (gap ++ (chars l (level + 1) v ++ (moreItems l level vs ++ rest))) := by
  obtain ⟨gap, hsep, hgap⟩ := hl.separator
  refine ⟨gap ++ l.lineBreak (level + 1), ?_, ?_⟩
  · exact fun c hc => (List.mem_append.mp hc).elim (hgap c) (spaces_lineBreak l _ c)
  · simp only [moreItems, hsep, List.cons_append, List.append_assoc]
    exact skip_cons rfl _

theorem endsNumber_of_skip {cs left : List Char} {c : Char}
    (hc : c.isDigit = false ∧ c ≠ '.' ∧ c ≠ 'e' ∧ c ≠ 'E') (h : skip cs = c :: left) :
    EndsNumber cs := by
  match cs, h with
  | d :: cs, h =>
    by_cases hd : isSpace d
    · refine endsNumber_cons ?_ cs
      simp only [isSpace, Bool.or_eq_true, decide_eq_true_eq] at hd
      rcases hd with ((rfl | rfl) | rfl) | rfl <;> decide
    · rw [skip_cons (by simpa using hd)] at h
      rw [(List.cons.inj h).1]
      exact endsNumber_cons hc cs

theorem endsNumber_moreItems_of_plain {l : Layout} (hl : l.Plain) (level : Nat) (vs : List Json)
    (rest : List Char) : EndsNumber (moreItems l level vs ++ rest) := by
  cases vs with
  | nil => exact endsNumber_of_skip (by decide) (skip_moreItems_nil l level rest)
  | cons v vs =>
    obtain ⟨gap, -, h⟩ := skip_moreItems_cons hl level v vs rest
    exact endsNumber_of_skip (by decide) h

/-- The items of a list are read back, up to its end. -/
theorem items_written {l : Layout} (hl : l.Plain) {level : Nat} {rest : List Char} {vs : List Json} :
    ∀ {v : Json} {bound : Nat}, Reads l v → (∀ u ∈ vs, Reads l u) →
      2 * ((chars l (level + 1) v).length + (moreItems l level vs).length) ≤ bound →
      items bound (chars l (level + 1) v ++ (moreItems l level vs ++ rest)) =
        readUnless ((v :: vs).findSome? overlong?) (v :: vs, rest) := by
  induction vs with
  | nil =>
    intro v bound hv _ hb
    obtain ⟨b, rfl⟩ := exists_eq_add_one_of_chars l (level + 1) v bound (by omega)
    have hend : 1 ≤ (moreItems l level []).length := by simp [moreItems]
    rw [items, hv (endsNumber_moreItems_of_plain hl level [] rest) (by omega), ← findSome?_or]
    refine readUnless_bind ?_
    simp only [skip_moreItems_nil]
    rfl
  | cons u us ih =>
    intro v bound hv hvs hb
    obtain ⟨b, rfl⟩ := exists_eq_add_one_of_chars l (level + 1) v bound (by omega)
    obtain ⟨gap, hgap, hskip⟩ := skip_moreItems_cons hl level u us rest
    have hlen : (chars l (level + 1) u).length + (moreItems l level us).length <
        (moreItems l level (u :: us)).length := by
      obtain ⟨sep, hsep, -⟩ := hl.separator
      simp only [moreItems, hsep, List.length_append, List.length_cons]
      omega
    rw [items, hv (endsNumber_moreItems_of_plain hl level (u :: us) rest) (by omega), ← findSome?_or]
    refine readUnless_bind ?_
    simp only [hskip, skip_append hgap, skip_chars]
    rw [ih (hvs u List.mem_cons_self) (fun w hw => hvs w (List.mem_cons_of_mem u hw)) (by omega)]
    cases (u :: us).findSome? overlong? <;> rfl

theorem reads_arr {l : Layout} (hl : l.Plain) {vs : List Json} (ih : ∀ v ∈ vs, Reads l v) :
    Reads l (.arr vs) := by
  intro level rest bound _ hb
  obtain ⟨b, rfl⟩ := exists_eq_add_one_of_chars l level (.arr vs) bound (by omega)
  rw [overlong?_arr]
  cases vs with
  | nil =>
    rw [chars, List.cons_append, value]
    rfl
  | cons v vs =>
    have hitems : items b (chars l (level + 1) v ++ (moreItems l level vs ++ rest)) =
        readUnless ((v :: vs).findSome? overlong?) (v :: vs, rest) := by
      refine items_written hl (ih v List.mem_cons_self)
        (fun u hu => ih u (List.mem_cons_of_mem v hu)) ?_
      simp only [chars, List.length_cons, List.length_append] at hb
      omega
    have hskip : skip (l.lineBreak (level + 1) ++ (chars l (level + 1) v ++
        (moreItems l level vs ++ rest))) =
          chars l (level + 1) v ++ (moreItems l level vs ++ rest) := by
      rw [skip_append (spaces_lineBreak l _), skip_chars]
    simp only [chars, List.cons_append, List.append_assoc]
    rw [value]
    simp only [hskip]
    split
    · next h => exact absurd h chars_append_ne
    · rw [hitems]
      cases (v :: vs).findSome? overlong? <;> rfl

/-! ### Objects -/

/-- Setting a key that the fields do not have adds a field. -/
theorem setField_of_notMem {fields : Fields} {key : String} (v : Json)
    (h : key ∉ fields.map Prod.fst) : setField fields key v = fields ++ [(key, v)] := by
  induction fields with
  | nil => rfl
  | cons f rest ih =>
    obtain ⟨k, w⟩ := f
    rw [List.map_cons, List.mem_cons, not_or] at h
    rw [setField, if_neg fun hk => h.1 hk.symm, ih h.2, List.cons_append]

theorem notMem_keys_of_nodup {acc fields : Fields} {k : String} {v : Json}
    (hd : ((acc ++ (k, v) :: fields).map Prod.fst).Nodup) : k ∉ acc.map Prod.fst := by
  rw [List.map_append, List.map_cons] at hd
  exact fun hk => (List.nodup_append.mp hd).2.2 k hk k List.mem_cons_self rfl

theorem skip_moreFields_nil (l : Layout) (level : Nat) (rest : List Char) :
    skip (moreFields l level [] ++ rest) = '}' :: rest := by
  rw [moreFields, List.append_assoc, skip_append (spaces_lineBreak l level)]
  exact skip_cons rfl rest

theorem skip_moreFields_cons {l : Layout} (hl : l.Plain) (level : Nat) (k : String) (v : Json)
    (fields : Fields) (rest : List Char) : ∃ gap, Spaces gap ∧
      skip (moreFields l level ((k, v) :: fields) ++ rest) =
        ',' :: (gap ++ (stringChars false k ++ (l.colon ++ (chars l (level + 1) v ++
          (moreFields l level fields ++ rest))))) := by
  obtain ⟨gap, hsep, hgap⟩ := hl.separator
  refine ⟨gap ++ l.lineBreak (level + 1), ?_, ?_⟩
  · exact fun c hc => (List.mem_append.mp hc).elim (hgap c) (spaces_lineBreak l _ c)
  · simp only [moreFields, hsep, hl.unescaped, List.cons_append, List.append_assoc]
    exact skip_cons rfl _

theorem endsNumber_moreFields_of_plain {l : Layout} (hl : l.Plain) (level : Nat) (fields : Fields)
    (rest : List Char) : EndsNumber (moreFields l level fields ++ rest) := by
  cases fields with
  | nil => exact endsNumber_of_skip (by decide) (skip_moreFields_nil l level rest)
  | cons f fields =>
    obtain ⟨gap, -, h⟩ := skip_moreFields_cons hl level f.1 f.2 fields rest
    exact endsNumber_of_skip (by decide) h

/-- A key and its value are read; what follows the value decides how the object goes on. -/
theorem members_step {l : Layout} (hl : l.Plain) {level bound : Nat} {k : String} {v : Json}
    {acc : Fields} {after : List Char} (hv : Reads l v) (hafter : EndsNumber after)
    (hb : 2 * (chars l (level + 1) v).length ≤ bound) :
    members (bound + 1) acc (stringChars false k ++ (l.colon ++ (chars l (level + 1) v ++ after))) =
      (readUnless v.overlong? (v, after) >>= fun p =>
        match skip p.2 with
        | '}' :: left => .ok (.obj (setField acc k p.1), left)
        | ',' :: rest => members bound (setField acc k p.1) (skip rest)
        | rest => .error (.malformed .noComma rest.length)) := by
  obtain ⟨gap, hcolon, hgap⟩ := hl.colon
  have hskip : skip (l.colon ++ (chars l (level + 1) v ++ after)) =
      ':' :: (gap ++ (chars l (level + 1) v ++ after)) := by
    rw [hcolon]
    exact skip_cons rfl _
  rw [stringChars, List.cons_append, List.append_assoc, List.singleton_append, members,
    string_written]
  simp only [bind, Except.bind, hskip, skip_append hgap, skip_chars, hv hafter hb]
  rfl

/-- The fields of an object are read back after those read so far, up to its end. -/
theorem members_written {l : Layout} (hl : l.Plain) {level : Nat} {rest : List Char}
    {fields : Fields} : ∀ {acc : Fields} {k : String} {v : Json} {bound : Nat}, Reads l v →
      (∀ f ∈ fields, Reads l f.2) → ((acc ++ (k, v) :: fields).map Prod.fst).Nodup →
      2 * ((chars l (level + 1) v).length + (moreFields l level fields).length) ≤ bound →
      members bound acc (stringChars false k ++ (l.colon ++ (chars l (level + 1) v ++
          (moreFields l level fields ++ rest)))) =
        readUnless (((k, v) :: fields).findSome? fun f => f.2.overlong?)
          (.obj (acc ++ (k, v) :: fields), rest) := by
  induction fields with
  | nil =>
    intro acc k v bound hv _ hd hb
    obtain ⟨b, rfl⟩ := exists_eq_add_one_of_chars l (level + 1) v bound (by omega)
    have hend : 1 ≤ (moreFields l level []).length := by simp [moreFields]
    have hk := notMem_keys_of_nodup hd
    rw [members_step hl hv (endsNumber_moreFields_of_plain hl level [] rest) (by omega),
      ← findSome?_or (fun f : String × Json => f.2.overlong?)]
    refine readUnless_bind ?_
    simp only [skip_moreFields_nil, setField_of_notMem v hk]
    rfl
  | cons f fields ih =>
    intro acc k v bound hv hvs hd hb
    obtain ⟨k', u⟩ := f
    obtain ⟨b, rfl⟩ := exists_eq_add_one_of_chars l (level + 1) v bound (by omega)
    obtain ⟨gap, hgap, hskip⟩ := skip_moreFields_cons hl level k' u fields rest
    have hlen : (chars l (level + 1) u).length + (moreFields l level fields).length <
        (moreFields l level ((k', u) :: fields)).length := by
      obtain ⟨sep, hsep, -⟩ := hl.separator
      simp only [moreFields, hsep, List.length_append, List.length_cons]
      omega
    have hk := notMem_keys_of_nodup hd
    have hacc : acc ++ (k, v) :: (k', u) :: fields = setField acc k v ++ (k', u) :: fields := by
      rw [setField_of_notMem v hk, List.append_assoc, List.singleton_append]
    rw [members_step hl hv (endsNumber_moreFields_of_plain hl level _ rest) (by omega),
      ← findSome?_or (fun f : String × Json => f.2.overlong?)]
    refine readUnless_bind ?_
    have hquote : skip (stringChars false k' ++ (l.colon ++ (chars l (level + 1) u ++
        (moreFields l level fields ++ rest)))) = stringChars false k' ++ (l.colon ++
          (chars l (level + 1) u ++ (moreFields l level fields ++ rest))) := skip_cons rfl _
    simp only [hskip, skip_append hgap, hquote]
    rw [hacc] at hd ⊢
    exact ih (hvs (k', u) List.mem_cons_self) (fun g hg => hvs g (List.mem_cons_of_mem _ hg)) hd
      (by omega)

theorem reads_obj {l : Layout} (hl : l.Plain) {fields : Fields}
    (hd : (fields.map Prod.fst).Nodup) (ih : ∀ f ∈ fields, Reads l f.2) :
    Reads l (.obj fields) := by
  intro level rest bound _ hb
  obtain ⟨b, rfl⟩ := exists_eq_add_one_of_chars l level (.obj fields) bound (by omega)
  rw [overlong?_obj]
  cases fields with
  | nil =>
    rw [chars, List.cons_append, value]
    rfl
  | cons f fields =>
    obtain ⟨k, v⟩ := f
    have hv : Reads l v := ih (k, v) List.mem_cons_self
    have hmembers : members b [] (stringChars false k ++ (l.colon ++ (chars l (level + 1) v ++
        (moreFields l level fields ++ rest)))) =
          readUnless (((k, v) :: fields).findSome? fun f => f.2.overlong?)
            (.obj ((k, v) :: fields), rest) := by
      refine members_written hl hv (fun g hg => ih g (List.mem_cons_of_mem _ hg)) hd ?_
      simp only [chars, List.length_cons, List.length_append] at hb
      omega
    have hskip : skip (l.lineBreak (level + 1) ++ (stringChars false k ++ (l.colon ++
        (chars l (level + 1) v ++ (moreFields l level fields ++ rest))))) =
          stringChars false k ++ (l.colon ++ (chars l (level + 1) v ++
            (moreFields l level fields ++ rest))) := by
      rw [skip_append (spaces_lineBreak l _)]
      exact skip_cons rfl _
    simp only [chars, hl.unescaped, List.cons_append, List.append_assoc]
    rw [value]
    simp only [hskip]
    split
    · next h => cases h
    · exact hmembers

/-- **Text in a plain layout is read back.** -/
theorem reads {l : Layout} (hl : l.Plain) (v : Json) (hd : v.Distinct) : Reads l v := by
  induction v with
  | null => exact reads_null l
  | bool b => exact reads_bool l b
  | int n => exact reads_int l n
  | float x => exact reads_float l x
  | str s => exact reads_str hl s
  | arr vs ih => exact reads_arr hl fun v hv => ih v hv (distinct_arr.mp hd v hv)
  | obj fields ih =>
    obtain ⟨hkeys, hvs⟩ := distinct_obj.mp hd
    exact reads_obj hl hkeys fun f hf => ih f hf (hvs f hf)

/-- **The text of a value is read back as the value**, unless an integer has too many digits. -/
theorem read_render {l : Layout} (hl : l.Plain) {v : Json} (hd : v.Distinct) :
    read (v.render l) = readUnless v.overlong? v := by
  have hlen := one_le_length_chars l 0 v
  obtain ⟨c, t, hc, ho⟩ := opening_chars l 0 v
  have hmark : c ≠ '\uFEFF' := by
    rintro rfl
    cases v with
    | bool b => cases b <;> exact absurd ho (by decide)
    | null | int | float | str | arr | obj => exact absurd ho (by simp [opening, openingOf, opensNumber])
  have hvalue : value (2 * (chars l 0 v).length + 1) (chars l 0 v ++ []) =
      readUnless v.overlong? (v, []) := reads hl v hd endsNumber_nil (by omega)
  have hskip := skip_chars l 0 v []
  rw [List.append_nil] at hvalue hskip
  have hwhole : whole (chars l 0 v) = readUnless v.overlong? v := by
    rw [whole]
    · rw [hskip, hvalue]
      cases v.overlong? <;> rfl
    · rw [hc]
      rintro rest ⟨⟩
      exact hmark rfl
  rw [read, render, String.toList_ofList, readChars, hwhole]
  cases v.overlong? <;> rfl

end Json

end AccessTree
