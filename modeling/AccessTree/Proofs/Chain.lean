import AccessTree.Proofs.Compile.Chain
import AccessTree.Proofs.Compile.Faults

/-! # The chain that a slot stands for

What was entered in a chain slot `Names` a chain if it is the number of the chain, a floating point
number that is equal to it, or a text that spells it, with as many zeros in front as one likes.
`Chain.resolve` gives the chain that was named, the one to fall back on if nothing was entered, and
otherwise a fault that tells which chains there are (`Chain.resolve_outcome`). The exception are
numerals of more than `Text.maxDigits` digits: what a text spells is never looked at, an integer
cannot be written into the fault, and both fail as numerals and not as chains
(`Chain.resolve_of_overlong`, `Chain.resolve_of_overlong_int`). -/

namespace AccessTree

namespace Text

/-- **The integer that a text is**, however long: between blanks, it is one or more ASCII digits
after at most one sign. -/
inductive HasValue (s : String) : Int → Prop where
  | plain {cs : List Char} (nonempty : cs ≠ []) (digits : ∀ c ∈ cs, c.isDigit)
      (hs : trimChars s.toList = cs) : HasValue s (ofDigits (charDigits cs))
  | plus {cs : List Char} (nonempty : cs ≠ []) (digits : ∀ c ∈ cs, c.isDigit)
      (hs : trimChars s.toList = '+' :: cs) : HasValue s (ofDigits (charDigits cs))
  | minus {cs : List Char} (nonempty : cs ≠ []) (digits : ∀ c ∈ cs, c.isDigit)
      (hs : trimChars s.toList = '-' :: cs) : HasValue s (-ofDigits (charDigits cs))

/-- A literal comes apart into its sign and its digits. -/
theorem integerLiteral?_eq_some {s : String} {negative : Bool} {ds : List Nat} :
    integerLiteral? s = some (negative, ds) ↔ ∃ cs, cs ≠ [] ∧ (∀ c ∈ cs, c.isDigit) ∧
      ds = charDigits cs ∧ (negative = false ∧ trimChars s.toList = cs ∨
        negative = false ∧ trimChars s.toList = '+' :: cs ∨
        negative = true ∧ trimChars s.toList = '-' :: cs) := by
  constructor
  · intro h
    unfold integerLiteral? at h
    split at h <;> obtain ⟨es, hu, he⟩ := Option.map_eq_some_iff.mp h <;> cases he <;>
      obtain ⟨hne, hd, hds⟩ := unsigned?_eq_some.mp hu <;> refine ⟨_, hne, hd, hds, ?_⟩
    · next hs => exact .inr (.inr ⟨rfl, hs⟩)
    · next hs => exact .inr (.inl ⟨rfl, hs⟩)
    · exact .inl ⟨rfl, rfl⟩
  · rintro ⟨cs, hne, hd, rfl, ⟨rfl, hs⟩ | ⟨rfl, hs⟩ | ⟨rfl, hs⟩⟩ <;>
      have hu : unsigned? cs = some (charDigits cs) := unsigned?_eq_some.mpr ⟨hne, hd, rfl⟩
    · rw [integerLiteral?_of_digits hne hd hs, hu]
      rfl
    · rw [integerLiteral?, hs]
      simp [hu]
    · rw [integerLiteral?, hs]
      simp [hu]

theorem hasValue_iff {s : String} {n : Int} : HasValue s n ↔
    ∃ negative ds, integerLiteral? s = some (negative, ds) ∧ n = signed negative (ofDigits ds) := by
  constructor
  · rintro (⟨hne, hd, hs⟩ | ⟨hne, hd, hs⟩ | ⟨hne, hd, hs⟩)
    · exact ⟨false, _, integerLiteral?_eq_some.mpr ⟨_, hne, hd, rfl, .inl ⟨rfl, hs⟩⟩, rfl⟩
    · exact ⟨false, _, integerLiteral?_eq_some.mpr ⟨_, hne, hd, rfl, .inr (.inl ⟨rfl, hs⟩)⟩, rfl⟩
    · exact ⟨true, _, integerLiteral?_eq_some.mpr ⟨_, hne, hd, rfl, .inr (.inr ⟨rfl, hs⟩)⟩, rfl⟩
  · rintro ⟨negative, ds, h, rfl⟩
    obtain ⟨cs, hne, hd, rfl, ⟨rfl, hs⟩ | ⟨rfl, hs⟩ | ⟨rfl, hs⟩⟩ := integerLiteral?_eq_some.mp h
    · exact .plain hne hd hs
    · exact .plus hne hd hs
    · exact .minus hne hd hs

/-- A literal has as many digits as were read of it. -/
theorem length_of_isLiteral {s : String} {n : Nat} (h : IsLiteral s n) (hn : 0 < n) :
    ∃ negative ds, integerLiteral? s = some (negative, ds) ∧ ds.length = n := by
  obtain ⟨cs, hs, hd, rfl⟩ := h
  have hne : cs ≠ [] := List.length_pos_iff.mp hn
  rcases hs with hs | hs | hs
  · exact ⟨false, _, integerLiteral?_eq_some.mpr ⟨cs, hne, hd, rfl, .inl ⟨rfl, hs⟩⟩,
      length_charDigits cs⟩
  · exact ⟨false, _, integerLiteral?_eq_some.mpr ⟨cs, hne, hd, rfl, .inr (.inl ⟨rfl, hs⟩)⟩,
      length_charDigits cs⟩
  · exact ⟨true, _, integerLiteral?_eq_some.mpr ⟨cs, hne, hd, rfl, .inr (.inr ⟨rfl, hs⟩)⟩,
      length_charDigits cs⟩

/-- **A literal of too many digits** cannot be read. -/
theorem readInteger_of_isLiteral {s : String} {n : Nat} (h : IsLiteral s n) (hn : maxDigits < n) :
    readInteger s = .error (.tooLongToRead n) := by
  obtain ⟨negative, ds, hl, rfl⟩ := length_of_isLiteral h (Nat.zero_lt_of_lt hn)
  simp only [readInteger, hl]
  rw [readDigits, if_pos hn]
  rfl

theorem Spells.hasValue {s : String} {n : Int} (h : Spells s n) : HasValue s n := by
  rcases h with ⟨hcs, hs⟩ | ⟨hcs, hs⟩ | ⟨hcs, hs⟩
  · exact .plain hcs.nonempty hcs.digits hs
  · exact .plus hcs.nonempty hcs.digits hs
  · exact .minus hcs.nonempty hcs.digits hs

/-- A literal that is short enough is read as its value, and nothing else is read as an integer. -/
theorem spells_iff_hasValue {s : String} (h : ¬ ∃ k, maxDigits < k ∧ IsLiteral s k) {n : Int} :
    Spells s n ↔ HasValue s n := by
  constructor
  · exact Spells.hasValue
  · have short : ∀ cs : List Char, IsLiteral s cs.length → cs.length ≤ maxDigits := fun cs hcs =>
      Nat.le_of_not_lt fun hlong => h ⟨_, hlong, hcs⟩
    rintro (⟨hne, hd, hs⟩ | ⟨hne, hd, hs⟩ | ⟨hne, hd, hs⟩)
    · exact .plain ⟨hne, hd, short _ ⟨_, .inl hs, hd, rfl⟩⟩ hs
    · exact .plus ⟨hne, hd, short _ ⟨_, .inr (.inl hs), hd, rfl⟩⟩ hs
    · exact .minus ⟨hne, hd, short _ ⟨_, .inr (.inr hs), hd, rfl⟩⟩ hs

end Text

/-- A number is equal to an integer if it is that many ones, counted in units. -/
theorem Binary64.toInt?_eq_some {negative : Bool} {m e : Nat} {h : Canonical m e} {n : Int} :
    toInt? (.finite negative m e h) = some n ↔ Text.signed negative (m <<< e) = n * (one : Nat) := by
  have hone : 0 < one := by rw [one, Nat.one_shiftLeft]; exact Nat.two_pow_pos _
  rw [toInt?]
  generalize m <<< e = u
  generalize one = d at hone
  have hmul : ∀ k, Text.signed negative (k * d) = Text.signed negative k * (d : Nat) := by
    intro k
    cases negative <;> simp [Text.signed]
  constructor
  · intro hu
    split at hu
    · next hz =>
      cases hu
      rw [← hmul, Nat.div_mul_cancel (Nat.dvd_of_mod_eq_zero hz)]
    · cases hu
  · intro hu
    have habs : u = n.natAbs * d := by
      have hnat := congrArg Int.natAbs hu
      rw [Int.natAbs_mul, Int.natAbs_natCast] at hnat
      cases negative <;> simpa [Text.signed] using hnat
    subst habs
    rw [hmul] at hu
    rw [if_pos (Nat.mul_mod_left _ _), Nat.mul_div_cancel _ hone,
      Int.eq_of_mul_eq_mul_right (by omega) hu]

namespace Literal

/-- **A literal names a chain**: it is the number of the chain, equal to it, or spells it. -/
inductive Names (c : ChainId) : Literal → Prop where
  | int : Names c (.int c.number)
  | float {negative : Bool} {m e : Nat} {h : Binary64.Canonical m e}
      (value : Text.signed negative (m <<< e) = (c.number : Int) * (Binary64.one : Nat)) :
    Names c (.float (.finite negative m e h))
  | text {s : String} (value : Text.HasValue s c.number) : Names c (.text s)

/-- A numeral that is too long to be converted: a text that is one, or an integer that would be
written as one. -/
def Overlong : Literal → Prop
  | .text s => ∃ n, Text.maxDigits < n ∧ Text.IsLiteral s n
  | .int n => Text.maxDigits < (Text.natChars n.natAbs).length
  | .float _ | .flag _ => False

theorem denotes_iff_names {l : Literal} (h : ¬ l.Overlong) {c : ChainId} :
    l.Denotes c.number ↔ l.Names c := by
  cases l with
  | text s =>
    constructor
    · rintro ⟨⟩
      exact .text ((Text.spells_iff_hasValue h).mp ‹_›)
    · rintro ⟨⟩
      exact .text ((Text.spells_iff_hasValue h).mpr ‹_›)
  | int n =>
    constructor
    · rintro ⟨⟩
      exact .int
    · rintro ⟨⟩
      exact .int _
  | float x =>
    constructor
    · rintro (_ | hx | _)
      cases x with
      | finite negative m e hc => exact .float (Binary64.toInt?_eq_some.mp hx)
      | nan | infinite => cases hx
    · rintro (_ | hx | _)
      exact .float (Binary64.toInt?_eq_some.mpr hx)
  | flag b => exact iff_of_false (by rintro ⟨⟩) (by rintro ⟨⟩)

theorem overlong_int_iff {n : Int} : (int n).Overlong ↔ (Json.int n).isWritable = false := by
  rw [Json.isWritable_int, Text.writeInt]
  split
  · next h => exact iff_of_true h rfl
  · next h => exact iff_of_false h (by rintro ⟨⟩)

theorem isWritable_toJson_of_not_overlong {l : Literal} (h : ¬ l.Overlong) :
    l.toJson.isWritable = true := by
  cases l with
  | int n => exact Bool.not_eq_false _ ▸ mt overlong_int_iff.mpr h
  | text | float | flag => rfl

end Literal

namespace Chain

/-- Nothing was entered in a chain slot: there is no literal, or a text of blanks. -/
def Blank (raw : Option Literal) : Prop :=
  raw = none ∨ ∃ s, raw = some (.text s) ∧ ∀ c ∈ s.toList, Text.isBlank c = true

theorem isOpen_iff {raw : Option Literal} : isOpen raw = true ↔ Blank raw := by
  cases raw with
  | none => exact iff_of_true rfl (.inl rfl)
  | some l =>
    cases l with
    | text s => simp [isOpen, Blank, Text.allBlank]
    | int | float | flag => simp [isOpen, Blank]

theorem resolve_of_blank (d : ChainId) {raw : Option Literal} (h : Blank raw) :
    resolve (.ok d) raw = .ok d := by
  cases raw with
  | none => rfl
  | some l => rw [resolve, if_pos (isOpen_iff.mpr h)]

theorem resolve_of_not_blank (d : ChainId) {l : Literal} (h : ¬ Blank (some l)) :
    resolve (.ok d) (some l) = entered l := by
  rw [resolve, if_neg (mt isOpen_iff.mp h)]

theorem not_blank_of_hasValue {s : String} {n : Int} (h : Text.HasValue s n) :
    ¬ Blank (some (.text s)) := by
  rintro (⟨⟨⟩⟩ | ⟨t, ht, hblank⟩)
  cases ht
  have hnil : Text.trimChars s.toList = [] := by
    rw [Text.trimChars, List.dropWhile_eq_nil_iff.mpr hblank]
    rfl
  cases h with
  | plain hne hd hs => exact hne (hs.symm.trans hnil)
  | plus hne hd hs => cases hs.symm.trans hnil
  | minus hne hd hs => cases hs.symm.trans hnil

/-- What names a chain is not blank. -/
theorem not_blank_of_names {l : Literal} {c : ChainId} (h : l.Names c) : ¬ Blank (some l) := by
  cases h with
  | text hvalue => exact not_blank_of_hasValue hvalue
  | int | float => rintro (⟨⟨⟩⟩ | ⟨t, ⟨⟩, -⟩)

/-- What was read and names no chain is reported. -/
theorem entered_eq_faultShowing {l : Literal} {n : Option Int} (hn : enteredInt? l = .ok n)
    (hno : ∀ c, entered l ≠ .ok c) :
    entered l = .error (l.toJson.faultShowing (fun h => .unsupported ⟨l, h⟩) .numeral) := by
  rw [entered, hn] at hno ⊢
  cases hc : n.bind ChainId.ofNumber? with
  | none => simp only [hc]
  | some c => exact absurd (by simp only [hc]) (hno c)

/-- A literal that can be converted names a chain, or it is refused as what it is. -/
theorem entered_eq_error {l : Literal} (h : ¬ l.Overlong) (hno : ∀ c, ¬ l.Names c) :
    ∃ hw, entered l = .error (.unsupported ⟨l, hw⟩) := by
  have hw := Literal.isWritable_toJson_of_not_overlong h
  have hne : ∀ c, entered l ≠ .ok c := fun c hc =>
    hno c ((Literal.denotes_iff_names h).mp (entered_eq_ok.mp hc))
  cases hn : enteredInt? l with
  | ok n =>
    refine ⟨hw, ?_⟩
    rw [entered_eq_faultShowing hn hne, Json.faultShowing, dif_pos hw]
  | error g =>
    -- only a text can be a numeral that is not read, and then it is too long
    cases l with
    | text s =>
      obtain ⟨n, -, hlong, hliteral⟩ := Text.readInteger_eq_error hn
      exact absurd ⟨n, hlong, hliteral⟩ h
    | int | float | flag => cases hn

/-- **A numeral of too many digits** fails as a numeral. -/
theorem resolve_of_overlong (d : ChainId) {s : String} {n : Nat} (h : Text.IsLiteral s n)
    (hn : Text.maxDigits < n) :
    resolve (.ok d) (some (.text s)) = .error (.numeral (.tooLongToRead n)) := by
  obtain ⟨negative, ds, hl, -⟩ := Text.length_of_isLiteral h (Nat.zero_lt_of_lt hn)
  have hblank := not_blank_of_hasValue (Text.hasValue_iff.mpr ⟨negative, ds, hl, rfl⟩)
  rw [resolve_of_not_blank d hblank, entered, enteredInt?, Text.readInteger_of_isLiteral h hn]

/-- **An integer of too many digits** is no chain, and fails as a numeral where it is reported. -/
theorem resolve_of_overlong_int (d : ChainId) {n : Int} (h : (Literal.int n).Overlong) :
    resolve (.ok d) (some (.int n)) = .error (.numeral .tooLongToWrite) := by
  have hne : ∀ c, entered (.int n) ≠ .ok c := by
    intro c hc
    obtain ⟨⟩ := entered_eq_ok.mp hc
    have hshort : ¬ Text.maxDigits < (Text.natChars c.number).length := by cases c <;> decide
    exact hshort h
  have hw : ¬ (Literal.int n).toJson.isWritable = true :=
    Bool.not_eq_true _ ▸ Literal.overlong_int_iff.mp h
  rw [resolve_of_not_blank d (by rintro (⟨⟨⟩⟩ | ⟨s, ⟨⟩, -⟩)), entered_eq_faultShowing rfl hne,
    Json.faultShowing, dif_neg hw]

/-- The text of one and as many ones more. -/
def ones (k : Nat) : String := String.ofList (List.replicate (k + 1) '1')

theorem isDigit_of_mem_ones {k : Nat} : ∀ c ∈ List.replicate k '1', c.isDigit := by
  intro c hc
  rw [List.eq_of_mem_replicate hc]
  rfl

theorem trimChars_ones (k : Nat) :
    Text.trimChars (ones k).toList = List.replicate (k + 1) '1' := by
  have htrim := Text.trimChars_append (List.cons_ne_nil _ _)
    (fun c hc => Text.isBlank_of_isDigit (isDigit_of_mem_ones (k := k + 1) c hc))
    (List.forall_mem_nil _) (List.forall_mem_nil _)
  rw [List.nil_append, List.append_nil] at htrim
  rw [ones, String.toList_ofList]
  exact htrim

theorem isLiteral_ones (k : Nat) : Text.IsLiteral (ones k) (k + 1) :=
  ⟨_, .inl (trimChars_ones k), isDigit_of_mem_ones, List.length_replicate⟩

theorem integerLiteral?_ones (k : Nat) : Text.integerLiteral? (ones k) =
    some (false, Text.charDigits (List.replicate (k + 1) '1')) :=
  Text.integerLiteral?_eq_some.mpr ⟨List.replicate (k + 1) '1', List.cons_ne_nil _ _,
    isDigit_of_mem_ones, rfl, .inl ⟨rfl, trimChars_ones k⟩⟩

theorem hasValue_ones (k : Nat) :
    Text.HasValue (ones k) (Text.ofDigits (Text.charDigits (List.replicate (k + 1) '1'))) :=
  Text.hasValue_iff.mpr ⟨false, _, integerLiteral?_ones k, rfl⟩

/-- The first one alone is worth more than any chain. -/
theorem not_names_ones {k : Nat} (hk : 8 ≤ k) (c : ChainId) :
    ¬ (Literal.text (ones k)).Names c := by
  intro hc
  obtain ⟨negative, ds, hds, hn⟩ : ∃ negative ds, Text.integerLiteral? (ones k) =
      some (negative, ds) ∧ (c.number : Int) = Text.signed negative (Text.ofDigits ds) := by
    cases hc with
    | text h => exact Text.hasValue_iff.mp h
  obtain ⟨rfl, rfl⟩ :=
    Prod.mk.inj (Option.some.inj ((integerLiteral?_ones k).symm.trans hds))
  have hfirst : Text.charDigits (List.replicate (k + 1) '1') =
      1 :: Text.charDigits (List.replicate k '1') := rfl
  have hsmall : c.number < 10 ^ 8 := by cases c <;> decide
  have hlarge : 10 ^ 8 ≤ 10 ^ k := Nat.pow_le_pow_right (by decide) hk
  rw [hfirst, Text.ofDigits_cons, Text.length_charDigits, List.length_replicate] at hn
  simp only [Text.signed, Bool.false_eq_true, if_false] at hn
  omega

/-- What a client is told of a literal that names no chain. -/
def refusal (l : Literal) : Problem where
  category := .chain
  message := "Invalid chain ID '" ++ l.shown ++ "'. Must be one of: 1, 137, 80002, 11155111"
  details := [("chain", .str l.shown),
    ("valid_chains", .arr [.int 1, .int 137, .int 80002, .int 11155111])]

theorem toFailure_unsupported (l : Literal.Writable) :
    (ChainFault.unsupported l).toFailure = .problem (refusal l) := by
  have hlist : "'. Must be one of: " ++ ChainId.numberList =
      "'. Must be one of: 1, 137, 80002, 11155111" := by decide
  rw [ChainFault.toFailure, ChainFault.unsupportedProblem, String.append_assoc, hlist]
  rfl

/-- **What a chain slot stands for.** Unless its literal is a numeral that is too long, it is the
default one exactly if nothing was entered, the chain that was named exactly if one was, and else it
is refused with a list of the supported chains. A text that is a numeral of too many digits fails as
a numeral, whatever it spells, and so does an integer of too many digits. -/
theorem resolve_outcome (d : ChainId) (raw : Option Literal) :
    ((∀ l, raw = some l → ¬ l.Overlong) →
      (∀ c, resolve (.ok d) raw = .ok c ↔ Blank raw ∧ c = d ∨ ∃ l, raw = some l ∧ l.Names c) ∧
      ∀ f, resolve (.ok d) raw = .error f ↔ ¬ Blank raw ∧ ∃ l, raw = some l ∧
        (∀ c, ¬ l.Names c) ∧ ∃ hw, f = .unsupported ⟨l, hw⟩ ∧ f.toFailure = .problem (refusal l)) ∧
    (∀ s n, raw = some (.text s) → Text.IsLiteral s n → Text.maxDigits < n →
      ∃ f, resolve (.ok d) raw = .error f ∧
        f.toFailure = .breakdown .value (NumeralFault.tooLongToRead n).message) ∧
    ∀ n, raw = some (.int n) → (Literal.int n).Overlong →
      ∃ f, resolve (.ok d) raw = .error f ∧
        f.toFailure = .breakdown .value NumeralFault.tooLongToWrite.message := by
  refine ⟨fun hshort => ?_, ?_, ?_⟩
  · by_cases hblank : Blank raw
    · have hnames : ∀ c, ¬ ∃ l, raw = some l ∧ l.Names c := by
        rintro c ⟨l, rfl, hl⟩
        exact not_blank_of_names hl hblank
      rw [resolve_of_blank d hblank]
      exact ⟨fun c => by simp [hblank, hnames, eq_comm], fun f => by simp [hblank]⟩
    · obtain ⟨l, rfl⟩ : ∃ l, raw = some l :=
        Option.ne_none_iff_exists'.mp fun hnone => hblank (.inl hnone)
      have hl := hshort l rfl
      rw [resolve_of_not_blank d hblank]
      refine ⟨fun c => ?_, fun f => ⟨fun hf => ?_, ?_⟩⟩
      · rw [entered_eq_ok, Literal.denotes_iff_names hl]
        simp [hblank]
      · have hno : ∀ c, ¬ l.Names c := by
          intro c hc
          rw [entered_eq_ok.mpr ((Literal.denotes_iff_names hl).mpr hc)] at hf
          cases hf
        obtain ⟨hw, he⟩ := entered_eq_error hl hno
        obtain rfl := Except.error.inj (he.symm.trans hf)
        exact ⟨hblank, l, rfl, hno, hw, rfl, toFailure_unsupported ⟨l, hw⟩⟩
      · rintro ⟨-, k, hk, hno, hw, rfl, -⟩
        cases hk
        exact (entered_eq_error hl hno).choose_spec
  · rintro s n rfl hliteral hlong
    exact ⟨_, resolve_of_overlong d hliteral hlong, rfl⟩
  · rintro n rfl hlong
    exact ⟨_, resolve_of_overlong_int d hlong, rfl⟩

/-- A chain with a sign, zeros and blanks around it is named; a truth value is refused; and one digit
too many is a failure of another kind. -/
theorem resolve_outcome_padded :
    resolve (.ok .sepolia) (some (.text " +00137\t")) = .ok .polygon ∧
    resolve (.ok .sepolia) (some (.flag true)) = .error (.unsupported ⟨.flag true, rfl⟩) ∧
    ∃ f, resolve (.ok .sepolia) (some (.text (ones Text.maxDigits))) = .error f ∧
      f.toFailure = .breakdown .value
        (NumeralFault.tooLongToRead (Text.maxDigits + 1)).message := by
  have hliteral : Text.integerLiteral? " +00137\t" = some (false, [0, 0, 1, 3, 7]) := by decide
  have hvalue : Text.HasValue " +00137\t" 137 :=
    Text.hasValue_iff.mpr ⟨false, _, hliteral, by decide⟩
  have hshort : ¬ (Literal.text " +00137\t").Overlong := by
    rintro ⟨n, hn, h⟩
    obtain ⟨negative, ds, hds, rfl⟩ := Text.length_of_isLiteral h (Nat.zero_lt_of_lt hn)
    cases hliteral.symm.trans hds
    exact absurd hn (by decide)
  refine ⟨?_, ?_, (resolve_outcome .sepolia _).2.1 (ones Text.maxDigits) _ rfl (isLiteral_ones _)
    (Nat.lt_succ_self _)⟩
  · refine (((resolve_outcome .sepolia _).1 ?_).1 .polygon).mpr (.inr ⟨_, rfl, .text hvalue⟩)
    rintro l ⟨⟩
    exact hshort
  · refine (((resolve_outcome .sepolia _).1 ?_).2 _).mpr
      ⟨by rintro (⟨⟨⟩⟩ | ⟨t, ⟨⟩, -⟩), _, rfl, by rintro c ⟨⟩, rfl, rfl, toFailure_unsupported _⟩
    rintro l ⟨⟩
    exact id

/-- A numeral of too many digits is not blank and names no chain, but it is not refused as what names
no chain. -/
theorem resolve_breaks_down_on_long_text :
    ¬ Blank (some (.text (ones Text.maxDigits))) ∧
    (∀ c, ¬ (Literal.text (ones Text.maxDigits)).Names c) ∧
    ∃ f, resolve (.ok .sepolia) (some (.text (ones Text.maxDigits))) = .error f ∧
      ∀ p, f.toFailure ≠ .problem p :=
  ⟨not_blank_of_hasValue (hasValue_ones _), not_names_ones (by decide), _,
    resolve_of_overlong .sepolia (isLiteral_ones _) (Nat.lt_succ_self _), fun _ h => by cases h⟩

end Chain

end AccessTree
