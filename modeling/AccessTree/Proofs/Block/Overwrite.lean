import AccessTree.Proofs.Block.Graft

/-! # Many fields at once

A `Slot.Patch` says what is written to the value and to the comparator of a slot, if anything. With a
patch for each slot that a path and an id address, `overwrite` writes all of them to a tree at once.
The ids of slots need not be distinct, and only the first slot of an id is addressed; the others, and
all that is connected to them, stay as they are.

Nothing but the two fields changes, so a path leads to the block that it led to before, or leaves the
tree where it left it before (`resolve_overwrite`). What is written later replaces what
was written before (`overwrite_overwrite`), and a single write at the end of a path is an overwriting
with one patch (`replaceAt_modifySlot_write`). -/

namespace AccessTree

namespace Slot

/-- What is written to the fields of a slot. -/
structure Patch where
  value : Option (Option Literal) := none
  comparator : Option Comparator := none

namespace Patch

/-- The slot with the fields that are written. -/
def write (p : Patch) (s : Slot) : Slot :=
  { s with value := p.value.getD s.value, comparator := p.comparator.or s.comparator }

/-- What two patches write one after the other. -/
def andThen (p q : Patch) : Patch := ⟨q.value.or p.value, q.comparator.or p.comparator⟩

theorem write_none (s : Slot) : ({} : Patch).write s = s := by
  cases s
  rfl

theorem write_write (p q : Patch) (s : Slot) : q.write (p.write s) = (p.andThen q).write s := by
  obtain ⟨_ | v, _ | c⟩ := q <;> rfl

end Patch

end Slot

/-- A patch for each slot that a path and an id address. -/
abbrev Writes := Path → String → Slot.Patch

namespace Writes

/-- Nothing is written. -/
def none : Writes := fun _ _ => {}

/-- What is written to the slot of an id on the block at the end of a path. -/
def single (path : Path) (slot : String) (p : Slot.Patch) : Writes :=
  fun q id => if q = path ∧ id = slot then p else {}

/-- The patches for what is connected to the slot of an id. -/
def below (w : Writes) (slot : String) : Writes := fun path => w (slot :: path)

/-- What is written one after the other. -/
def andThen (w v : Writes) : Writes := fun path slot => (w path slot).andThen (v path slot)

end Writes

namespace Block

mutual
/-- **The tree with fields of its slots overwritten.** -/
def overwrite (w : Writes) : Block → Block
  | ⟨id, kind, category, label, properties, slots, value, isTemplate⟩ =>
    ⟨id, kind, category, label, properties, overwriteSlots w [] slots, value, isTemplate⟩

/-- The slots of a block with their fields overwritten; a slot whose id was seen before is not
addressed. -/
def overwriteSlots (w : Writes) (seen : List String) : List Slot → List Slot
  | [] => []
  | ⟨id, accepts, label, value, comparator, inputType, none⟩ :: rest =>
    (if id ∈ seen then ⟨id, accepts, label, value, comparator, inputType, none⟩
      else (w [] id).write ⟨id, accepts, label, value, comparator, inputType, none⟩) ::
      overwriteSlots w (id :: seen) rest
  | ⟨id, accepts, label, value, comparator, inputType, some b⟩ :: rest =>
    (if id ∈ seen then ⟨id, accepts, label, value, comparator, inputType, some b⟩
      else (w [] id).write
        ⟨id, accepts, label, value, comparator, inputType, some (overwrite (w.below id) b)⟩) ::
      overwriteSlots w (id :: seen) rest
end

end Block

/-- An addressed slot with its fields and those below it overwritten. -/
def Slot.overwrite (w : Writes) (s : Slot) : Slot :=
  (w [] s.id).write { s with connected := s.connected.map (Block.overwrite (w.below s.id)) }

namespace Block

variable {w : Writes}

theorem overwriteSlots_cons (w : Writes) (seen : List String) (s : Slot) (rest : List Slot) :
    overwriteSlots w seen (s :: rest) =
      (if s.id ∈ seen then s else s.overwrite w) :: overwriteSlots w (s.id :: seen) rest := by
  obtain ⟨id, accepts, label, value, comparator, inputType, _ | b⟩ := s
  · rw [overwriteSlots]
    rfl
  · rw [overwriteSlots]
    rfl

theorem overwrite_eq (w : Writes) (b : Block) :
    b.overwrite w = { b with slots := overwriteSlots w [] b.slots } := by
  cases b
  rw [overwrite]

theorem overwrite_id (w : Writes) (b : Block) : (b.overwrite w).id = b.id := by rw [overwrite_eq]

/-! ### Slots and paths -/

theorem map_id_overwriteSlots (w : Writes) (seen : List String) (slots : List Slot) :
    (overwriteSlots w seen slots).map Slot.id = slots.map Slot.id := by
  induction slots generalizing seen with
  | nil => rw [overwriteSlots]
  | cons s rest ih =>
    rw [overwriteSlots_cons, List.map_cons, List.map_cons, ih]
    split <;> rfl

theorem find?_overwriteSlots {seen : List String} {id : String} (h : id ∉ seen)
    (slots : List Slot) : (overwriteSlots w seen slots).find? (fun s => s.id = id) =
      (slots.find? fun s => s.id = id).map (Slot.overwrite w) := by
  induction slots generalizing seen with
  | nil => rw [overwriteSlots]; rfl
  | cons s rest ih =>
    rw [overwriteSlots_cons]
    by_cases hid : s.id = id
    · have hseen : s.id ∉ seen := hid ▸ h
      have hnew : (s.overwrite w).id = id := hid
      rw [if_neg hseen, List.find?_cons_of_pos (by simpa using hnew),
        List.find?_cons_of_pos (by simpa using hid), Option.map_some]
    · have hne : (if s.id ∈ seen then s else s.overwrite w).id ≠ id := by split <;> exact hid
      rw [List.find?_cons_of_neg (by simpa using hne), List.find?_cons_of_neg (by simpa using hid)]
      exact ih (by simpa [h] using fun heq => hid heq.symm)

/-- **The first slot of an id** is overwritten. -/
theorem slot?_overwrite (w : Writes) (b : Block) (id : String) :
    (b.overwrite w).slot? id = (b.slot? id).map (Slot.overwrite w) := by
  rw [overwrite_eq]
  exact find?_overwriteSlots List.not_mem_nil b.slots

theorem child?_overwrite (w : Writes) (b : Block) (id : String) :
    (b.overwrite w).child? id = (b.child? id).map (overwrite (w.below id)) := by
  rw [child?, slot?_overwrite, child?]
  cases hs : b.slot? id with
  | none => rfl
  | some s =>
    obtain ⟨rfl, -⟩ := slot?_split hs
    rfl

/-- **A path leads to the block that it led to**, or leaves the tree where it left it. -/
theorem resolveFrom_overwrite (path : Path) (depth : Nat) (b : Block) (rest : Path) :
    ∀ w : Writes, resolveFrom path depth (b.overwrite w) rest =
      (resolveFrom path depth b rest).map (overwrite fun p => w (rest ++ p)) := by
  induction rest generalizing depth b with
  | nil => exact fun w => rfl
  | cons slot rest ih =>
    intro w
    rw [resolveFrom, child?_overwrite, resolveFrom]
    cases b.child? slot with
    | none => rw [Option.map_none, overwrite_id]; rfl
    | some c => exact ih (depth + 1) c (w.below slot)

theorem resolve_overwrite (w : Writes) (root : Block) (path : Path) :
    (root.overwrite w).resolve path = (root.resolve path).map (overwrite fun p => w (path ++ p)) :=
  resolveFrom_overwrite path 0 root path w

/-! ### One overwriting after the other -/

theorem overwriteSlots_overwriteSlots {w v : Writes} {slots : List Slot}
    (h : ∀ s ∈ slots, (s.overwrite w).overwrite v = s.overwrite (w.andThen v))
    (seen : List String) : overwriteSlots v seen (overwriteSlots w seen slots) =
      overwriteSlots (w.andThen v) seen slots := by
  induction slots generalizing seen with
  | nil => rw [overwriteSlots, overwriteSlots, overwriteSlots]
  | cons s rest ih =>
    have hid : (if s.id ∈ seen then s else s.overwrite w).id = s.id := by split <;> rfl
    rw [overwriteSlots_cons, overwriteSlots_cons, overwriteSlots_cons, hid,
      ih fun t ht => h t (List.mem_cons_of_mem s ht)]
    congr 1
    by_cases hs : s.id ∈ seen
    · rw [if_pos hs, if_pos hs, if_pos hs]
    · rw [if_neg hs, if_neg hs, if_neg hs, h s List.mem_cons_self]

/-- **What is written later counts.** -/
theorem overwrite_overwrite (b : Block) :
    ∀ w v : Writes, (b.overwrite w).overwrite v = b.overwrite (w.andThen v) := by
  induction b using Block.induction with
  | step b ih =>
    intro w v
    have hslot : ∀ s ∈ b.slots, (s.overwrite w).overwrite v = s.overwrite (w.andThen v) := by
      intro s hs
      have hbelow : (s.connected.map (overwrite (w.below s.id))).map (overwrite (v.below s.id)) =
          s.connected.map (overwrite ((w.andThen v).below s.id)) := by
        cases hc : s.connected with
        | none => rfl
        | some c => exact congrArg some (ih s hs c hc _ _)
      have hboth : (s.overwrite w).overwrite v = (v [] s.id).write ((w [] s.id).write { s with
          connected := (s.connected.map (overwrite (w.below s.id))).map
            (overwrite (v.below s.id)) }) := rfl
      rw [hboth, Slot.Patch.write_write, hbelow]
      rfl
    rw [overwrite_eq, overwrite_eq, overwrite_eq, overwriteSlots_overwriteSlots hslot]

/-! ### Single writes -/

/-- Slots to which nothing is written, or whose ids were seen, stay as they are. -/
theorem overwriteSlots_eq_self {w : Writes} {seen : List String} {slots : List Slot}
    (h : ∀ s ∈ slots, s.id ∉ seen → s.overwrite w = s) : overwriteSlots w seen slots = slots := by
  induction slots generalizing seen with
  | nil => rw [overwriteSlots]
  | cons s rest ih =>
    rw [overwriteSlots_cons, ih fun t ht hseen => h t (List.mem_cons_of_mem s ht)
      fun hmem => hseen (List.mem_cons_of_mem s.id hmem)]
    split
    · rfl
    · next hs => rw [h s List.mem_cons_self hs]

theorem overwrite_none (b : Block) : b.overwrite .none = b := by
  induction b using Block.induction with
  | step b ih =>
    have hslot : ∀ s ∈ b.slots, s.overwrite .none = s := by
      intro s hs
      have hbelow : s.connected.map (overwrite .none) = s.connected := by
        cases hc : s.connected with
        | none => rfl
        | some c => exact congrArg some (ih s hs c hc)
      have hnone : s.overwrite .none = ({} : Slot.Patch).write { s with
          connected := s.connected.map (overwrite .none) } := rfl
      rw [hnone, hbelow, Slot.Patch.write_none]
      cases s
      rfl
    rw [overwrite_eq, overwriteSlots_eq_self fun s hs _ => hslot s hs]
    cases b
    rfl

/-- If something is written to one slot or below it only, that slot is modified. -/
theorem overwriteSlots_eq_modifyFirst {w : Writes} {slot : String}
    (h : ∀ s : Slot, s.id ≠ slot → s.overwrite w = s) {seen : List String} (hseen : slot ∉ seen)
    (slots : List Slot) :
    overwriteSlots w seen slots = Slot.modifyFirst slot (Slot.overwrite w) slots := by
  induction slots generalizing seen with
  | nil => rw [overwriteSlots, Slot.modifyFirst]
  | cons s rest ih =>
    rw [overwriteSlots_cons, Slot.modifyFirst]
    by_cases hs : s.id = slot
    · have hrest : overwriteSlots w (s.id :: seen) rest = rest := by
        refine overwriteSlots_eq_self fun t _ ht => h t fun htid => ht ?_
        rw [htid, hs]
        exact List.mem_cons_self
      rw [if_pos hs, if_neg (hs ▸ hseen), hrest]
    · rw [if_neg hs, ih (by simpa [hseen] using fun heq => hs heq.symm), h s hs, ite_self]

theorem overwrite_eq_modifySlot {w : Writes} {slot : String}
    (h : ∀ s : Slot, s.id ≠ slot → s.overwrite w = s) (b : Block) :
    b.overwrite w = b.modifySlot slot (Slot.overwrite w) := by
  rw [overwrite_eq, overwriteSlots_eq_modifyFirst h List.not_mem_nil, modifySlot]

end Block

/-- Where nothing is written below a slot, its fields are written only. -/
theorem Slot.overwrite_of_below {w : Writes} {s : Slot} (h : w.below s.id = .none) :
    s.overwrite w = (w [] s.id).write s := by
  have hbelow : s.connected.map (Block.overwrite .none) = s.connected := by
    cases s.connected with
    | none => rfl
    | some c => exact congrArg some c.overwrite_none
  rw [overwrite, h, hbelow]
  cases s
  rfl

namespace Writes

variable (slot : String) (p : Slot.Patch)

theorem below_single_nil (id : String) : (single [] slot p).below id = .none := by
  funext path other
  simp [below, single, none]

theorem single_cons_nil (id other : String) (rest : Path) :
    single (id :: rest) slot p [] other = {} := by
  simp [single]

theorem below_single_cons (id : String) (rest : Path) :
    (single (id :: rest) slot p).below id = single rest slot p := by
  funext path other
  simp [below, single]

theorem below_single_cons_of_ne {id other : String} (h : other ≠ id) (rest : Path) :
    (single (id :: rest) slot p).below other = .none := by
  funext path name
  simp [below, single, none, h]

end Writes

namespace Block

/-- Only the first slot of an id is modified. -/
theorem modifySlot_congr {b : Block} {id : String} {s : Slot} (h : b.slot? id = some s)
    {f g : Slot → Slot} (hfg : f s = g s) : b.modifySlot id f = b.modifySlot id g := by
  obtain ⟨-, pre, post, -, hmodify⟩ := slot?_split h
  rw [hmodify, hmodify, hfg]

/-- **A write at the end of a path** is an overwriting with one patch. -/
theorem replaceAt_modifySlot_write {root owner : Block} {path : Path}
    (h : root.at? path = some owner) {slot : String} {s : Slot} (hs : owner.slot? slot = some s)
    (p : Slot.Patch) : root.replaceAt path (owner.modifySlot slot p.write) =
      root.overwrite (.single path slot p) := by
  induction path generalizing root with
  | nil =>
    obtain rfl := Option.some.inj h
    have hother : ∀ t : Slot, t.id ≠ slot → t.overwrite (.single [] slot p) = t := by
      intro t ht
      rw [Slot.overwrite_of_below (Writes.below_single_nil slot p t.id), Writes.single,
        if_neg fun heq => ht heq.2, Slot.Patch.write_none]
    rw [replaceAt, overwrite_eq_modifySlot hother]
    refine modifySlot_congr hs ?_
    rw [Slot.overwrite_of_below (Writes.below_single_nil slot p s.id), Writes.single,
      if_pos ⟨rfl, (slot?_split hs).1⟩]
  | cons id rest ih =>
    obtain ⟨t, d, ht, hd, hc⟩ := at?_cons h
    have hother : ∀ u : Slot, u.id ≠ id → u.overwrite (.single (id :: rest) slot p) = u := by
      intro u hu
      rw [Slot.overwrite_of_below (Writes.below_single_cons_of_ne slot p hu rest),
        Writes.single_cons_nil, Slot.Patch.write_none]
    rw [replaceAt_cons_eq, overwrite_eq_modifySlot hother]
    refine modifySlot_congr ht ?_
    rw [Slot.replaceAt, Slot.overwrite, Writes.single_cons_nil, Slot.Patch.write_none,
      (slot?_split ht).1, Writes.below_single_cons, hd, Option.map_some, Option.map_some, ih hc]

end Block

end AccessTree
