import AccessTree.Edit.Fault
import AccessTree.Proofs.Block.Graft
import Mathlib.Data.Set.Function
import Mathlib.Order.Bounds.Basic

/-! # Paths as addresses

The blocks of a tree are addressed in two ways: by the place at which the walk `nested` comes to
them, and by the path that leads to them. `Block.position` tells the place from the path: first
comes the block that owns the slot taken, then all that is connected to the slots before that one,
then what comes before the rest of the path in the connected block.

* `getElem?_position`: the block at the end of a path stands at the position of the path.
* `position_injective`: two paths that lead to blocks have different positions, since of two slots
  all that is connected to the one comes before all that is connected to the other
  (`visitsBefore_apart`).
* `exists_position_eq`: if the slots of each block have distinct ids, some path leads to each block
  that the walk comes to. Otherwise a slot may be hidden behind another one of its id.

A path that leads to no block has a front that does, at whose end nothing is connected to the next
slot (`exists_front`). There it leaves the tree (`resolve_of_front`), and no longer front leads to a
block (`isGreatest_length`). -/

namespace AccessTree

namespace Slot

/-- The number of blocks below the slots that stand before the one of an id. -/
def visitsBefore (id : String) : List Slot → Nat
  | [] => 0
  | s :: rest => if s.id = id then 0 else s.blocks.length + visitsBefore id rest

theorem visitsBefore_cons_of_eq {s : Slot} {id : String} (h : s.id = id) (rest : List Slot) :
    visitsBefore id (s :: rest) = 0 := by
  rw [visitsBefore, if_pos h]

theorem visitsBefore_cons_of_ne {s : Slot} {id : String} (h : s.id ≠ id) (rest : List Slot) :
    visitsBefore id (s :: rest) = s.blocks.length + visitsBefore id rest := by
  rw [visitsBefore, if_neg h]

end Slot

namespace Block

/-- **The position of a path**: how many blocks the walk comes to before the one at the end of the
path. -/
def position : Block → Path → Nat
  | _, [] => 0
  | b, slot :: rest =>
    match b.child? slot with
    | none => 0
    | some c => 1 + Slot.visitsBefore slot b.slots + c.position rest

/-- The lengths of the fronts of a path that lead to blocks. -/
def frontLengths (root : Block) (path : Path) : Set Nat :=
  {n | ∃ front, front <+: path ∧ (∃ b, root.resolve front = .ok b) ∧ front.length = n}

theorem position_cons {b c : Block} {slot : String} {s : Slot} (hs : b.slot? slot = some s)
    (hc : s.connected = some c) (rest : Path) :
    b.position (slot :: rest) = 1 + Slot.visitsBefore slot b.slots + c.position rest := by
  rw [position, child?_of_slot? hs hc]

/-! ### The slots of a block -/

/-- The slot that is found is the first one of the list, or found in the rest. -/
theorem find?_cons_cases {t s : Slot} {rest : List Slot} {id : String}
    (h : (t :: rest).find? (fun s => s.id = id) = some s) :
    (t.id = id ∧ t = s) ∨ (t.id ≠ id ∧ rest.find? (fun s => s.id = id) = some s) := by
  by_cases ht : t.id = id
  · exact Or.inl ⟨ht, by simpa [ht] using h⟩
  · exact Or.inr ⟨ht, by simpa [ht] using h⟩

/-- **The blocks below a slot** stand together, after those below the slots before it. -/
theorem getElem?_visitsBefore {slots : List Slot} {id : String} {s : Slot} {c : Block}
    (hs : slots.find? (fun s => s.id = id) = some s) (hc : s.connected = some c) {i : Nat}
    (hi : i < c.nested.length) :
    (nestedSlots slots)[Slot.visitsBefore id slots + i]? = c.nested[i]? := by
  induction slots with
  | nil => simp at hs
  | cons t rest ih =>
    rw [nestedSlots_cons]
    rcases find?_cons_cases hs with ⟨ht, rfl⟩ | ⟨ht, hs⟩
    · rw [Slot.visitsBefore_cons_of_eq ht, Nat.zero_add, Slot.blocks_of_some hc,
        List.getElem?_append_left hi]
    · have hindex : t.blocks.length + Slot.visitsBefore id rest + i - t.blocks.length =
          Slot.visitsBefore id rest + i := by omega
      rw [Slot.visitsBefore_cons_of_ne ht, List.getElem?_append_right (by omega), hindex, ih hs]

/-- **Of two slots, all blocks below the one come before those below the other.** -/
theorem visitsBefore_apart {slots : List Slot} {x y : String} (hxy : x ≠ y) {s t : Slot}
    {c d : Block} (hs : slots.find? (fun s => s.id = x) = some s) (hc : s.connected = some c)
    (ht : slots.find? (fun s => s.id = y) = some t) (hd : t.connected = some d) :
    Slot.visitsBefore x slots + c.nested.length ≤ Slot.visitsBefore y slots ∨
      Slot.visitsBefore y slots + d.nested.length ≤ Slot.visitsBefore x slots := by
  induction slots with
  | nil => simp at hs
  | cons u rest ih =>
    rcases find?_cons_cases hs with ⟨hux, rfl⟩ | ⟨hux, hs⟩
    · left
      have huy : u.id ≠ y := fun h => hxy (hux.symm.trans h)
      rw [Slot.visitsBefore_cons_of_eq hux, Slot.visitsBefore_cons_of_ne huy,
        Slot.blocks_of_some hc]
      omega
    · rcases find?_cons_cases ht with ⟨huy, rfl⟩ | ⟨huy, ht⟩
      · right
        rw [Slot.visitsBefore_cons_of_eq huy, Slot.visitsBefore_cons_of_ne hux,
          Slot.blocks_of_some hd]
        omega
      · rw [Slot.visitsBefore_cons_of_ne hux, Slot.visitsBefore_cons_of_ne huy]
        have := ih hs ht
        omega

/-- **Every block below slots with distinct ids** is below a slot that is found by its id. -/
theorem exists_visitsBefore_eq {slots : List Slot} (hd : (slots.map Slot.id).Nodup) {i : Nat}
    (hi : i < (nestedSlots slots).length) :
    ∃ s ∈ slots, ∃ c, slots.find? (fun t => t.id = s.id) = some s ∧ s.connected = some c ∧
      ∃ j < c.nested.length, i = Slot.visitsBefore s.id slots + j := by
  induction slots generalizing i with
  | nil => simp [nestedSlots] at hi
  | cons t rest ih =>
    rw [nestedSlots_cons, List.length_append] at hi
    rw [List.map_cons, List.nodup_cons] at hd
    by_cases hit : i < t.blocks.length
    · cases hc : t.connected with
      | none => simp [Slot.blocks_of_none hc] at hit
      | some c =>
        rw [Slot.blocks_of_some hc] at hit
        refine ⟨t, List.mem_cons_self, c, by simp, hc, i, hit, ?_⟩
        rw [Slot.visitsBefore_cons_of_eq rfl, Nat.zero_add]
    · obtain ⟨s, hs, c, hfind, hc, j, hj, hij⟩ :=
        ih hd.2 (i := i - t.blocks.length) (by omega)
      have hts : t.id ≠ s.id := fun h => hd.1 (h ▸ List.mem_map_of_mem hs)
      refine ⟨s, List.mem_cons_of_mem t hs, c, by simpa [hts] using hfind, hc, j, hj, ?_⟩
      rw [Slot.visitsBefore_cons_of_ne hts]
      omega

/-! ### The positions of paths -/

/-- **The block at the end of a path** is the one that the walk comes to at its position. -/
theorem getElem?_position {root c : Block} {path : Path} (h : root.at? path = some c) :
    root.nested[root.position path]? = some c := by
  induction path generalizing root with
  | nil =>
    rw [at?] at h
    rw [position, nested_eq, List.getElem?_cons_zero, h]
  | cons slot rest ih =>
    obtain ⟨s, d, hs, hd, hc⟩ := at?_cons h
    have hposition : d.nested[d.position rest]? = some c := ih hc
    have hlt : d.position rest < d.nested.length := (List.getElem?_eq_some_iff.mp hposition).1
    have hindex : 1 + Slot.visitsBefore slot root.slots + d.position rest =
        Slot.visitsBefore slot root.slots + d.position rest + 1 := by omega
    rw [position_cons hs hd, hindex, nested_eq, List.getElem?_cons_succ,
      getElem?_visitsBefore hs hd hlt, hposition]

theorem position_lt {root c : Block} {path : Path} (h : root.at? path = some c) :
    root.position path < root.nested.length :=
  (List.getElem?_eq_some_iff.mp (getElem?_position h)).1

/-- **No two paths have the same position**, if they lead to blocks. -/
theorem position_injective {root c d : Block} {p q : Path} (hp : root.at? p = some c)
    (hq : root.at? q = some d) (h : root.position p = root.position q) : p = q := by
  induction p generalizing root q with
  | nil =>
    cases q with
    | nil => rfl
    | cons y q =>
      obtain ⟨t, e, ht, he, -⟩ := at?_cons hq
      rw [position_cons ht he, position] at h
      omega
  | cons x p ih =>
    obtain ⟨s, a, hs, ha, hp⟩ := at?_cons hp
    rw [position_cons hs ha] at h
    cases q with
    | nil =>
      rw [position] at h
      omega
    | cons y q =>
      obtain ⟨t, e, ht, he, hq⟩ := at?_cons hq
      rw [position_cons ht he] at h
      by_cases hxy : x = y
      · subst hxy
        obtain rfl : s = t := Option.some.inj (hs.symm.trans ht)
        obtain rfl : a = e := Option.some.inj (ha.symm.trans he)
        rw [ih hp hq (by omega)]
      · -- the positions lie on different sides of where the blocks below one slot end
        have hpa : a.position p < a.nested.length := position_lt hp
        have hqe : e.position q < e.nested.length := position_lt hq
        rcases visitsBefore_apart hxy hs ha ht he with hle | hle <;> omega

/-- **Every position is that of a path**, if no block has two slots of one id. -/
theorem exists_position_eq {root : Block} (hd : ∀ b ∈ root.nested, (b.slots.map Slot.id).Nodup) :
    ∀ {i}, i < root.nested.length → ∃ path c, root.at? path = some c ∧ root.position path = i := by
  induction root using Block.induction with
  | step root ih =>
    intro i hi
    cases i with
    | zero => exact ⟨[], root, rfl, rfl⟩
    | succ i =>
      rw [nested_eq, List.length_cons] at hi
      obtain ⟨s, hs, c, hfind, hc, j, hj, hij⟩ :=
        exists_visitsBefore_eq (hd root (self_mem_nested root)) (Nat.lt_of_succ_lt_succ hi)
      have hbelow : ∀ b ∈ c.nested, (b.slots.map Slot.id).Nodup :=
        fun b hb => hd b (mem_nested_of_connected hs hc hb)
      obtain ⟨rest, e, he, hrest⟩ := ih s hs c hc hbelow hj
      refine ⟨s.id :: rest, e, ?_, ?_⟩
      · rw [at?_cons_of_slot? hfind hc, he]
      · rw [position_cons hfind hc, hrest, hij]
        omega

/-! ### Where a path leaves a tree -/

/-- A path that leads to no block has a front that leads to one, and nothing is connected to that
block at the next slot. -/
theorem exists_front {b : Block} {path : Path} (h : b.at? path = none) :
    ∃ front slot after c,
      path = front ++ slot :: after ∧ b.at? front = some c ∧ c.child? slot = none := by
  induction path generalizing b with
  | nil => cases h
  | cons slot rest ih =>
    cases hslot : b.child? slot with
    | none => exact ⟨[], slot, rest, b, rfl, rfl, hslot⟩
    | some d =>
      rw [at?, hslot, Option.bind_some] at h
      obtain ⟨front, next, after, c, rfl, hc, hnext⟩ := ih h
      refine ⟨slot :: front, next, after, c, rfl, ?_, hnext⟩
      rw [at?, hslot, Option.bind_some, hc]

theorem resolveFrom_append {b c : Block} {front : Path} (h : b.at? front = some c) (path : Path)
    (depth : Nat) (rest : Path) :
    resolveFrom path depth b (front ++ rest) =
      resolveFrom path (depth + front.length) c rest := by
  induction front generalizing b depth with
  | nil => rw [Option.some.inj h, List.nil_append, List.length_nil, Nat.add_zero]
  | cons slot front ih =>
    obtain ⟨s, d, hs, hd, hc⟩ := at?_cons h
    rw [List.cons_append, resolveFrom, child?_of_slot? hs hd, List.length_cons,
      Nat.add_comm front.length, ← Nat.add_assoc]
    exact ih hc (depth + 1)

section Leaves

variable {root c : Block} {front : Path} {slot : String} (hc : root.at? front = some c)
  (hslot : c.child? slot = none) (after : Path)
include hc hslot

/-- **Where a path leaves a tree.** -/
theorem resolve_of_front : root.resolve (front ++ slot :: after) =
    .error ⟨front ++ slot :: after, front.length, slot, c.id⟩ := by
  rw [resolve, resolveFrom_append hc, resolveFrom, hslot, Nat.zero_add]

/-- **No longer front** of the path leads to a block. -/
theorem isGreatest_length :
    IsGreatest (root.frontLengths (front ++ slot :: after)) front.length := by
  constructor
  · exact ⟨front, List.prefix_append front _, ⟨c, resolve_eq_ok.mpr hc⟩, rfl⟩
  · rintro n ⟨other, hother, ⟨b, hb⟩, rfl⟩
    by_contra hlonger
    -- a longer front goes through the slot to which nothing is connected
    have hstep : front ++ [slot] <+: front ++ slot :: after :=
      ⟨after, by rw [List.append_assoc, List.singleton_append]⟩
    have hlength : (front ++ [slot]).length ≤ other.length := by
      rw [List.length_append, List.length_singleton]
      omega
    obtain ⟨rest, rfl⟩ := List.prefix_of_prefix_length_le hstep hother hlength
    rw [resolve_eq_ok, List.append_assoc, at?_append, hc, Option.bind_some, List.singleton_append,
      at?, hslot] at hb
    cases hb

end Leaves

/-! ### Addresses -/

/-- **Paths address every block exactly once.** If the slots of each block have distinct ids, the
paths that lead to blocks and the positions of the walk correspond one to one, and each path leads
to the block at its position. Every other path is not found, and the depth in the details is the
length of its longest front that leads to a block. -/
theorem paths_address_blocks {root : Block}
    (hd : ∀ b ∈ root.nested, (b.slots.map Slot.id).Nodup) :
    Set.BijOn root.position {path | ∃ b, root.resolve path = .ok b} {i | i < root.nested.length} ∧
    (∀ path b, root.resolve path = .ok b → root.nested[root.position path]? = some b) ∧
    ∀ path, (¬ ∃ b, root.resolve path = .ok b) → ∃ fault problem depth,
      root.resolve path = .error fault ∧ (EditFault.noBlock fault).toFailure = .problem problem ∧
      problem.category = .notFound ∧ Json.valueAt problem.details "depth" = .nat depth ∧
      IsGreatest (root.frontLengths path) depth := by
  refine ⟨⟨?_, ?_, ?_⟩, fun path b h => getElem?_position (resolve_eq_ok.mp h), ?_⟩
  · rintro path ⟨b, hb⟩
    exact position_lt (resolve_eq_ok.mp hb)
  · rintro p ⟨b, hb⟩ q ⟨c, hc⟩ h
    exact position_injective (resolve_eq_ok.mp hb) (resolve_eq_ok.mp hc) h
  · intro i hi
    obtain ⟨path, b, hb, hposition⟩ := exists_position_eq hd hi
    exact ⟨path, ⟨b, resolve_eq_ok.mpr hb⟩, hposition⟩
  · intro path hpath
    have hnone : root.at? path = none :=
      Option.eq_none_iff_forall_ne_some.mpr fun b hb => hpath ⟨b, resolve_eq_ok.mpr hb⟩
    obtain ⟨front, slot, after, c, rfl, hc, hslot⟩ := exists_front hnone
    exact ⟨_, _, front.length, resolve_of_front hc hslot after, rfl, rfl, rfl,
      isGreatest_length hc hslot after⟩

/-- An operator with the same block in two of its three slots. -/
def twins : Block :=
  let time : Block := ⟨"time", .condition, "", "", [("conditionType", .str "time")],
    [⟨"chain", [.value], "", none, none, none, none⟩], none, false⟩
  ⟨"or", .operator, "", "", [("operator", .str "or")],
    [⟨"left", [], "", none, none, none, some time⟩, ⟨"next", [], "", none, none, none, none⟩,
      ⟨"right", [], "", none, none, none, some time⟩], none, false⟩

/-- One path leads to each of two blocks that do not differ at all, and none leads past an empty
slot. -/
theorem paths_address_blocks_twins :
    (∀ b ∈ twins.nested, (b.slots.map Slot.id).Nodup) ∧
    twins.nested[1]? = twins.nested[2]? ∧
    (∀ path b, twins.resolve path = .ok b → twins.position path = 1 → path = ["left"]) ∧
    (∀ path b, twins.resolve path = .ok b → twins.position path = 2 → path = ["right"]) ∧
    IsGreatest (twins.frontLengths ["right", "chain", "left"]) 1 := by
  have hd : ∀ b ∈ twins.nested, (b.slots.map Slot.id).Nodup := by decide
  obtain ⟨⟨-, hinj, -⟩, -, hother⟩ := paths_address_blocks hd
  obtain ⟨fault, problem, depth, hfault, hproblem, -, hdepth, hgreatest⟩ :=
    hother ["right", "chain", "left"] (by rintro ⟨b, ⟨⟩⟩)
  have hone : depth = 1 := by
    obtain rfl := Except.error.inj hfault
    obtain rfl := Failure.problem.inj hproblem
    exact (Int.ofNat.inj (Json.int.inj hdepth)).symm
  refine ⟨hd, rfl, fun path b hb h => ?_, fun path b hb h => ?_, hone ▸ hgreatest⟩
  · exact hinj ⟨b, hb⟩ ⟨_, rfl⟩ h
  · exact hinj ⟨b, hb⟩ ⟨_, rfl⟩ h

end Block

end AccessTree
