import AccessTree.Proofs.Block.Graft
import AccessTree.Proofs.Compile.Call
import AccessTree.Proofs.Compile.Entered
import AccessTree.Proofs.Edit.Batch

/-! # Parameters in the order of their numbers

A contract call is filled in by edits that add parameters to it and write literals into its slots. A
parameter gets the next number, and its slot stands after those of the others (`Calls.addParameter`);
a literal stands in the slot of its id (`Calls.setValue`). So after a run of such edits it depends
only on which edits were made, not on their order, what stands in the slots (`calls_applyAll`). The
order decides only whether a slot is there yet when it is written to (`applyAll_eq_ok_iff`). The
parameters of the compiled condition are thus the literals that were written, in the order of the
numbers of their slots (`parameters_in_order`). -/

namespace AccessTree

namespace Slot

/-- A new parameter slot stands right after the last parameter slot. -/
theorem insertParameter_after {new p : Slot} (hp : p.isParameter = true) {pre post : List Slot}
    (hpost : ∀ s ∈ post, s.isParameter = false) :
    insertParameter new (pre ++ p :: post) = pre ++ p :: new :: post := by
  induction pre with
  | nil =>
    have hnone : post.any isParameter = false := List.any_eq_false.mpr (by simpa using hpost)
    rw [List.nil_append, insertParameter, hp, hnone]
    rfl
  | cons s pre ih =>
    have hsome : (pre ++ p :: post).any isParameter = true :=
      List.any_eq_true.mpr ⟨p, by simp, hp⟩
    rw [List.cons_append, insertParameter, hsome, ih]
    simp

end Slot

namespace Block.Calls

variable {n : Nat} {entries : String → Option Literal} {b edited : Block}

theorem nextParameter_eq (h : b.Calls n entries) : b.nextParameter = (n + 1 : Nat) := by
  rw [nextParameter, h.property_eq]
  rfl

/-- The slots of a call around its last parameter slot. -/
theorem exists_slots (h : b.Calls n entries) : ∃ pre p post, b.slots = pre ++ p :: post ∧
    pre.map Slot.id = idsBefore ++ (List.range n).map Slot.parameterId ∧
    p.id = Slot.parameterId n ∧ post.map Slot.id = idsAfter := by
  have hids : b.slots.map Slot.id = (idsBefore ++ (List.range n).map Slot.parameterId) ++
      (Slot.parameterId n :: idsAfter) := by
    rw [h.ids, callIds, List.range_succ]
    simp
  obtain ⟨pre, rest, hslots, hpre, hrest⟩ := List.map_eq_append_iff.mp hids
  obtain ⟨p, post, rfl, hp, hpost⟩ := List.map_eq_cons_iff.mp hrest
  exact ⟨pre, p, post, hslots, hpre, hp, hpost⟩

/-- **A parameter that is added** gets the next number. -/
theorem addParameter (h : b.Calls n entries) (hedit : b.addParameter = .ok edited) :
    edited.Calls (n + 1) entries := by
  obtain ⟨new, hslot, rfl⟩ := addParameter_cases hedit
  obtain ⟨number, position, hnumber, -, hnew⟩ := parameterSlot_cases hslot
  rw [h.nextParameter_eq] at hnumber ⊢
  obtain ⟨hshort, rfl⟩ := Text.writeInt_natCast_eq_ok.mp hnumber
  have hid : new.id = Slot.parameterId (n + 1) := by rw [hnew]; rfl
  obtain ⟨pre, p, post, hslots, hpre, hp, hpost⟩ := h.exists_slots
  have hparameter : p.isParameter = true := by
    rw [Slot.isParameter, Slot.parameterDigits?, hp, Slot.numbered?_parameterId]
    rfl
  have hafter : ∀ s ∈ post, s.isParameter = false := fun s hs => by
    have hmem : s.id ∈ idsAfter := hpost ▸ List.mem_map_of_mem hs
    rw [Slot.isParameter, Slot.parameterDigits?, numbered?_of_mem_idsAfter _ hmem]
    rfl
  have hinsert : Slot.insertParameter new b.slots = pre ++ p :: new :: post := by
    rw [hslots, Slot.insertParameter_after hparameter hafter]
  have hmem : ∀ s ∈ Slot.insertParameter new b.slots, s = new ∨ s ∈ b.slots := fun s hs =>
    List.mem_cons.mp ((perm_insertParameter new b.slots).mem_iff.mp hs)
  refine
    { kind := h.kind
      properties := by simp only [h.properties]; rfl
      ids := ?_
      empty := ?_
      entered := ?_
      known := fun id hid => h.known id fun hmem => hid (callIds_subset n hmem)
      short := hshort }
  · simp only [hinsert, List.map_append, List.map_cons, hpre, hp, hid, hpost]
    simp [callIds, List.range_succ]
  · intro s hs
    rcases hmem s hs with rfl | hs
    · rw [hnew]
      rfl
    · exact h.empty s hs
  · intro s hs
    rcases hmem s hs with rfl | hs
    · have hnone : entries (Slot.parameterId (n + 1)) = none :=
        h.known _ fun hmem => absurd (parameterId_mem_callIds.mp hmem) (Nat.not_succ_le_self n)
      rw [hid, hnone, hnew]
      rfl
    · exact h.entered s hs

/-- A parameter can be added as long as its position can be written. -/
theorem exists_addParameter (h : b.Calls n entries) (hshort : n + 2 < 10 ^ Text.maxDigits) :
    ∃ edited, b.addParameter = .ok edited := by
  have hnumber : Text.writeInt (n + 1 : Nat) = .ok _ :=
    Text.writeInt_natCast_eq_ok.mpr ⟨(Nat.lt_succ_self (n + 1)).trans hshort, rfl⟩
  have hposition : Text.writeInt (((n + 1 : Nat) : Int) + 1) = .ok _ :=
    Text.writeInt_natCast_eq_ok.mpr ⟨hshort, rfl⟩
  have hnew : b.slot? (Slot.parameterStem ++ Text.ofNat (n + 1)) = none := by
    by_contra hne
    have hmem := h.exists_slot?.mp (Option.ne_none_iff_exists'.mp hne)
    exact absurd (parameterId_mem_callIds.mp hmem) (Nat.not_succ_le_self n)
  rw [Block.addParameter]
  simp only [h.nextParameter_eq, parameterSlot, hnumber, hposition, Except.mapError, bind,
    Except.bind, hnew]
  exact ⟨_, rfl⟩

/-- **A literal that is set** stands in the slot of its id. -/
theorem setValue (h : b.Calls n entries) {id : String} {s : Slot} (hs : b.slot? id = some s)
    {l : Literal} (hl : l.isEntered = true) :
    (b.modifySlot id fun s => { s with value := some l }).Calls n
      (Function.update entries id (some l)) := by
  obtain ⟨hid, pre, post, hslots, hmodify⟩ := slot?_split hs
  have hother : ∀ t ∈ pre ++ post, t.id ≠ id := by
    have hnodup := nodup_callIds n
    rw [← h.ids, hslots, List.map_append, List.map_cons, List.nodup_middle, List.nodup_cons,
      hid] at hnodup
    intro t ht heq
    rw [← List.map_append] at hnodup
    exact hnodup.1 (heq ▸ List.mem_map_of_mem ht)
  have hentered : Literal.entered? (some l) = some l := Option.filter_eq_some_iff.mpr ⟨rfl, hl⟩
  have hmem : ∀ t ∈ pre ++ { s with value := some l } :: post,
      (t ∈ b.slots ∧ t.id ≠ id) ∨ t = { s with value := some l } := by
    intro t ht
    have hof := hother t
    rw [hslots]
    simp only [List.mem_append, List.mem_cons] at ht hof ⊢
    tauto
  rw [hmodify]
  refine
    { kind := h.kind
      properties := h.properties
      ids := ?_
      empty := ?_
      entered := ?_
      known := ?_
      short := h.short }
  · have hids := h.ids
    rw [hslots, List.map_append, List.map_cons] at hids
    rw [List.map_append, List.map_cons, ← hids]
  · intro t ht
    rcases hmem t ht with ⟨ht, -⟩ | rfl
    · exact h.empty t ht
    · exact h.empty s (List.mem_of_find?_eq_some hs)
  · intro t ht
    rcases hmem t ht with ⟨ht, hne⟩ | rfl
    · rw [Function.update_of_ne hne, h.entered t ht]
    · rw [Slot.entered?, hentered, Option.some_or, hid, Function.update_self]
  · intro x hx
    have hne : x ≠ id := fun heq => hx (heq ▸ h.exists_slot?.mp ⟨s, hs⟩)
    rw [Function.update_of_ne hne, h.known x hx]

end Block.Calls

namespace Edit

/-- The tree after a run of edits, none of which may be refused. -/
def applyAll (suffix : Nat → String) (first : Nat) (root : Block) (es : List Edit) :
    Except EditFault Block :=
  es.foldlM (fun root e => e.apply suffix first root) root

/-- Whether an edit adds a parameter. -/
def addsParameter : Edit → Bool
  | .addParameter _ => true
  | _ => false

/-- The number of parameters that a run of edits adds. -/
def added (es : List Edit) : Nat := es.countP addsParameter

/-- What a run of edits writes into the slots of the block at the end of a path. -/
def entriesOf (path : Path) (es : List Edit) (slot : String) : Option Literal :=
  (es.findSome? (valueFor path slot)).join

/-- An edit that adds a parameter to the block at the end of a path or enters a literal in a slot of
it. -/
inductive Fills (path : Path) : Edit → Prop where
  | add : Fills path (.addParameter path)
  | set (slot : String) {l : Literal} (h : l.isEntered = true) :
    Fills path (.setValue path slot (some l))

/-- **Edits that fill in a block**, one literal at most for each slot. -/
structure FillsIn (path : Path) (es : List Edit) : Prop where
  fills : ∀ e ∈ es, Fills path e
  once : ∀ slot l m, setValue path slot (some l) ∈ es → setValue path slot (some m) ∈ es → l = m

theorem FillsIn.subset {path : Path} {es fs : List Edit} (h : FillsIn path es) (hsub : fs ⊆ es) :
    FillsIn path fs :=
  ⟨fun e he => h.fills e (hsub he), fun slot l m hl hm => h.once slot l m (hsub hl) (hsub hm)⟩

/-! ### What is written -/

/-- **What is written does not depend on the order** in which it is. -/
theorem entriesOf_eq_some {path : Path} {es : List Edit} (h : FillsIn path es) {slot : String}
    {l : Literal} : entriesOf path es slot = some l ↔ setValue path slot (some l) ∈ es := by
  have hmem : ∀ {v}, es.findSome? (valueFor path slot) = some v → setValue path slot v ∈ es := by
    intro v hv
    obtain ⟨e, he, heq⟩ := List.exists_of_findSome?_eq_some hv
    exact valueFor_eq_some.mp heq ▸ he
  rw [entriesOf, Option.join_eq_some_iff]
  refine ⟨hmem, fun hl => ?_⟩
  cases hfind : es.findSome? (valueFor path slot) with
  | none => cases (valueFor_eq_some.mpr rfl).symm.trans (List.findSome?_eq_none_iff.mp hfind _ hl)
  | some v =>
    have hv := hmem hfind
    cases h.fills _ hv with
    | @set _ m _ => rw [h.once slot l m hl hv]

theorem entriesOf_concat_add (path : Path) (es : List Edit) :
    entriesOf path (es ++ [.addParameter path]) = entriesOf path es := by
  funext slot
  rw [entriesOf, List.findSome?_append, entriesOf]
  exact congrArg Option.join Option.or_none

theorem entriesOf_concat_set {path : Path} {es : List Edit} {slot : String} {l : Literal}
    (h : FillsIn path (es ++ [.setValue path slot (some l)])) :
    entriesOf path (es ++ [.setValue path slot (some l)]) =
      Function.update (entriesOf path es) slot (some l) := by
  have hes : FillsIn path es := h.subset (List.subset_append_left es _)
  funext x
  by_cases hx : x = slot
  · rw [hx, Function.update_self, entriesOf_eq_some h]
    exact List.mem_append_right es List.mem_cons_self
  · rw [Function.update_of_ne hx]
    refine Option.ext fun m => ?_
    rw [entriesOf_eq_some h, entriesOf_eq_some hes]
    simp [hx]

/-! ### Runs -/

variable {suffix : Nat → String} {first : Nat} {root start next : Block} {path : Path}
  {es : List Edit}

theorem applyAll_concat (e : Edit) : applyAll suffix first root (es ++ [e]) =
    applyAll suffix first root es >>= fun next => e.apply suffix first next := by
  rw [applyAll, List.foldlM_append]
  refine bind_congr fun mid => ?_
  rw [List.foldlM_cons]
  exact bind_pure _

theorem added_concat_add : added (es ++ [.addParameter path]) = added es + 1 := by
  rw [added, List.countP_append]
  rfl

theorem added_concat_set {slot : String} {v : Option Literal} :
    added (es ++ [.setValue path slot v]) = added es := by
  rw [added, List.countP_append]
  rfl

/-- **A run of edits that fill in a contract call** comes to what they write. -/
theorem calls_applyAll (hroot : root.at? path = some start) (hstart : Catalog.PlacedCall start)
    (hes : FillsIn path es) (h : applyAll suffix first root es = .ok next) :
    ∃ b, next.at? path = some b ∧ b.Calls (added es) (entriesOf path es) := by
  -- from the end of the run, since what an edit finds is what those before it left
  induction es using List.reverseRecOn generalizing next with
  | nil =>
    cases h
    exact ⟨start, hroot, hstart.calls⟩
  | append_singleton es e ih =>
    rw [applyAll_concat] at h
    obtain ⟨mid, hmid, h⟩ := bind_eq_ok.mp h
    obtain ⟨b, hb, hcalls⟩ := ih (hes.subset (List.subset_append_left es _)) hmid
    obtain ⟨owner, edited, howner, hedit, rfl⟩ := apply_eq_ok.mp h
    cases hes.fills e (List.mem_append_right es List.mem_cons_self) with
    | add =>
      obtain rfl := Option.some.inj (hb.symm.trans howner)
      rw [added_concat_add, entriesOf_concat_add]
      exact ⟨edited, Block.at?_replaceAt hb edited, hcalls.addParameter hedit⟩
    | set slot hl =>
      obtain rfl := Option.some.inj (hb.symm.trans howner)
      obtain ⟨⟨s, hs⟩, rfl⟩ := Block.writeSlot_eq_ok.mp hedit
      rw [added_concat_set, entriesOf_concat_set hes]
      exact ⟨_, Block.at?_replaceAt hb _, hcalls.setValue hs hl⟩

/-- Every slot is there when it is written to. -/
def Addressable (path : Path) (es : List Edit) : Prop :=
  ∀ before after slot l, es = before ++ .setValue path slot (some l) :: after →
    slot ∈ Block.callIds (added before)

theorem addressable_nil : Addressable path [] := by
  rintro before after slot l h
  simp at h

theorem addressable_concat {e : Edit} : Addressable path (es ++ [e]) ↔ Addressable path es ∧
    ∀ slot l, e = .setValue path slot (some l) → slot ∈ Block.callIds (added es) := by
  constructor
  · intro h
    refine ⟨fun before after slot l hes => ?_, fun slot l he => h es [] slot l (by rw [he])⟩
    exact h before (after ++ [e]) slot l (by rw [hes, List.append_assoc, List.cons_append])
  · rintro ⟨hes, he⟩ before after slot l h
    rcases after.eq_nil_or_concat with rfl | ⟨after, d, rfl⟩
    · obtain ⟨rfl, hd⟩ := List.append_inj' h rfl
      exact he slot l (List.cons.inj hd).1
    · rw [List.concat_eq_append, ← List.cons_append, ← List.append_assoc] at h
      exact hes before after slot l (List.append_inj' h rfl).1

/-- **The order of a run counts** for nothing but that every slot is there when it is written to. -/
theorem applyAll_eq_ok_iff (hroot : root.at? path = some start)
    (hstart : Catalog.PlacedCall start) (hes : FillsIn path es)
    (hshort : added es + 1 < 10 ^ Text.maxDigits) :
    (∃ next, applyAll suffix first root es = .ok next) ↔ Addressable path es := by
  induction es using List.reverseRecOn with
  | nil => exact iff_of_true ⟨root, rfl⟩ addressable_nil
  | append_singleton es e ih =>
    have hes' : FillsIn path es := hes.subset (List.subset_append_left es _)
    have hle : added es ≤ added (es ++ [e]) := by
      rw [added, added, List.countP_append]
      exact Nat.le_add_right _ _
    rw [addressable_concat, ← ih hes' ((Nat.succ_le_succ hle).trans_lt hshort)]
    have hstep : (∃ next, applyAll suffix first root (es ++ [e]) = .ok next) ↔
        ∃ mid, applyAll suffix first root es = .ok mid ∧
          ∃ next, e.apply suffix first mid = .ok next := by
      simp only [applyAll_concat, bind_eq_ok]
      exact ⟨fun ⟨next, mid, hmid, h⟩ => ⟨mid, hmid, next, h⟩,
        fun ⟨mid, hmid, next, h⟩ => ⟨next, mid, hmid, h⟩⟩
    rw [hstep, ← exists_and_right]
    refine exists_congr fun mid => and_congr_right fun hmid => ?_
    obtain ⟨b, hb, hcalls⟩ := calls_applyAll hroot hstart hes' hmid
    cases hes.fills e (List.mem_append_right es List.mem_cons_self) with
    | add =>
      rw [added_concat_add] at hshort
      obtain ⟨edited, hedit⟩ := hcalls.exists_addParameter hshort
      exact iff_of_true ⟨_, apply_eq_ok.mpr ⟨b, edited, hb, hedit, rfl⟩⟩ nofun
    | @set slot l hl =>
      constructor
      · rintro ⟨next, h⟩ _ _ ⟨⟩
        obtain ⟨owner, edited, howner, hedit, -⟩ := apply_eq_ok.mp h
        obtain rfl := Option.some.inj (hb.symm.trans howner)
        exact hcalls.exists_slot?.mp (Block.writeSlot_eq_ok.mp hedit).1
      · intro h
        have hslot := hcalls.exists_slot?.mpr (h slot l rfl)
        exact ⟨_, apply_eq_ok.mpr ⟨b, _, hb, Block.writeSlot_eq_ok.mpr ⟨hslot, rfl⟩, rfl⟩⟩

/-! ### Lists of parameters -/

/-- **The edits for a call of a method**: they set the chain and the method, add `k` parameters, and
set the parameters. -/
def callEdits (path : Path) (chain : Literal) (method : String) (k : Nat) (vs : List Literal) :
    List Edit :=
  .setValue path "chain" (some chain) :: .setValue path "method" (some (.text method)) ::
    (List.replicate k (.addParameter path) ++
      vs.mapIdx fun i v => .setValue path (Slot.parameterId i) (some v))

variable {chain : Literal} {method : String} {k : Nat} {vs : List Literal}

theorem setValue_mem_callEdits {slot : String} {l : Literal} :
    setValue path slot (some l) ∈ callEdits path chain method k vs ↔
      slot = "chain" ∧ l = chain ∨ slot = "method" ∧ l = .text method ∨
        ∃ i, slot = Slot.parameterId i ∧ vs[i]? = some l := by
  have hparameter : setValue path slot (some l) ∈
      vs.mapIdx (fun i v => setValue path (Slot.parameterId i) (some v)) ↔
        ∃ i, slot = Slot.parameterId i ∧ vs[i]? = some l := by
    rw [List.mem_mapIdx]
    refine exists_congr fun i => ?_
    simp only [setValue.injEq, true_and, Option.some.injEq, List.getElem?_eq_some_iff,
      eq_comm (a := Slot.parameterId i)]
    tauto
  rw [callEdits, List.mem_cons, List.mem_cons, List.mem_append, hparameter]
  simp

theorem parameter_mem_callEdits {i : Nat} {l : Literal} :
    setValue path (Slot.parameterId i) (some l) ∈ callEdits path chain method k vs ↔
      vs[i]? = some l := by
  rw [setValue_mem_callEdits]
  constructor
  · rintro (⟨h, -⟩ | ⟨h, -⟩ | ⟨j, h, hl⟩)
    · exact absurd h (Block.parameterId_ne rfl i)
    · exact absurd h (Block.parameterId_ne rfl i)
    · rwa [Slot.parameterId_injective h]
  · exact fun hl => Or.inr (Or.inr ⟨i, rfl, hl⟩)

theorem added_callEdits : added (callEdits path chain method k vs) = k := by
  have hset : (vs.mapIdx fun i v => setValue path (Slot.parameterId i) (some v)).countP
      addsParameter = 0 := by
    rw [List.countP_eq_zero]
    intro e he
    obtain ⟨i, hi, rfl⟩ := List.mem_mapIdx.mp he
    exact Bool.false_ne_true
  rw [added, callEdits, List.countP_cons_of_neg Bool.false_ne_true,
    List.countP_cons_of_neg Bool.false_ne_true, List.countP_append, hset, List.countP_replicate]
  rfl

theorem fillsIn_callEdits (hchain : chain.isEntered = true) (hmethod : Text.allBlank method = false)
    (hvs : ∀ v ∈ vs, v.isEntered = true) : FillsIn path (callEdits path chain method k vs) := by
  constructor
  · intro e he
    rw [callEdits, List.mem_cons, List.mem_cons, List.mem_append] at he
    rcases he with rfl | rfl | he | he
    · exact .set "chain" hchain
    · exact .set "method" (by simpa [Literal.isEntered] using hmethod)
    · rw [List.eq_of_mem_replicate he]
      exact .add
    · obtain ⟨i, hi, rfl⟩ := List.mem_mapIdx.mp he
      exact .set _ (hvs _ (List.getElem_mem hi))
  · intro slot l m hl hm
    rcases setValue_mem_callEdits.mp hl with ⟨rfl, rfl⟩ | ⟨rfl, rfl⟩ | ⟨i, rfl, hi⟩
    · rcases setValue_mem_callEdits.mp hm with ⟨-, rfl⟩ | ⟨heq, -⟩ | ⟨j, heq, -⟩
      · rfl
      · exact absurd heq (by decide)
      · exact absurd heq.symm (Block.parameterId_ne rfl j)
    · rcases setValue_mem_callEdits.mp hm with ⟨heq, -⟩ | ⟨-, rfl⟩ | ⟨j, heq, -⟩
      · exact absurd heq (by decide)
      · rfl
      · exact absurd heq.symm (Block.parameterId_ne rfl j)
    · exact Option.some.inj (hi.symm.trans (parameter_mem_callEdits.mp hm))

theorem filterMap_getElem?_range {α : Type} (xs : List α) :
    (List.range xs.length).filterMap (fun i => xs[i]?) = xs := by
  induction xs with
  | nil => rfl
  | cons x xs ih =>
    rw [List.length_cons, List.range_succ_eq_map, List.filterMap_cons, List.filterMap_map]
    exact congrArg (x :: ·) ih

/-! ### Any order of them -/

variable {order : List Edit}

/-- **The order counts** for nothing but that each parameter is set after it was added. -/
theorem addressable_iff_of_perm (horder : order.Perm (callEdits path chain method k vs)) :
    Addressable path order ↔ ∀ before after i l,
      order = before ++ .setValue path (Slot.parameterId i) (some l) :: after →
        i ≤ added before := by
  constructor
  · exact fun h before after i l heq =>
      Block.parameterId_mem_callIds.mp (h before after _ l heq)
  · intro h before after slot l heq
    have hmem : setValue path slot (some l) ∈ order := by
      rw [heq]
      exact List.mem_append_right before List.mem_cons_self
    rcases setValue_mem_callEdits.mp (horder.mem_iff.mp hmem) with ⟨rfl, -⟩ | ⟨rfl, -⟩ | ⟨i, rfl, -⟩
    · exact List.mem_append_left _ (by decide)
    · exact List.mem_append_left _ (by decide)
    · exact Block.parameterId_mem_callIds.mpr (h before after i l heq)

theorem entriesOf_eq_some_iff_of_perm (hfills : FillsIn path order)
    (horder : order.Perm (callEdits path chain method k vs)) {slot : String} {l : Literal} :
    entriesOf path order slot = some l ↔ slot = "chain" ∧ l = chain ∨
      slot = "method" ∧ l = .text method ∨ ∃ i, slot = Slot.parameterId i ∧ vs[i]? = some l :=
  ((entriesOf_eq_some hfills).trans horder.mem_iff).trans setValue_mem_callEdits

/-- The parameters are written in the order of their numbers. -/
theorem filterMap_entriesOf_of_perm (hfills : FillsIn path order)
    (horder : order.Perm (callEdits path chain method k vs)) :
    ((List.range vs.length).filterMap fun i => entriesOf path order (Slot.parameterId i)) = vs := by
  refine (List.filterMap_congr fun i _ => Option.ext fun l => ?_).trans (filterMap_getElem?_range vs)
  exact ((entriesOf_eq_some hfills).trans horder.mem_iff).trans parameter_mem_callEdits

/-- Nothing is written into the other slots. -/
theorem entriesOf_eq_none_of_perm (hfills : FillsIn path order)
    (horder : order.Perm (callEdits path chain method k vs)) :
    ∀ slot ∈ ["contractAddress", "functionAbi", "expectedValue"],
      entriesOf path order slot = none := by
  intro slot hslot
  by_contra hne
  obtain ⟨l, hl⟩ := Option.ne_none_iff_exists'.mp hne
  rcases (entriesOf_eq_some_iff_of_perm hfills horder).mp hl with ⟨rfl, -⟩ | ⟨rfl, -⟩ | ⟨i, rfl, -⟩
  · exact absurd hslot (by decide)
  · exact absurd hslot (by decide)
  · have hnone : ∀ id ∈ ["contractAddress", "functionAbi", "expectedValue"],
        Text.numbered? Slot.parameterStem id = none := by decide
    exact Block.parameterId_ne (hnone _ hslot) i rfl

/-- **Parameters are compiled in the order of their numbers.** Suppose that the chain and the method
of a placed contract call are set, `k` parameters are added to it, and its `k + 1` parameters are set,
in any order. Unless `k` is too large to be written, none of these edits is refused exactly if each
parameter is set after it was added. And if none is refused, the call compiles, in either mode and
without warnings, to the condition with this chain, this method and these parameters, also when the
call stands alone in its composition. -/
theorem parameters_in_order (suffix : Nat → String) (first : Nat) {root start : Block} {path : Path}
    (hroot : root.at? path = some start) (hstart : Catalog.PlacedCall start) {chain : Literal}
    {c : ChainId} (hchain : chain.Denotes c.number) {method : String}
    (hmethod : Text.allBlank method = false) {k : Nat} {vs : List Literal}
    (hlength : vs.length = k + 1) (hvs : ∀ v ∈ vs, v.isEntered = true) {order : List Edit}
    (horder : order.Perm (callEdits path chain method k vs)) :
    (k + 1 < 10 ^ Text.maxDigits →
      ((∃ next, applyAll suffix first root order = .ok next) ↔ ∀ before after i l,
        order = before ++ .setValue path (Slot.parameterId i) (some l) :: after →
          i ≤ added before)) ∧
    ∀ next, applyAll suffix first root order = .ok next → ∃ called, next.at? path = some called ∧
      (∀ mode, Compile.block mode called = .done (some (Compile.plainCall c method vs))) ∧
      (path = [] → ∀ fallback, Compile.workspace ⟨false, fallback⟩ [next] =
        .done (some (Compile.plainCall c method vs))) := by
  have hfills : FillsIn path order :=
    (fillsIn_callEdits hchain.isEntered hmethod hvs).subset horder.subset
  have hadded : added order = k := (horder.countP_eq addsParameter).trans added_callEdits
  constructor
  · intro hshort
    rw [applyAll_eq_ok_iff hroot hstart hfills (hadded.symm ▸ hshort)]
    exact addressable_iff_of_perm horder
  · intro next hnext
    obtain ⟨called, hcalled, hcalls⟩ := calls_applyAll hroot hstart hfills hnext
    rw [hadded] at hcalls
    have hblock : ∀ mode, Compile.block mode called =
        .done (some (Compile.plainCall c method vs)) := fun mode =>
      hcalls.block_eq mode
        ((entriesOf_eq_some_iff_of_perm hfills horder).mpr (.inl ⟨rfl, rfl⟩)) hchain
        ((entriesOf_eq_some_iff_of_perm hfills horder).mpr (.inr (.inl ⟨rfl, rfl⟩))) hmethod
        (hlength ▸ filterMap_entriesOf_of_perm hfills horder)
        (List.ne_nil_of_length_eq_add_one hlength) (entriesOf_eq_none_of_perm hfills horder)
    refine ⟨called, hcalled, hblock, ?_⟩
    rintro rfl fallback
    obtain rfl := Option.some.inj hcalled
    exact hcalls.workspace_eq (hblock _)

/-- A disjunction with a contract call in its first slot. -/
def disjoinedCall : Block :=
  { Catalog.operatorBlock "or" "OR" [] with
    slots := [{ Slot.growth "1" with
      connected := (Catalog.find? "contract-call").map (Block.instantiate History.suffix 1) }] }

/-- Edits that set one parameter of the call, then add another one, and set the chain and the method
at the end. -/
def interleavedEdits : List Edit := [
  .setValue ["condition-1"] "param_0" (some (.text ":userAddress")),
  .addParameter ["condition-1"],
  .setValue ["condition-1"] "param_1" (some (.int 5)),
  .setValue ["condition-1"] "chain" (some (.text "137")),
  .setValue ["condition-1"] "method" (some (.text " allowance "))]

/-- The second parameter of a call is added when the first one is set already. -/
theorem parameters_in_order_disjoined : ∃ next called : Block,
    applyAll History.suffix 2 disjoinedCall interleavedEdits = .ok next ∧
    next.at? ["condition-1"] = some called ∧
    Compile.block ⟨true, .ok .sepolia⟩ called = .done (some (.contract
      ⟨.polygon, "", "allowance", [.str ":userAddress", .int 5], none, none,
        Compile.aboveZero⟩)) := by
  have hcall : Catalog.find? "contract-call" = some _ := rfl
  have hroot : disjoinedCall.at? ["condition-1"] = some (Block.instantiate History.suffix 1 _) := rfl
  have hchain : (Literal.text "137").Denotes ChainId.polygon.number :=
    .text (Text.readInteger_eq_some_iff.mp (by rfl))
  have horder : interleavedEdits.Perm (callEdits ["condition-1"] (.text "137") " allowance " 1
      [.text ":userAddress", .int 5]) :=
    (List.Perm.swap _ _ _).trans (@List.perm_append_comm _ [_, _, _] [_, _])
  have hrun := parameters_in_order History.suffix 2 hroot (.copy hcall History.suffix 1) hchain
    (by decide) rfl (by decide) horder
  obtain ⟨called, hcalled, hblock, -⟩ := hrun.2 _ rfl
  exact ⟨_, called, rfl, hcalled, hblock _⟩

end Edit

end AccessTree
