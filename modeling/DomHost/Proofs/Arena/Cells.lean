import DomHost.Arena.Edit
import DomHost.Proofs.Store.Links

/-!
# Nodes in their cells

What a reference leads to after an edit of the cells: a change of one node is seen at that node only, a new node is
seen at its reference, and where a cell is emptied nothing is seen any more.

* **`Arena.get?_update`**, **`Arena.get?_push`**, **`Arena.get?_release`**: the elementary edits;
* `Arena.cells`: the generations and the free cells, without the nodes;
* `Arena.get?_leadTo`, `Arena.get?_leadBackTo`: one link on either side of a node;
* **`Arena.follow_eq_of_chain`**: a link that comes to an end is followed to its end.
-/

namespace DomHost.Arena

variable {a : Arena} {r x p c : NodeRef} {n : LinkedNode} {o previous next before : Option NodeRef}

/-! ## One cell -/

/-- The generations of the cells, and those that are free. -/
def cells (a : Arena) : Cells := ⟨a.slots.map (·.generation), a.free⟩

theorem capacity_eq (a : Arena) : a.capacity = a.cells.generations.size := (Array.size_map).symm

theorem get?_cell (a : Arena) (i : Nat) (g : UInt32) :
    a.get? (.cell i g) = a.slots[i]?.bind fun slot => if slot.generation = g then slot.node else none := by
  rw [get?]
  cases a.slots[i]? <;> rfl

/-- A node has the current generation of its cell. -/
theorem generation_of_get? {i : Nat} {g : UInt32} (h : (a.get? (.cell i g)).isSome) :
    a.slots[i]?.map (·.generation) = some g := by
  rw [get?_cell] at h
  cases hs : a.slots[i]? with
  | none => simp [hs] at h
  | some slot =>
    by_cases hg : slot.generation = g
    · rw [Option.map_some, hg]
    · simp [hs, hg] at h

theorem map_modify {α β : Type} {g : α → β} {f : α → α} {k : β → β} (h : ∀ v, g (f v) = k (g v))
    (xs : Array α) (i : Nat) : (xs.modify i f).map g = (xs.map g).modify i k := by
  refine Array.ext_getElem? fun j => ?_
  rw [Array.getElem?_map, Array.getElem?_modify, Array.getElem?_modify, Array.getElem?_map]
  split
  · cases xs[j]? with
    | none => rfl
    | some v => simp [h]
  · rfl

/-- A change that keeps the generation of a cell. -/
theorem generations_modify {f : Slot → Slot} (h : ∀ slot, (f slot).generation = slot.generation)
    (slots : Array Slot) (i : Nat) :
    (slots.modify i f).map (·.generation) = slots.map (·.generation) := by
  rw [map_modify (g := Slot.generation) (k := id) h]
  refine Array.ext_getElem? fun j => ?_
  rw [Array.getElem?_modify, Option.map_id_fun, id, ite_self]

/-! ### Changes -/

/-- **A change of a node is seen at that node only.** -/
theorem get?_update (a : Arena) (r x : NodeRef) (f : LinkedNode → LinkedNode) :
    (a.update r f).get? x = if x = r then (a.get? x).map f else a.get? x := by
  cases r with
  | nowhere => cases x <;> rfl
  | cell i g =>
    cases x with
    | nowhere => rfl
    | cell j k =>
      simp only [get?_cell, update, Array.getElem?_modify, NodeRef.cell.injEq]
      by_cases hij : i = j
      · subst hij
        cases a.slots[i]? with
        | none => simp
        | some slot =>
          by_cases hg : slot.generation = g
          · by_cases hk : k = g
            · simp [hg, hk]
            · simp [hg, hk, Ne.symm hk]
          · by_cases hk : k = g
            · simp [hg, hk]
            · simp [hg, hk]
      · rw [if_neg hij, if_neg fun h => hij h.1.symm]

theorem cells_update (a : Arena) (r : NodeRef) (f : LinkedNode → LinkedNode) :
    (a.update r f).cells = a.cells := by
  cases r with
  | nowhere => rfl
  | cell i g =>
    rw [cells, update, generations_modify fun slot => by split <;> rfl]
    rfl

/-! ### New nodes -/

/-- A new node lies in the cell that is drawn for it. -/
theorem push_fst (a : Arena) (n : LinkedNode) : (a.push n).1 = a.cells.draw.1 := by
  unfold push Cells.draw cells
  cases a.free with
  | nil => simp
  | cons i rest =>
    simp only [Array.getD_eq_getD_getElem?, Array.getElem?_map]
    cases a.slots[i]? <;> rfl

theorem cells_push (a : Arena) (n : LinkedNode) : (a.push n).2.cells = a.cells.draw.2 := by
  unfold push Cells.draw cells
  cases a.free with
  | nil => simp
  | cons i rest =>
    simp only
    rw [generations_modify (f := ({ · with node := some n })) fun _ => rfl]

/-- **A new node is seen at its reference**, and all others as before. -/
theorem get?_push (h : ∀ i ∈ a.free, i < a.capacity) (n : LinkedNode) (x : NodeRef) :
    (a.push n).2.get? x = if x = (a.push n).1 then some n else a.get? x := by
  cases x with
  | nowhere =>
    unfold push
    split <;> rfl
  | cell j k =>
    unfold push
    split
    · rename_i i rest hfree
      have hlt : i < a.slots.size := h i (hfree ▸ List.mem_cons_self)
      have hslot : a.slots[i]? = some a.slots[i] := Array.getElem?_eq_getElem hlt
      simp only [get?_cell, Array.getElem?_modify, NodeRef.cell.injEq, Array.getD_eq_getD_getElem?, hslot,
        Option.getD_some]
      by_cases hij : i = j
      · subst hij
        by_cases hk : k = a.slots[i].generation
        · simp [hk, hslot]
        · simp [hk, Ne.symm hk, hslot]
      · rw [if_neg hij, if_neg fun h => hij h.1.symm]
    · simp only [get?_cell, Array.getElem?_push, NodeRef.cell.injEq]
      by_cases hj : j = a.slots.size
      · subst hj
        by_cases hk : k = 0
        · simp [hk]
        · simp [hk, Ne.symm hk]
      · rw [if_neg hj, if_neg fun h => hj h.1]

/-! ### Emptied cells -/

theorem cells_release (a : Arena) (r : NodeRef) : (a.release r).cells = a.cells.release r := by
  cases r with
  | nowhere => rfl
  | cell i g =>
    rw [cells, release, map_modify (k := (· + 1)) fun _ => rfl]
    rfl

/-- **Where a cell is emptied its node is gone**, and all others stay. -/
theorem get?_release (hr : (a.get? r).isSome) (x : NodeRef) :
    (a.release r).get? x = if x = r then none else a.get? x := by
  cases r with
  | nowhere => cases hr
  | cell i g =>
    have hg := generation_of_get? hr
    cases x with
    | nowhere => rfl
    | cell j k =>
      simp only [get?_cell, release, Array.getElem?_modify, NodeRef.cell.injEq]
      by_cases hij : i = j
      · subst hij
        obtain ⟨slot, hslot, rfl⟩ := Option.map_eq_some_iff.mp hg
        by_cases hk : k = slot.generation
        · simp [hk, hslot]
        · simp [hk, Ne.symm hk, hslot]
      · rw [if_neg hij, if_neg fun h => hij h.1.symm]

theorem cells_foldl_release (a : Arena) (rs : List NodeRef) :
    (rs.foldl release a).cells = rs.foldl Cells.release a.cells := by
  induction rs generalizing a with
  | nil => rfl
  | cons r rs ih => rw [List.foldl_cons, List.foldl_cons, ih, cells_release]

theorem get?_foldl_release {rs : List NodeRef} (hn : rs.Nodup) (hr : ∀ r ∈ rs, (a.get? r).isSome) (x : NodeRef) :
    (rs.foldl release a).get? x = if x ∈ rs then none else a.get? x := by
  induction rs generalizing a with
  | nil => simp
  | cons r rs ih =>
    obtain ⟨hnr, hn⟩ := List.nodup_cons.mp hn
    obtain ⟨hlive, hr⟩ := List.forall_mem_cons.mp hr
    have hrest : ∀ y ∈ rs, ((a.release r).get? y).isSome := fun y hy => by
      have hne : y ≠ r := fun he => hnr (he ▸ hy)
      rw [get?_release hlive, if_neg hne]
      exact hr y hy
    rw [List.foldl_cons, ih hn hrest, get?_release hlive]
    by_cases hx : x ∈ rs
    · rw [if_pos hx, if_pos (List.mem_cons_of_mem r hx)]
    · by_cases hxr : x = r
      · rw [if_neg hx, if_pos hxr, hxr, if_pos List.mem_cons_self]
      · rw [if_neg hx, if_neg hxr, if_neg (List.not_mem_cons_of_ne_of_not_mem hxr hx)]

/-! ## Links -/

/-- A link that is absent is the reference to no node. -/
theorem isValid_getD (ho : o ≠ some .nowhere) : (o.getD .nowhere).isValid = o.isSome := by
  cases o with
  | none => rfl
  | some r =>
    cases r with
    | nowhere => exact absurd rfl ho
    | cell i g => rfl

theorem get?_leadTo (ho : o ≠ some .nowhere) (a : Arena) (p r x : NodeRef) :
    (a.leadTo p (o.getD .nowhere) r).get? x = (a.get? x).map fun n => { n with
      firstChild := if o = none ∧ x = p then r else n.firstChild
      nextSibling := if o = some x then r else n.nextSibling } := by
  rw [leadTo, isValid_getD ho]
  cases o with
  | none =>
    by_cases hx : x = p
    · simp [get?_update, hx]
    · simp [get?_update, hx]
  | some y =>
    by_cases hx : x = y
    · simp [get?_update, hx]
    · simp [get?_update, hx, Ne.symm hx]

theorem get?_leadBackTo (ho : o ≠ some .nowhere) (a : Arena) (p r x : NodeRef) :
    (a.leadBackTo p (o.getD .nowhere) r).get? x = (a.get? x).map fun n => { n with
      lastChild := if o = none ∧ x = p then r else n.lastChild
      previousSibling := if o = some x then r else n.previousSibling } := by
  rw [leadBackTo, isValid_getD ho]
  cases o with
  | none =>
    by_cases hx : x = p
    · simp [get?_update, hx]
    · simp [get?_update, hx]
  | some y =>
    by_cases hx : x = y
    · simp [get?_update, hx]
    · simp [get?_update, hx, Ne.symm hx]

theorem cells_leadTo (a : Arena) (p y r : NodeRef) : (a.leadTo p y r).cells = a.cells := by
  unfold leadTo
  split <;> exact cells_update _ _ _

theorem cells_leadBackTo (a : Arena) (p y r : NodeRef) : (a.leadBackTo p y r).cells = a.cells := by
  unfold leadBackTo
  split <;> exact cells_update _ _ _

/-- **All links after a node has left its place**, between siblings or at an end of the row. -/
theorem get?_unlink (hp : previous ≠ some .nowhere) (hn : next ≠ some .nowhere) (a : Arena) (r p x : NodeRef) :
    (a.unlink r p (previous.getD .nowhere) (next.getD .nowhere)).get? x = (a.get? x).map fun n =>
      { data := n.data
        parent := if x = r then .nowhere else n.parent
        firstChild := if previous = none ∧ x = p then next.getD .nowhere else n.firstChild
        lastChild := if next = none ∧ x = p then previous.getD .nowhere else n.lastChild
        previousSibling := if x = r then .nowhere
          else if next = some x then previous.getD .nowhere else n.previousSibling
        nextSibling := if x = r then .nowhere
          else if previous = some x then next.getD .nowhere else n.nextSibling } := by
  rw [unlink, get?_update, get?_leadBackTo hn, get?_leadTo hp, Option.map_map, Option.map_map]
  by_cases hx : x = r
  · simp only [if_pos hx, Option.map_map]
    rfl
  · simp only [if_neg hx, Option.map_map]
    rfl

theorem cells_unlink (a : Arena) (r p y z : NodeRef) : (a.unlink r p y z).cells = a.cells := by
  rw [unlink, cells_update, cells_leadBackTo, cells_leadTo]

theorem getD_toOption (r : NodeRef) : r.toOption.getD .nowhere = r := by
  cases r <;> rfl

/-- The node behind which one comes, as the links in front of it have it. -/
theorem previous_eq (hb : before ≠ some .nowhere) (a : Arena) (p : NodeRef) :
    (match a.get? (if (before.getD .nowhere).isValid then before.getD .nowhere else p) with
      | some n => if (before.getD .nowhere).isValid then n.previousSibling else n.lastChild
      | none => .nowhere) =
      (before.elim (a.lastChild? p) a.previousSibling?).getD .nowhere := by
  rw [isValid_getD hb]
  cases before with
  | none =>
    simp only [Option.isSome_none, Bool.false_eq_true, if_false, Option.elim_none, lastChild?]
    cases a.get? p with
    | none => rfl
    | some n => exact (getD_toOption n.lastChild).symm
  | some b =>
    simp only [Option.isSome_some, if_true, Option.getD_some, Option.elim_some, previousSibling?]
    cases a.get? b with
    | none => rfl
    | some n => exact (getD_toOption n.previousSibling).symm

/-- **All links after a node has come to a place**, between siblings or at an end of the row. -/
theorem get?_link (hp : previous ≠ some .nowhere) (hb : before ≠ some .nowhere)
    (hprevious : before.elim (a.lastChild? p) a.previousSibling? = previous) (c x : NodeRef) :
    (a.link p c (before.getD .nowhere)).get? x = (a.get? x).map fun n =>
      { data := n.data
        parent := if x = c then p else n.parent
        firstChild := if previous = none ∧ x = p then c else n.firstChild
        lastChild := if before = none ∧ x = p then c else n.lastChild
        previousSibling := if before = some x then c
          else if x = c then previous.getD .nowhere else n.previousSibling
        nextSibling := if previous = some x then c
          else if x = c then before.getD .nowhere else n.nextSibling } := by
  have hlink : a.link p c (before.getD .nowhere) =
      ((a.update c fun n => { n with
          parent := p
          previousSibling := previous.getD .nowhere
          nextSibling := before.getD .nowhere }).leadTo p (previous.getD .nowhere) c).leadBackTo p
        (before.getD .nowhere) c := by
    rw [← hprevious, ← previous_eq hb a p]
    rfl
  rw [hlink, get?_leadBackTo hb, get?_leadTo hp, get?_update]
  by_cases hx : x = c
  · simp only [if_pos hx, Option.map_map]
    rfl
  · simp only [if_neg hx, Option.map_map]
    rfl

theorem cells_link (a : Arena) (p c b : NodeRef) : (a.link p c b).cells = a.cells := by
  rw [link, cells_leadBackTo, cells_leadTo, cells_update]

/-! ## Along a link -/

/-- **A link that comes to an end is followed to its end.** -/
theorem follow_eq_of_chain {next : NodeRef → Option NodeRef} {first : Option NodeRef} {l : List NodeRef}
    {rounds : Nat} (h : Chain next first l) (hl : l.length ≤ rounds) : follow next rounds first = l := by
  induction h generalizing rounds with
  | stop => cases rounds <;> rfl
  | @step r l h ih =>
    obtain ⟨rounds, rfl⟩ := Nat.exists_eq_add_one_of_ne_zero (Nat.ne_zero_of_lt hl)
    rw [follow, ih (Nat.le_of_succ_le_succ hl)]

/-- The first sibling outside of some nodes is found on the way to the last one. -/
theorem firstOutside_eq {nodes : List NodeRef} {first : Option NodeRef} {l : List NodeRef} {rounds : Nat}
    (h : Chain a.nextSibling? first l) (hl : l.length ≤ rounds) :
    a.firstOutside nodes rounds first = l.find? (!nodes.contains ·) := by
  induction h generalizing rounds with
  | stop => cases rounds <;> rfl
  | @step r l h ih =>
    obtain ⟨rounds, rfl⟩ := Nat.exists_eq_add_one_of_ne_zero (Nat.ne_zero_of_lt hl)
    rw [firstOutside, ih (Nat.le_of_succ_le_succ hl), List.find?_cons]
    cases nodes.contains r <;> rfl

end DomHost.Arena
