import DomHost.Proofs.Arena.Depicts
import DomHost.Proofs.Cautious
import DomHost.Proofs.Document.Children
import DomHost.Proofs.Store.Handles

/-!
# Links that are patched

Two trees may differ in one place only: among the children of one parent a node stands in the one tree and not in the
other. Then the links differ around this place only, and in which way depends on whether there is a sibling on either
side. Both ways of the comparison are the same one, so a node that leaves and a node that comes are treated alike.

* `Store.Shift`: two trees that differ in one place;
* **`Store.Shift.nextSibling?_eq`** and its like: the links of the second tree by those of the first;
* **`Arena.Depicts.unlink`**, **`Arena.Depicts.link`**: links that are patched in this way depict the second tree;
* `Arena.Depicts.takeOut`, `Arena.Depicts.place`, `Arena.Depicts.create`, `Arena.Depicts.setData`,
  `Arena.Depicts.without`: each edit of the cells depicts one of the tree.
-/

namespace DomHost

namespace Store

/-- Two trees that differ in one place only: between the children in `front` and those in `back` the first has the
nodes of `mid` and the second those of `mid'`, which are `r` or nothing, and `o` is the parent of `r` in the second. -/
structure Shift (s s' : Store) (p r : NodeRef) (o : Option NodeRef) (front mid mid' back : List NodeRef) : Prop
    extends s.Reparents s' r o where
  cells : s'.cells = s.cells
  get? : ∀ x, s'.get? x = s.get? x
  children : s.children p = front ++ (mid ++ back)
  children' : s'.children p = front ++ (mid' ++ back)
  others : ∀ q, q ≠ p → s'.children q = s.children q
  only : ∀ x ∈ mid, x = r

variable {s s' : Store} {p r x : NodeRef} {o : Option NodeRef} {front mid mid' back : List NodeRef}

/-! ## Links of neighbours -/

namespace WellFormed

theorem nextSibling?_eq (h : s.WellFormed) (hc : s.children p = front ++ x :: back) : s.nextSibling? x = back.head? := by
  rw [nextSibling?, h.following_eq hc]

theorem previousSibling?_eq (h : s.WellFormed) (hc : s.children p = front ++ x :: back) :
    s.previousSibling? x = front.getLast? := by
  rw [previousSibling?, h.preceding_eq hc]

/-- A node stands among the children of its parent once. -/
theorem notMem_of_children (h : s.WellFormed) (hc : s.children p = front ++ x :: back) : x ∉ front ∧ x ∉ back := by
  have hn := h.nodup_children p
  rw [hc, List.nodup_middle, List.nodup_cons, List.mem_append, not_or] at hn
  exact hn.1

end WellFormed

/-- Siblings are told by the children of the parent. -/
theorem siblings_congr (hp : s'.parent? x = s.parent? x)
    (hc : ∀ q, s.parent? x = some q → s'.children q = s.children q) :
    s'.nextSibling? x = s.nextSibling? x ∧ s'.previousSibling? x = s.previousSibling? x := by
  cases hq : s.parent? x with
  | none => simp [nextSibling?, previousSibling?, following, preceding, hp, hq]
  | some q => simp [nextSibling?, previousSibling?, following, preceding, hp, hq, hc q hq]

/-- A node without parent has no siblings. -/
theorem siblings_of_detached (hp : s.parent? r = none) : s.nextSibling? r = none ∧ s.previousSibling? r = none := by
  simp [nextSibling?, previousSibling?, following, preceding, hp]

theorem getLast?_append_cons {α : Type} (l l' : List α) (y : α) :
    (l ++ y :: l').getLast? = (y :: l').getLast? := by
  rw [List.getLast?_append, List.getLast?_cons, Option.some_or]

namespace Shift

variable (h : s.Shift s' p r o front mid mid' back)
include h

theorem mem_iff (hx : x ≠ r) : x ∈ s.children p ↔ x ∈ front ∨ x ∈ back := by
  have hmid : x ∉ mid := fun hm => hx (h.only x hm)
  rw [h.children]
  simp [hmid]

theorem firstChild?_eq (x : NodeRef) : s'.firstChild? x =
    if front.getLast? = none ∧ x = p then (mid' ++ back).head? else s.firstChild? x := by
  by_cases hx : x = p
  · rw [hx, firstChild?, firstChild?, h.children, h.children']
    cases front with
    | nil => simp
    | cons y front => simp
  · rw [if_neg fun hc => hx hc.2, firstChild?, firstChild?, h.others x hx]

theorem lastChild?_eq (x : NodeRef) : s'.lastChild? x =
    if back.head? = none ∧ x = p then (front ++ mid').getLast? else s.lastChild? x := by
  by_cases hx : x = p
  · rw [hx, lastChild?, lastChild?, h.children, h.children']
    cases back with
    | nil => simp
    | cons y back =>
      rw [← List.append_assoc, ← List.append_assoc, getLast?_append_cons, getLast?_append_cons]
      simp
  · rw [if_neg fun hc => hx hc.2, lastChild?, lastChild?, h.others x hx]

/-- The siblings of a node that has another parent do not change. -/
theorem siblings_eq (hx : x ≠ r) (hp : s.parent? x ≠ some p) :
    x ∉ front ∧ x ∉ back ∧ s'.nextSibling? x = s.nextSibling? x ∧ s'.previousSibling? x = s.previousSibling? x := by
  have hm : ¬ (x ∈ front ∨ x ∈ back) := fun hm =>
    hp (h.before.parent?_eq_some_iff.mpr ((h.mem_iff hx).mpr hm))
  rw [not_or] at hm
  exact ⟨hm.1, hm.2, siblings_congr ((h.parent? x).trans (if_neg hx)) fun q hq => h.others q fun he => hp (he ▸ hq)⟩

/-- **The link to the sibling behind changes at the node in front of the place only.** -/
theorem nextSibling?_eq (hx : x ≠ r) : s'.nextSibling? x =
    if front.getLast? = some x then (mid' ++ back).head? else s.nextSibling? x := by
  by_cases hp : s.parent? x = some p
  swap
  · obtain ⟨hfront, -, hnext, -⟩ := h.siblings_eq hx hp
    rw [if_neg fun hl => hfront (List.mem_of_getLast? hl), hnext]
  rcases (h.mem_iff hx).mp (h.before.parent?_eq_some_iff.mp hp) with hm | hm
  · -- in front of the place
    obtain ⟨l, l', rfl⟩ := List.append_of_mem hm
    have hc : s.children p = l ++ x :: (l' ++ (mid ++ back)) := by rw [h.children]; simp
    have hc' : s'.children p = l ++ x :: (l' ++ (mid' ++ back)) := by rw [h.children']; simp
    rw [h.before.nextSibling?_eq hc, h.after.nextSibling?_eq hc']
    cases l' with
    | nil => simp
    | cons y l' =>
      have hlast : (l ++ x :: y :: l').getLast? ≠ some x := by
        rw [← List.singleton_append, ← List.append_assoc, getLast?_append_cons]
        exact fun hl => (h.before.notMem_of_children hc).2 (List.mem_append_left _ (List.mem_of_getLast? hl))
      rw [if_neg hlast]
      rfl
  · -- behind the place
    obtain ⟨l, l', rfl⟩ := List.append_of_mem hm
    have hc : s.children p = (front ++ (mid ++ l)) ++ x :: l' := by rw [h.children]; simp
    have hc' : s'.children p = (front ++ (mid' ++ l)) ++ x :: l' := by rw [h.children']; simp
    have hlast : front.getLast? ≠ some x := fun hl =>
      (h.before.notMem_of_children hc).1 (List.mem_append_left _ (List.mem_of_getLast? hl))
    rw [if_neg hlast, h.before.nextSibling?_eq hc, h.after.nextSibling?_eq hc']

/-- **The link to the sibling in front changes at the node behind the place only.** -/
theorem previousSibling?_eq (hx : x ≠ r) : s'.previousSibling? x =
    if back.head? = some x then (front ++ mid').getLast? else s.previousSibling? x := by
  by_cases hp : s.parent? x = some p
  swap
  · obtain ⟨-, hback, -, hprevious⟩ := h.siblings_eq hx hp
    rw [if_neg fun hl => hback (List.mem_of_head? hl), hprevious]
  rcases (h.mem_iff hx).mp (h.before.parent?_eq_some_iff.mp hp) with hm | hm
  · -- in front of the place
    obtain ⟨l, l', rfl⟩ := List.append_of_mem hm
    have hc : s.children p = l ++ x :: (l' ++ (mid ++ back)) := by rw [h.children]; simp
    have hc' : s'.children p = l ++ x :: (l' ++ (mid' ++ back)) := by rw [h.children']; simp
    have hhead : back.head? ≠ some x := fun hl => (h.before.notMem_of_children hc).2
      (List.mem_append_right _ (List.mem_append_right _ (List.mem_of_head? hl)))
    rw [if_neg hhead, h.before.previousSibling?_eq hc, h.after.previousSibling?_eq hc']
  · -- behind the place
    obtain ⟨l, l', rfl⟩ := List.append_of_mem hm
    have hc : s.children p = (front ++ (mid ++ l)) ++ x :: l' := by rw [h.children]; simp
    have hc' : s'.children p = (front ++ (mid' ++ l)) ++ x :: l' := by rw [h.children']; simp
    rw [h.before.previousSibling?_eq hc, h.after.previousSibling?_eq hc']
    cases l with
    | nil => simp
    | cons y l =>
      have hhead : (y :: l ++ x :: l').head? ≠ some x := fun hl => by
        have hy : y = x := Option.some.inj hl
        exact (h.before.notMem_of_children hc).1 (by simp [hy])
      rw [if_neg hhead, ← List.append_assoc, ← List.append_assoc, getLast?_append_cons, getLast?_append_cons]

end Shift

/-! ## Taking out and placing -/

theorem cells_takeOut (s : Store) (r : NodeRef) : (s.takeOut r).cells = s.cells := by
  unfold takeOut
  split <;> rfl

theorem cells_scatter (s : Store) (r : NodeRef) : (s.scatter r).cells = s.cells := by
  unfold scatter
  split <;> rfl

/-- A node keeps its tree when it is taken out. -/
theorem tree?_takeOut (s : Store) (r : NodeRef) : (s.takeOut r).tree? r = s.tree? r := by
  unfold takeOut
  split
  · rename_i ht
    have hself := (mem_trees_of_tree? ht).2
    rw [tree?, Forest.find?_node, if_pos (is_iff.mpr hself), ht]
  · rfl

theorem get?_eq_none (hr : ¬ s.Live r) : s.get? r = none := by
  rwa [← Option.not_isSome_iff_eq_none, get?_isSome_iff]

theorem takeOut_of_detached (hp : s.parent? r = none) : s.takeOut r = s := by
  unfold takeOut
  rw [hp]

namespace WellFormed

variable {c : NodeRef}

/-- **A node that is taken out leaves its place.** -/
theorem shift_takeOut (h : s.WellFormed) (hc : s.children p = front ++ r :: back) :
    s.Shift (s.takeOut r) p r none front [r] [] back where
  toReparents := h.takeOut r
  cells := cells_takeOut s r
  get? := h.get?_takeOut r
  children := hc
  children' := by
    have hn := h.nodup_children p
    rw [hc] at hn
    rw [h.children_takeOut, hc, filter_ne_of_nodup hn, List.nil_append]
  others q hq := by
    have hp : s.parent? r = some p := h.parent?_eq_some_iff.mpr (hc ▸ List.mem_append_right _ List.mem_cons_self)
    have hne : s.parent? r ≠ some q := fun he => hq (Option.some.inj (he.symm.trans hp))
    rw [h.children_takeOut, h.filter_children hne]
  only _ hx := List.mem_singleton.mp hx

/-- **A detached node that is placed comes to its place.** -/
theorem shift_place (h : s.WellFormed) (hi : s.Insertable p c) (hd : s.parent? c = none)
    (hc : s.children p = front ++ back) : s.Shift (s.place p c back.head?) p c (some p) front [] [c] back := by
  have hseats := h.seats_place hi back.head?
  have hstay : ∀ q, (s.children q).filter (· != c) = s.children q := fun q => h.filter_children (by simp [hd])
  have hn := h.nodup_children p
  rw [hc] at hn
  have hhead : ∀ b ∈ back.head?, b ∉ front := fun b hb hf =>
    (List.nodup_append.mp hn).2.2 b hf b (List.mem_of_head? hb) rfl
  refine ⟨h.place hi back.head?, cells_place s p c _, hseats.get?, hc, ?_, fun q hq => ?_, by simp⟩
  · rw [hseats.children, hstay, hc, seat_append front back hhead, List.singleton_append]
  · rw [hseats.others q hq, hstay]

end WellFormed

/-! ## Equal children -/

/-- The links are told by the children of all nodes. -/
theorem WellFormed.linkedNode_congr (h : s.WellFormed) (h' : s'.WellFormed) (hc : ∀ q, s'.children q = s.children q) :
    s'.linkedNode = s.linkedNode := by
  have hp : ∀ x, s'.parent? x = s.parent? x := fun x => by
    refine Option.ext fun q => ?_
    rw [h'.parent?_eq_some_iff, h.parent?_eq_some_iff, hc]
  have hs := fun x => siblings_congr (hp x) fun q _ => hc q
  funext x d
  simp only [linkedNode, hp, firstChild?, lastChild?, hc, (hs x).1, (hs x).2]

/-- A node that is not live has no links. -/
theorem WellFormed.linkedNode_of_notLive (h : s.WellFormed) (hr : ¬ s.Live r) (d : NodeData) :
    s.linkedNode r d = { data := d } := by
  have hp : s.parent? r = none := by
    rw [← Option.not_isSome_iff_eq_none, Option.isSome_iff_exists]
    exact fun ⟨q, hq⟩ => hr (h.parent?_isSome hq).1
  obtain ⟨hnext, hprevious⟩ := siblings_of_detached hp
  simp [linkedNode, hp, hnext, hprevious, firstChild?, lastChild?, children_eq_nil hr]

theorem tree?_create_of_ne {data : NodeData} (hx : x ≠ (s.create data).1) :
    (s.create data).2.tree? x = s.tree? x := by
  have hi : ¬ is x ⟨(s.create data).1, data⟩ = true := fun he => hx (is_iff.mp he).symm
  change (Forest.node ⟨(s.create data).1, data⟩ .nil s.forest).find? (is x) = _
  rw [Forest.find?_node, if_neg hi]
  rfl

theorem get?_create_eq (s : Store) (data : NodeData) (x : NodeRef) :
    (s.create data).2.get? x = if x = (s.create data).1 then some data else s.get? x := by
  split
  · rename_i hx
    rw [hx, get?_create]
  · rename_i hx
    rw [get?, tree?_create_of_ne hx, get?]

theorem WellFormed.children_create (h : s.WellFormed) (data : NodeData) (q : NodeRef) :
    (s.create data).2.children q = s.children q := by
  have hnew : ¬ s.Live (s.create data).1 := h.plant_notLive data .nil
  by_cases hq : q = (s.create data).1
  · rw [hq, children_of_tree? (s.tree?_create data), children_eq_nil hnew]
    rfl
  · rw [children, tree?_create_of_ne hq, children]

theorem children_setData (s : Store) (r : NodeRef) (data : NodeData) (q : NodeRef) :
    (s.setData r data).children q = s.children q := by
  rw [children, tree?_setData, children]
  cases s.tree? q with
  | none => rfl
  | some t =>
    simp only [Option.map_some, Forest.roots_relabel, List.map_map]
    refine List.map_congr_left fun n _ => ?_
    simp only [Function.comp_apply]
    split <;> rfl

end Store

namespace Arena.Depicts

open Store

variable {a : Arena} {s s' : Store} {p r c : NodeRef} {front mid back : List NodeRef}
  {data old : NodeData}

/-- The neighbours of a place are nodes. -/
theorem neighbours_ne (h : s.WellFormed) (hc : s.children p = front ++ (mid ++ back)) :
    front.getLast? ≠ some .nowhere ∧ back.head? ≠ some .nowhere := by
  have hmem : ∀ x ∈ s.children p, x ≠ .nowhere := fun x hx => ne_nowhere h (live_of_child hx).2
  rw [hc] at hmem
  refine ⟨fun hl => ?_, fun hl => ?_⟩
  · exact hmem _ (List.mem_append_left _ (List.mem_of_getLast? hl)) rfl
  · exact hmem _ (List.mem_append_right _ (List.mem_append_right _ (List.mem_of_head? hl))) rfl

theorem getD_ite {α : Type} (c : Prop) [Decidable c] (o o' : Option α) (d : α) :
    (if c then o else o').getD d = if c then o.getD d else o'.getD d := apply_ite (·.getD d) c o o'

/-- **Links that are patched around a node depict the tree in which it has left its place.** -/
theorem unlink (h : a.Depicts s) (hs : s.Shift s' p r none front [r] [] back) :
    (a.unlink r p (front.getLast?.getD .nowhere) (back.head?.getD .nowhere)).Depicts s' where
  wellFormed := hs.after
  cells := by rw [cells_unlink, h.cells, hs.cells]
  get? x := by
    obtain ⟨hp, hn⟩ := neighbours_ne h.wellFormed hs.children
    rw [get?_unlink hp hn, h.get?, hs.get?, Option.map_map]
    refine congrArg (Option.map · (s.get? x)) (funext fun d => ?_)
    have hparent := hs.parent? x
    by_cases hx : x = r
    · subst hx
      rw [if_pos rfl] at hparent
      obtain ⟨hnext, hprevious⟩ := siblings_of_detached hparent
      simp [linkedNode, hparent, hnext, hprevious, hs.firstChild?_eq, hs.lastChild?_eq, getD_ite]
    · rw [if_neg hx] at hparent
      simp [linkedNode, hparent, hs.nextSibling?_eq hx, hs.previousSibling?_eq hx, hs.firstChild?_eq,
        hs.lastChild?_eq, hx, getD_ite]

/-- **Links that are patched around a node depict the tree in which it has come to its place.** -/
theorem link (h : a.Depicts s) (hs : s.Shift s' p r (some p) front [] [r] back) :
    (a.link p r (back.head?.getD .nowhere)).Depicts s' where
  wellFormed := hs.after
  cells := by rw [cells_link, h.cells, hs.cells]
  get? x := by
    obtain ⟨hp, hn⟩ := neighbours_ne h.wellFormed hs.children
    have hprevious : back.head?.elim (a.lastChild? p) a.previousSibling? = front.getLast? := by
      have hc : s.children p = front ++ back := hs.children
      cases back with
      | nil => rw [List.head?_nil, Option.elim_none, h.lastChild?, Store.lastChild?, hc, List.append_nil]
      | cons b back => rw [List.head?_cons, Option.elim_some, h.previousSibling?, h.wellFormed.previousSibling?_eq hc]
    rw [get?_link hp hn hprevious, h.get?, hs.get?, Option.map_map]
    refine congrArg (Option.map · (s.get? x)) (funext fun d => ?_)
    have hparent := hs.parent? x
    by_cases hx : x = r
    · subst hx
      have hc : s'.children p = front ++ x :: back := hs.children'
      obtain ⟨hfront, hback⟩ := hs.after.notMem_of_children hc
      have hlast : front.getLast? ≠ some x := fun hl => hfront (List.mem_of_getLast? hl)
      have hhead : back.head? ≠ some x := fun hl => hback (List.mem_of_head? hl)
      simp [linkedNode, hparent, hs.after.nextSibling?_eq hc, hs.after.previousSibling?_eq hc, hs.firstChild?_eq,
        hs.lastChild?_eq, hlast, hhead, getD_ite]
    · rw [if_neg hx] at hparent
      simp [linkedNode, hparent, hs.nextSibling?_eq hx, hs.previousSibling?_eq hx, hs.firstChild?_eq,
        hs.lastChild?_eq, hx, getD_ite]

/-! ## Edits -/

/-- What depicts one store depicts another one that has the same cells, nodes and children. -/
theorem congr (h : a.Depicts s) (h' : s'.WellFormed) (hcells : s'.cells = s.cells) (hget : ∀ x, s'.get? x = s.get? x)
    (hc : ∀ q, s'.children q = s.children q) : a.Depicts s' where
  wellFormed := h'
  cells := h.cells.trans hcells.symm
  get? x := by rw [h.get?, hget, h.wellFormed.linkedNode_congr h' hc]

/-- **A node between its neighbours is taken out.** -/
theorem takeOut (h : a.Depicts s) (hp : s.parent? r = some p) :
    (a.unlink r p ((s.previousSibling? r).getD .nowhere) ((s.nextSibling? r).getD .nowhere)).Depicts (s.takeOut r) := by
  obtain ⟨front, back, hc⟩ := List.append_of_mem (h.wellFormed.parent?_eq_some_iff.mp hp)
  rw [h.wellFormed.previousSibling?_eq hc, h.wellFormed.nextSibling?_eq hc]
  exact h.unlink (h.wellFormed.shift_takeOut hc)

/-- **A detached node comes in front of a child or behind all of them.** -/
theorem place (h : a.Depicts s) (hi : s.Insertable p c) (hd : s.parent? c = none) (before : Option NodeRef)
    (hb : ∀ b ∈ before, b ∈ s.children p) : (a.link p c (before.getD .nowhere)).Depicts (s.place p c before) := by
  obtain ⟨front, back, hc, rfl⟩ : ∃ front back, s.children p = front ++ back ∧ back.head? = before := by
    cases before with
    | none => exact ⟨s.children p, [], (List.append_nil _).symm, rfl⟩
    | some b =>
      obtain ⟨front, back, hc⟩ := List.append_of_mem (hb b rfl)
      exact ⟨front, b :: back, hc, rfl⟩
  exact h.link (h.wellFormed.shift_place hi hd hc)

/-- A node that is taken out first takes the same place. -/
theorem place_takeOut (h : a.Depicts (s.takeOut c)) (hs : s.WellFormed) (hi : s.Insertable p c)
    (before : Option NodeRef) (hb : ∀ b ∈ before, b ∈ s.children p ∧ b ≠ c) :
    (a.link p c (before.getD .nowhere)).Depicts (s.place p c before) := by
  have hout := hs.takeOut c
  have hi' : (s.takeOut c).Insertable p c := by
    refine ⟨?_, ?_, ?_⟩
    · simpa only [hs.get?_takeOut] using hi.container
    · simpa only [hs.get?_takeOut] using hi.movable
    · rw [hout.ancestors hi.notAbove]
      exact hi.notAbove
  have hd : (s.takeOut c).parent? c = none := by rw [hout.parent?, if_pos rfl]
  have hb' : ∀ b ∈ before, b ∈ (s.takeOut c).children p := fun b hm => by
    rw [hs.children_takeOut, List.mem_filter]
    exact ⟨(hb b hm).1, by simpa using (hb b hm).2⟩
  have hseats := hs.seats_place hi before
  have hseats' := hout.after.seats_place hi' before
  have htwice : ∀ q, ((s.takeOut c).children q).filter (· != c) = (s.children q).filter (· != c) := fun q => by
    simp only [hs.children_takeOut, List.filter_filter, Bool.and_self]
  refine (h.place hi' hd before hb').congr (hs.place hi before).after ?_ (fun x => ?_) fun q => ?_
  · rw [cells_place, cells_place, cells_takeOut]
  · rw [hseats.get?, hseats'.get?, hs.get?_takeOut]
  · by_cases hq : q = p
    · rw [hq, hseats.children, hseats'.children, htwice]
    · rw [hseats.others q hq, hseats'.others q hq, htwice]

/-- The children are let go one after the other, or all at once. -/
theorem scatter_takeOut (h : a.Depicts ((s.takeOut c).scatter p)) (hs : s.WellFormed) (hp : s.parent? c = some p) :
    a.Depicts (s.scatter p) := by
  have hs' := (hs.takeOut c).after
  refine h.congr (hs.scatter p) ?_ (fun x => ?_) fun q => ?_
  · rw [cells_scatter, cells_scatter, cells_takeOut]
  · rw [hs.get?_scatter, hs'.get?_scatter, hs.get?_takeOut]
  · rw [hs.children_scatter, hs'.children_scatter]
    split
    · rfl
    · rename_i hq
      have hne : s.parent? c ≠ some q := fun he => hq (Option.some.inj (he.symm.trans hp))
      rw [hs.children_takeOut, hs.filter_children hne]

/-- **A new node lies in the same cell.** -/
theorem create (h : a.Depicts s) (hd : data.isDocument = false) :
    (a.push { data }).1 = (s.create data).1 ∧ (a.push { data }).2.Depicts (s.create data).2 := by
  have hs := h.wellFormed
  have hs' : (s.create data).2.WellFormed := (hs.adds_create hd).after
  have hnew : ¬ s.Live (s.create data).1 := hs.plant_notLive data .nil
  have hfst : (a.push { data }).1 = (s.create data).1 := by rw [push_fst, h.cells]; rfl
  have hfree : ∀ i ∈ a.free, i < a.capacity := fun i hi => by
    have hmem : i ∈ s.cells.free := h.cells ▸ hi
    rw [h.capacity]
    exact (hs.cells.mem_free.mp hmem).1
  refine ⟨hfst, hs', ?_, fun x => ?_⟩
  · rw [cells_push, h.cells]
    rfl
  · rw [get?_push hfree, hfst, get?_create_eq, hs.linkedNode_congr hs' (hs.children_create data)]
    split
    · rename_i hx
      rw [hx, Option.map_some, hs.linkedNode_of_notLive hnew]
    · exact h.get? x

/-- **A node is given other data and keeps its links.** -/
theorem setData (h : a.Depicts s) (hg : s.get? r = some old) (hc : data.isContainer = old.isContainer)
    (hd : data.isDocument = old.isDocument) : (a.update r ({ · with data })).Depicts (s.setData r data) := by
  have hs' := (h.wellFormed.guards.setData hg hc hd notMem_refsOf_nil).wellFormed
  refine ⟨hs', ?_, fun x => ?_⟩
  · rw [cells_update, h.cells]
    rfl
  · rw [get?_update, h.get?, get?_setData, h.wellFormed.linkedNode_congr hs' (children_setData s r data)]
    split
    · cases s.get? x <;> rfl
    · rfl

/-- **A detached tree is removed**, and all else keeps its links. -/
theorem without (h : a.Depicts s) (hr : r ≠ .root) (hp : s.parent? r = none) :
    ((a.descendants r).foldl release a).Depicts (s.without r) := by
  have hs := h.wellFormed
  have hs' : (s.without r).WellFormed := (hs.guards.without hr notMem_refsOf_nil (by simp)).wellFormed
  have hlive : ∀ x ∈ s.descendants r, (a.get? x).isSome := fun x hx => h.isSome_iff.mpr (live_of_mem_descendants hx)
  refine ⟨hs', ?_, fun x => ?_⟩
  · rw [cells_foldl_release, h.cells, h.descendants]
    rfl
  rw [h.descendants, get?_foldl_release (hs.distinct.nodup_descendants r) hlive]
  split
  · rename_i hx
    rw [get?_eq_none (hs.distinct.live_without.not.mpr fun hl => hl.2 hx), Option.map_none]
  · rename_i hx
    have hchildren : ∀ q, q ∉ s.descendants r → (s.without r).children q = s.children q := fun q hq => by
      rw [hs.children_without hq, hs.filter_children (by simp [hp])]
    have hparent : (s.without r).parent? x = s.parent? x := by
      rw [Store.parent?, hs.ancestors_without hr hx, Store.parent?]
    have habove : ∀ q, s.parent? x = some q → q ∉ s.descendants r := fun q hq => by
      rw [hs.mem_descendants_iff] at hx ⊢
      exact fun hm => hx (hs.ancestors_subset (hs.mem_ancestors_of_parent? hq) hm)
    obtain ⟨hnext, hprevious⟩ := siblings_congr hparent fun q hq => hchildren q (habove q hq)
    have hlinks : (s.without r).linkedNode x = s.linkedNode x := by
      funext d
      simp only [linkedNode, hparent, hnext, hprevious, Store.firstChild?, Store.lastChild?, hchildren x hx]
    rw [h.get?, hs.distinct.get?_without hx, hlinks]

/-- A tree is removed after it was taken out, or at once. -/
theorem without_takeOut (h : a.Depicts ((s.takeOut r).without r)) (hs : s.WellFormed) (hr : r ≠ .root) :
    a.Depicts (s.without r) := by
  have hs' := (hs.takeOut r).after
  have hbelow : (s.takeOut r).descendants r = s.descendants r := by
    rw [Store.descendants, tree?_takeOut, Store.descendants]
  have hw : ((s.takeOut r).without r).WellFormed := h.wellFormed
  have hlive : ∀ x, ((s.takeOut r).without r).Live x ↔ (s.without r).Live x := fun x => by
    rw [hs'.distinct.live_without, hs.distinct.live_without, hbelow, (hs.takeOut r).live]
  refine h.congr (hs.guards.without hr notMem_refsOf_nil (by simp)).wellFormed ?_ (fun x => ?_) fun q => ?_
  · rw [Store.without, Store.without, hbelow, cells_takeOut]
  · by_cases hx : x ∈ s.descendants r
    · have hgone := hs.distinct.live_without.not.mpr fun hl => hl.2 hx
      rw [get?_eq_none hgone, get?_eq_none ((hlive x).not.mpr hgone)]
    · rw [hs.distinct.get?_without hx, hs'.distinct.get?_without (hbelow ▸ hx), hs.get?_takeOut]
  · by_cases hq : q ∈ s.descendants r
    · have hgone := hs.distinct.live_without.not.mpr fun hl => hl.2 hq
      rw [children_eq_nil hgone, children_eq_nil ((hlive q).not.mpr hgone)]
    · rw [hs.children_without hq, hs'.children_without (hbelow ▸ hq), hs.children_takeOut, List.filter_filter]
      simp only [Bool.and_self]

end Arena.Depicts

end DomHost
