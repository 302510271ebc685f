import DomHost.Proofs.Store.Ancestry

/-!
# Trees that are put together from below

A tree can be planted as a whole, or its nodes can be created one by one in pre-order and put under their
parents when the last of their siblings is there. Both ways lead to the same store.

* `Store.plantRow`: trees that are planted one after the other; the last one comes to stand at the front;
* **`Store.forM_appendChild`**: a row that becomes the children of the node behind it;
* **`Store.gather_plantRow`**: a node, a row, and the row put under the node are one tree planted;
* `Store.Gains`: a store in front of which detached trees have come;
* `Store.childAtPath?_append`: ways that are put together.
-/

namespace DomHost

namespace Forest

variable {α : Type} {p : α → Bool}

/-- The trees of the top level in the opposite order. -/
def reverse : Forest α → Forest α
  | nil => nil
  | node a c n => n.reverse ++ node a c nil

theorem node_append (a : α) (c n g : Forest α) : node a c n ++ g = node a c (n ++ g) := rfl

theorem append_nil (f : Forest α) : f ++ nil = f := by
  induction f with
  | nil => rfl
  | node a c n _ ihn => rw [node_append, ihn]

theorem append_assoc (f g h : Forest α) : f ++ g ++ h = f ++ (g ++ h) := by
  induction f with
  | nil => rfl
  | node a c n _ ihn => rw [node_append, node_append, node_append, ihn]

theorem prune_append (f g : Forest α) : (f ++ g).prune p = f.prune p ++ g.prune p := by
  induction f with
  | nil => rfl
  | node a c n _ ihn =>
    rw [node_append, prune, prune, ihn]
    split
    · rfl
    · rw [node_append]

theorem editChildren_append (f g : Forest α) (h : Forest α → Forest α) :
    (f ++ g).editChildren p h = f.editChildren p h ++ g.editChildren p h := by
  induction f with
  | nil => rfl
  | node a c n _ ihn =>
    rw [node_append, editChildren, editChildren, ihn]
    split <;> rw [node_append]

/-- A tree that goes in front of nothing goes to the end. -/
theorem adopt_last (f : Forest α) {before : α → Bool} (h : ∀ a, before a = false) (t : α × Forest α) :
    f.adopt before t = f ++ node t.1 t.2 nil := by
  induction f with
  | nil => rfl
  | node a c n _ ihn => rw [adopt, h a, if_neg (by simp), ihn, node_append]

theorem roots_append (f g : Forest α) : (f ++ g).roots = f.roots ++ g.roots := by
  rw [roots_eq_map_tops, tops_append, List.map_append, ← roots_eq_map_tops, ← roots_eq_map_tops]

theorem pathTo?_append (f g : Forest α) (above : List α) :
    (f ++ g).pathTo? p above = (f.pathTo? p above).or (g.pathTo? p above) := by
  induction f with
  | nil => rfl
  | node a c n _ ihn =>
    rw [node_append, pathTo?_node, pathTo?_node, ihn]
    split
    · rfl
    · exact Option.or_assoc.symm

theorem length_toList_reverse (f : Forest α) : f.reverse.toList.length = f.toList.length := by
  induction f with
  | nil => rfl
  | node a c n _ ihn =>
    rw [reverse, toList_append, List.length_append, ihn, toList_node, toList_node, toList_nil, List.append_nil]
    simp only [List.length_cons, List.length_append]
    omega

end Forest

namespace Store

variable {s : Store} {data : NodeData} {f c : Forest NodeData} {g D old : Forest Node} {p : Node}

/-- Adds detached trees one after the other, in cells drawn in pre-order. -/
def plantRow (s : Store) (f : Forest NodeData) : Forest Node × Store :=
  let (g, cells) := f.rename embody s.cells
  (g, ⟨cells, g.reverse ++ s.forest⟩)

theorem plantRow_nil (s : Store) : s.plantRow .nil = (.nil, s) := rfl

/-- The trees of a row are planted one after the other. -/
theorem plantRow_node (s : Store) (data : NodeData) (c f : Forest NodeData) :
    s.plantRow (.node data c f) =
      (.node ⟨(s.plant data c).1, data⟩ (c.rename embody s.cells.draw.2).1 ((s.plant data c).2.plantRow f).1,
        ((s.plant data c).2.plantRow f).2) := by
  have hassoc := fun g : Forest Node => Forest.append_assoc g.reverse
    (.node ⟨s.cells.draw.1, data⟩ (c.rename embody s.cells.draw.2).1 .nil) s.forest
  simp only [plantRow, plant, embody, Forest.rename, Forest.reverse, hassoc]
  rfl

theorem map_data_plantRow (s : Store) (f : Forest NodeData) : (s.plantRow f).1.map (·.data) = f :=
  map_data_rename f s.cells

theorem WellFormed.plantRow (h : s.WellFormed) (hf : Plantables f) : (s.plantRow f).2.WellFormed := by
  induction f generalizing s with
  | nil => exact h
  | node data c f _ ih =>
    rw [plantRow_node]
    exact ih (h.plant hf.1) hf.2

/-! ## A row under its parent -/

/-- An element gets a node that is not above it as its last child. -/
theorem appendChild_of_insertable {parent child : NodeRef} (hi : s.Insertable parent child)
    (hparent : ∀ d, s.get? parent = some d → d.isDocument = false) :
    appendChild parent child s = .ok () (s.place parent child none) := by
  obtain ⟨⟨above, habove, hcontainer⟩, ⟨below, hbelow, hmovable⟩, hanc⟩ := hi
  have hnot : s.isInclusiveAncestor child parent = false := by
    simpa [isInclusiveAncestor] using hanc
  have hcheck : checkInsertion parent child s = .ok () s := by
    unfold checkInsertion
    rw [bind_of_ok (require_of_get? habove), bind_of_ok (require_of_get? hbelow)]
    simp only [hcontainer, hmovable, hparent above habove, Bool.false_eq_true, Bool.false_and, if_true, if_false]
    rw [get_bind_apply]
    simp only [hnot, Bool.false_eq_true, if_false]
    rfl
  unfold appendChild insertBefore
  rw [bind_of_ok hcheck]
  rfl

/-- A node at the top has nothing above it. -/
theorem WellFormed.ancestors_of_root (h : s.WellFormed) (hp : p ∈ s.forest.roots) :
    s.ancestors p.ref = [p.ref] := by
  obtain ⟨n, path, -, -, hanc⟩ := exists_climb (s := s) (r := p.ref)
    (List.mem_map_of_mem (Forest.mem_toList_of_mem_roots hp))
  have hnone := h.parent?_root hp
  rw [parent?, hanc] at hnone
  cases path with
  | nil => exact hanc
  | cons m path => simp at hnone

section Gather

variable {a : Node} {k n : Forest Node}

theorem WellFormed.insertable_row (h : s.WellFormed)
    (hforest : s.forest = (n.reverse ++ .node a k .nil) ++ .node p D old) (hp : p.data.isContainer = true)
    (ha : a.data.isDocument = false) : s.Insertable p.ref a.ref := by
  have hroots : s.forest.roots = (n.reverse.roots ++ [a]) ++ p :: old.roots := by
    rw [hforest, Forest.roots_append, Forest.roots_append]
    rfl
  have hpr : p ∈ s.forest.roots := by simp [hroots]
  have har : a ∈ s.forest.roots := by simp [hroots]
  refine ⟨⟨p.data, h.get?_eq_some_iff.mpr (Forest.mem_toList_of_mem_roots hpr), hp⟩,
    ⟨a.data, h.get?_eq_some_iff.mpr (Forest.mem_toList_of_mem_roots har), ha⟩, ?_⟩
  rw [h.ancestors_of_root hpr, List.mem_singleton]
  -- both stand at the top, where no node stands twice
  intro he
  have hnodup := h.nodup_roots_children
  rw [List.map_append] at hnodup
  have hnodup := (List.nodup_append.mp hnodup).1
  rw [hroots, List.map_append, List.nodup_append] at hnodup
  exact hnodup.2.2 a.ref (by simp) p.ref (by simp) he

/-- The last tree of a row goes under the node behind the row. -/
theorem WellFormed.place_row (h : s.WellFormed)
    (hforest : s.forest = (n.reverse ++ .node a k .nil) ++ .node p D old) :
    s.place p.ref a.ref none = ⟨s.cells, n.reverse ++ .node p (D ++ .node a k .nil) old⟩ := by
  have hnodup : (s.forest.toList.map (·.ref)).Nodup := h.nodup
  rw [hforest] at hnodup
  simp only [Forest.toList_append, Forest.toList_node, Forest.toList_nil, List.append_nil, List.map_append,
    List.map_cons] at hnodup
  have htree : s.tree? a.ref = some (a, k) := by
    refine h.tree?_eq_some (t := (a, k)) (Forest.mem_trees_of_mem_tops ?_)
    rw [hforest, Forest.tops_append, Forest.tops_append]
    simp [Forest.tops]
  have hnot : ∀ {f : Forest Node} {r : NodeRef}, r ∉ f.toList.map (·.ref) → ∀ m ∈ f.toList, ¬ is r m = true :=
    fun hr m hm he => hr (is_iff.mp he ▸ List.mem_map_of_mem hm)
  obtain ⟨hfront, hback, hapart⟩ := List.nodup_append.mp hnodup
  have hp := (List.nodup_cons.mp hback).1
  have hrow : a.ref ∉ n.reverse.toList.map (·.ref) := fun hm =>
    (List.nodup_append.mp hfront).2.2 _ hm _ List.mem_cons_self rfl
  have hrowp : p.ref ∉ n.reverse.toList.map (·.ref) := fun hm =>
    hapart _ (List.mem_append_left _ hm) _ List.mem_cons_self rfl
  have hbehind : ∀ r ∈ p.ref :: (D.toList.map (·.ref) ++ old.toList.map (·.ref)), a.ref ≠ r :=
    hapart a.ref (List.mem_append_right _ List.mem_cons_self)
  have hD : a.ref ∉ D.toList.map (·.ref) := fun hm =>
    hbehind _ (List.mem_cons_of_mem _ (List.mem_append_left _ hm)) rfl
  have hold : a.ref ∉ old.toList.map (·.ref) := fun hm =>
    hbehind _ (List.mem_cons_of_mem _ (List.mem_append_right _ hm)) rfl
  have holdp : p.ref ∉ old.toList.map (·.ref) := fun hm => hp (List.mem_append_right _ hm)
  have hpa : ¬ is a.ref p = true := fun he => hbehind p.ref List.mem_cons_self (is_iff.mp he).symm
  have hprune : s.forest.prune (is a.ref) = n.reverse ++ .node p D old := by
    rw [hforest, Forest.prune_append, Forest.prune_append, Forest.prune_eq_self (hnot hrow), Forest.prune,
      if_pos (is_iff.mpr rfl), Forest.prune, Forest.prune, if_neg hpa, Forest.prune_eq_self (hnot hD),
      Forest.prune_eq_self (hnot hold), Forest.append_nil]
  have hadopt : D.adopt (fun m => none == some m.ref) (a, k) = D ++ .node a k .nil :=
    D.adopt_last (fun _ => rfl) (a, k)
  rw [Store.place, htree]
  simp only [hprune, Forest.editChildren_append, Forest.editChildren_eq_self (hnot hrowp), Forest.editChildren,
    if_pos (is_iff.mpr (rfl : p.ref = p.ref)), Forest.editChildren_eq_self (hnot holdp), hadopt]

end Gather

/-- **A row becomes the children of the node behind it.** -/
theorem WellFormed.forM_appendChild (h : s.WellFormed) (hforest : s.forest = g.reverse ++ .node p D old)
    (hp : p.data.isContainer = true) (hdoc : p.data.isDocument = false)
    (hg : ∀ a ∈ g.roots, a.data.isDocument = false) :
    (g.roots.map (·.ref)).forM (appendChild p.ref) s = .ok () ⟨s.cells, .node p (D ++ g) old⟩ := by
  induction g generalizing s D with
  | nil =>
    rw [Forest.append_nil, ← show s.forest = .node p D old from hforest]
    rfl
  | node a k n _ ihn =>
    obtain ⟨ha, hn⟩ := List.forall_mem_cons.mp hg
    have hi := h.insertable_row hforest hp ha
    have hparent : ∀ d, s.get? p.ref = some d → d.isDocument = false := by
      intro d hd
      have hm : p ∈ s.forest.toList := by
        rw [hforest, Forest.toList_append]
        exact List.mem_append_right _ (by simp)
      rw [h.get?_eq_some_iff.mpr hm] at hd
      exact Option.some.inj hd ▸ hdoc
    have hplace := h.place_row hforest
    have hnext := (h.guards.place none hi (by simp [refsOf]) (by simp [refsOf])).wellFormed
    rw [hplace] at hnext
    change (appendChild p.ref a.ref >>= fun _ => (n.roots.map (·.ref)).forM (appendChild p.ref)) s = _
    rw [bind_of_ok (appendChild_of_insertable hi hparent), hplace, ihn hnext rfl hn, Forest.append_assoc]
    rfl

/-- **A node, a row, and the row put under the node are one tree planted.** -/
theorem gather_plantRow (s : Store) (data : NodeData) (f : Forest NodeData) :
    let row := (s.create data).2.plantRow f
    row.2.forest = row.1.reverse ++ .node ⟨(s.create data).1, data⟩ .nil s.forest ∧
      (⟨row.2.cells, .node ⟨(s.create data).1, data⟩ row.1 s.forest⟩ : Store) = (s.plant data f).2 :=
  ⟨rfl, rfl⟩

theorem childAtPath?_append (s : Store) (r : NodeRef) (path more : List Nat) :
    s.childAtPath? r (path ++ more) = (s.childAtPath? r path).bind (s.childAtPath? · more) := by
  induction path generalizing r with
  | nil => rfl
  | cons i path ih =>
    rw [List.cons_append, childAtPath?, childAtPath?, Option.bind_assoc]
    exact congrArg _ (funext fun c => ih c)

/-! ## Trees in front of the others -/

/-- Detached trees of so many nodes in all have come in front of the others. -/
structure Gains (n : Nat) (s t : Store) : Prop where
  front : ∃ g : Forest Node, t.forest = g ++ s.forest ∧ g.toList.length = n
  same : n = 0 → t = s

namespace Gains

theorem refl (s : Store) : Gains 0 s s := ⟨⟨.nil, rfl, rfl⟩, fun _ => rfl⟩

theorem trans {n m : Nat} {t u : Store} (h : Gains n s t) (h' : Gains m t u) : Gains (n + m) s u where
  front := by
    obtain ⟨⟨f, hf, hn⟩, ⟨g, hg, hm⟩⟩ := And.intro h.front h'.front
    refine ⟨g ++ f, by rw [hg, hf, Forest.append_assoc], ?_⟩
    rw [Forest.toList_append, List.length_append, hn, hm, Nat.add_comm]
  same hzero := (h'.same (by omega)).trans (h.same (by omega))

/-- The nodes that have come are new, and no others have. -/
theorem exists_new {n : Nat} {t : Store} (h : Gains n s t) (ht : t.WellFormed) :
    ∃ new : List NodeRef, new.Nodup ∧ new.length = n ∧ (∀ r ∈ new, ¬ s.Live r) ∧
      ∀ r, t.Live r ↔ r ∈ new ∨ s.Live r := by
  obtain ⟨g, hg, hn⟩ := h.front
  have hrefs : t.refs = g.toList.map (·.ref) ++ s.refs := by
    rw [refs, hg, Forest.toList_append, List.map_append]
    rfl
  have hnodup := ht.nodup
  rw [hrefs, List.nodup_append] at hnodup
  refine ⟨g.toList.map (·.ref), hnodup.1, by rw [List.length_map, hn], fun r hr hl => ?_, fun r => ?_⟩
  · exact hnodup.2.2 r hr r hl rfl
  · rw [Live, hrefs, List.mem_append]
    rfl

section Old

variable {n : Nat} {t : Store} {r : NodeRef}

/-- A node that was there is behind the trees that have come. -/
theorem exists_behind (h : Gains n s t) (ht : t.WellFormed) (hr : s.Live r) :
    ∃ g : Forest Node, t.forest = g ++ s.forest ∧ ∀ m ∈ g.toList, ¬ is r m = true := by
  obtain ⟨g, hg, -⟩ := h.front
  refine ⟨g, hg, fun m hm he => ?_⟩
  have hnodup := ht.nodup
  rw [refs, hg, Forest.toList_append, List.map_append, List.nodup_append] at hnodup
  exact hnodup.2.2 r (is_iff.mp he ▸ List.mem_map_of_mem hm) r hr rfl

/-- The nodes that were there keep their data and all below them. -/
theorem tree?_eq (h : Gains n s t) (ht : t.WellFormed) (hr : s.Live r) : t.tree? r = s.tree? r := by
  obtain ⟨g, hg, hbehind⟩ := h.exists_behind ht hr
  rw [tree?, hg, Forest.find?_append, Forest.find?_eq_none.mpr hbehind, Option.none_or]
  rfl

/-- They keep what is above them. -/
theorem ancestors_eq (h : Gains n s t) (ht : t.WellFormed) (hr : s.Live r) : t.ancestors r = s.ancestors r := by
  obtain ⟨g, hg, hbehind⟩ := h.exists_behind ht hr
  rw [ancestors, hg, Forest.pathTo?_append, Forest.pathTo?_eq_none.mpr hbehind, Option.none_or]
  rfl

end Old

end Gains

theorem gains_create (s : Store) (data : NodeData) : Gains 1 s (s.create data).2 :=
  ⟨⟨.node ⟨_, data⟩ .nil .nil, rfl, rfl⟩, fun h => absurd h Nat.one_ne_zero⟩

theorem gains_plantRow (s : Store) (f : Forest NodeData) : Gains f.toList.length s (s.plantRow f).2 where
  front := by
    refine ⟨(s.plantRow f).1.reverse, rfl, ?_⟩
    rw [Forest.length_toList_reverse, ← List.length_map (·.data), ← Forest.toList_map, map_data_plantRow]
  same hzero := by
    cases f with
    | nil => rfl
    | node data c f => simp at hzero

end Store

end DomHost
