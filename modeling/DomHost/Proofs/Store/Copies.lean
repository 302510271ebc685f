import DomHost.Proofs.Store.Sprouts

/-!
# Copies of trees

A copy is a new detached tree, and there is a renaming that carries every node of the original to the node in its
place. A walk through the original that creates one node after the other makes the same copy: in pre-order the
parent of a node is copied before it, and so are its siblings in front of it.

* `Node.move`, **`Forest.exists_move`**: trees of one shape with the same data differ by a renaming;
* `Store.Copies`, **`Store.WellFormed.copies_plant`**: what holds of a copy;
* `Store.cloneSubtree_eq`, **`Store.foldlM_copyNode`**: copying as a whole and node by node;
* **`Store.WellFormed.cloneSubtree_copies`**: every live node other than the document is copied.
-/

namespace DomHost

/-- The node with another reference. -/
def Node.move (φ : NodeRef → NodeRef) (n : Node) : Node := { n with ref := φ n.ref }

namespace Forest

variable {α β : Type} {f k : Forest α}

/-- Forests of one shape with the same labels are the same. -/
theorem eq_of_map_eq {g : α → β} (hs : f.map g = k.map g) (hl : f.toList = k.toList) : f = k := by
  induction f generalizing k with
  | nil =>
    cases k with
    | nil => rfl
    | node b d m => cases hs
  | node a c n ihc ihn =>
    cases k with
    | nil => cases hs
    | node b d m =>
      obtain ⟨-, hc, hn⟩ := Forest.node.inj hs
      rw [toList_node, toList_node] at hl
      obtain ⟨rfl, hrest⟩ := List.cons.inj hl
      have hlen : c.toList.length = d.toList.length := by
        have hmap := congrArg (fun f : Forest β => f.toList.length) hc
        simpa only [toList_map, List.length_map] using hmap
      obtain ⟨hcl, hnl⟩ := List.append_inj hrest hlen
      rw [ihc hc hcl, ihn hn hnl]

/-- Nodes with the same data are carried to each other by a renaming. -/
theorem exists_move_of_map_data {l l' : List Node} (hd : l'.map (·.data) = l.map (·.data))
    (hn : (l.map (·.ref)).Nodup) : ∃ φ, l' = l.map (Node.move φ) := by
  induction l generalizing l' with
  | nil => exact ⟨id, List.map_eq_nil_iff.mp hd⟩
  | cons n l ih =>
    cases l' with
    | nil => cases hd
    | cons n' l' =>
      obtain ⟨hnl, hn⟩ := List.nodup_cons.mp hn
      obtain ⟨hdata, hd⟩ := List.cons.inj hd
      obtain ⟨φ, rfl⟩ := ih hd hn
      have hdata : n'.data = n.data := hdata
      have hfirst : n' = n.move (Function.update φ n.ref n'.ref) := by
        rw [Node.move, Function.update_self, ← hdata]
      refine ⟨Function.update φ n.ref n'.ref, List.cons_eq_cons.mpr ⟨hfirst, List.map_congr_left fun m hm => ?_⟩⟩
      have hne : m.ref ≠ n.ref := fun he => hnl (List.mem_map.mpr ⟨m, hm, he⟩)
      rw [Node.move, Node.move, Function.update_of_ne hne]

/-- **Trees of one shape with the same data differ by a renaming.** -/
theorem exists_move {f k : Forest Node} (hd : k.map (·.data) = f.map (·.data)) (hn : (f.toList.map (·.ref)).Nodup) :
    ∃ φ, k = f.map (Node.move φ) := by
  have hdata := congrArg Forest.toList hd
  rw [toList_map, toList_map] at hdata
  obtain ⟨φ, hφ⟩ := exists_move_of_map_data hdata hn
  have hshape : (f.map (Node.move φ)).map (·.data) = f.map (·.data) := map_map _ _ f
  exact ⟨φ, eq_of_map_eq (hd.trans hshape.symm) (hφ.trans (toList_map f _).symm)⟩

end Forest

namespace Store

variable {s s₀ t : Store} {p q r c x : NodeRef} {n : Node} {k : Forest Node} {data : NodeData} {e : Element}
  {φ : NodeRef → NodeRef} {copies : List (NodeRef × NodeRef)}

/-! ## Copies -/

/-- The tree of a node has a copy with a given top: new nodes, each with the data and in the place of the one that it
is a copy of. Every node that was there before is as it was. -/
structure Copies (s : Store) (r c : NodeRef) (φ : NodeRef → NodeRef) (t : Store) : Prop where
  wellFormed : t.WellFormed
  top : φ r = c
  detached : t.parent? c = none
  fresh : ∀ x ∈ s.descendants r, ¬ s.Live (φ x)
  injective : ∀ x ∈ s.descendants r, ∀ y ∈ s.descendants r, φ x = φ y → x = y
  descendants : t.descendants c = (s.descendants r).map φ
  data : ∀ x ∈ s.descendants r, t.get? (φ x) = s.get? x
  children : ∀ x ∈ s.descendants r, t.children (φ x) = (s.children x).map φ
  /-- The same way leads to a node and to its copy. -/
  childAtPath? : ∀ path, t.childAtPath? c path = (s.childAtPath? r path).map φ
  /-- Nothing else is new. -/
  live : ∀ x, t.Live x ↔ s.Live x ∨ ∃ y ∈ s.descendants r, φ y = x
  oldTree? : ∀ x, s.Live x → t.tree? x = s.tree? x
  oldAncestors : ∀ x, s.Live x → t.ancestors x = s.ancestors x
  len : t.len = s.len + (s.descendants r).length

/-- A node at or below another has a tree that is part of that one's. -/
theorem Distinct.exists_tree?_below (h : s.Distinct) (ht : s.tree? r = some (n, k)) (hx : x ∈ s.descendants r) :
    ∃ v ∈ (n, k) :: k.trees, v.1.ref = x ∧ s.tree? x = some v := by
  rw [descendants_of_tree? ht, Forest.labels_eq_map_trees, List.map_map] at hx
  obtain ⟨v, hv, rfl⟩ := List.mem_map.mp hx
  refine ⟨v, hv, rfl, h.tree?_eq_some ?_⟩
  have htree := (mem_trees_of_tree? ht).1
  rcases List.mem_cons.mp hv with rfl | hv
  · exact htree
  · exact Forest.mem_trees_of_mem_below htree hv

section Moved

variable (hs : s.WellFormed) (ht : t.Distinct) (hr : s.tree? r = some (n, k))
  (hc : (n.move φ, k.map (Node.move φ)) ∈ t.forest.trees)
include hs ht hr hc

/-- Where a tree stands renamed, every part of it does. -/
theorem exists_tree?_moved (hx : x ∈ s.descendants r) :
    ∃ v, s.tree? x = some v ∧ t.tree? (φ x) = some (v.1.move φ, v.2.map (Node.move φ)) := by
  obtain ⟨v, hv, rfl, htree⟩ := hs.distinct.exists_tree?_below hr hx
  refine ⟨v, htree, ht.tree?_eq_some (t := (v.1.move φ, v.2.map (Node.move φ))) ?_⟩
  rcases List.mem_cons.mp hv with rfl | hv
  · exact hc
  · refine Forest.mem_trees_of_mem_below hc ?_
    rw [Forest.trees_map]
    exact List.mem_map_of_mem hv

theorem get?_moved (hx : x ∈ s.descendants r) : t.get? (φ x) = s.get? x := by
  obtain ⟨v, hv, hmoved⟩ := exists_tree?_moved hs ht hr hc hx
  rw [get?, get?, hv, hmoved]
  rfl

theorem children_moved (hx : x ∈ s.descendants r) : t.children (φ x) = (s.children x).map φ := by
  obtain ⟨v, hv, hmoved⟩ := exists_tree?_moved hs ht hr hc hx
  rw [children_of_tree? hv, children_of_tree? hmoved, Forest.roots_map, List.map_map, List.map_map]
  rfl

/-- The same way leads to corresponding nodes. -/
theorem childAtPath?_moved (hx : x ∈ s.descendants r) (path : List Nat) :
    t.childAtPath? (φ x) path = (s.childAtPath? x path).map φ := by
  induction path generalizing x with
  | nil => rfl
  | cons i path ih =>
    rw [childAtPath?, childAtPath?, children_moved hs ht hr hc hx, List.getElem?_map]
    cases hi : (s.children x)[i]? with
    | none => rfl
    | some y =>
      have hparent := hs.parent?_eq_some_iff.mpr (List.mem_of_getElem? hi)
      rw [hs.mem_descendants_iff] at hx
      exact ih (hs.mem_descendants_iff.mpr (hs.ancestors_subset (hs.mem_ancestors_of_parent? hparent) hx))

omit hs in
theorem descendants_moved : t.descendants (φ r) = (s.descendants r).map φ := by
  have hself := (mem_trees_of_tree? hr).2
  have htree := ht.tree?_eq_some hc
  rw [show (n.move φ).ref = φ r from congrArg φ hself] at htree
  rw [descendants_of_tree? htree, descendants_of_tree? hr, Forest.labels_mk, Forest.labels_mk, Forest.toList_map,
    List.map_cons, List.map_cons, List.map_cons, List.map_map, List.map_map]
  rfl

end Moved

theorem self_mem_descendants (ht : s.tree? r = some (n, k)) : r ∈ s.descendants r := by
  rw [descendants_of_tree? ht, Forest.labels_mk, List.map_cons, (mem_trees_of_tree? ht).2]
  exact List.mem_cons_self

theorem length_descendants (ht : s.tree? r = some (n, k)) : (s.descendants r).length = k.size + 1 := by
  rw [descendants_of_tree? ht, Forest.labels_mk, List.length_map, List.length_cons, Forest.length_toList]

/-- A tree that is planted with the data of another is there with other references. -/
theorem Distinct.exists_moved_plant (h : s.Distinct) (ht : s.tree? r = some (n, k)) :
    ∃ φ, (s.plant n.data (k.map (·.data))).1 = φ r ∧
      (n.move φ, k.map (Node.move φ)) ∈ (s.plant n.data (k.map (·.data))).2.forest.trees := by
  have hnodup := h.nodup_descendants r
  rw [descendants_of_tree? ht, Forest.labels_mk] at hnodup
  obtain ⟨φ, hφ⟩ := Forest.exists_move (f := .node n k .nil)
    (k := .node (embody n.data s.cells).1 ((k.map (·.data)).rename embody s.cells.draw.2).1 .nil)
    (by simp only [Forest.map, map_data_rename]; rfl)
    (by rwa [Forest.toList_node, Forest.toList_nil, List.append_nil])
  obtain ⟨htop, hbelow, -⟩ := Forest.node.inj hφ
  refine ⟨φ, ?_, ?_⟩
  · rw [← (mem_trees_of_tree? ht).2]
    exact congrArg Node.ref htop
  · rw [← htop, ← hbelow]
    exact List.mem_cons_self

/-- **A tree that is planted with the data of another is a copy of it.** -/
theorem WellFormed.copies_plant (h : s.WellFormed) (ht : s.tree? r = some (n, k)) (hd : n.data.isDocument = false) :
    ∃ φ, s.Copies r (s.plant n.data (k.map (·.data))).1 φ (s.plant n.data (k.map (·.data))).2 := by
  have hplants := h.plants_plant (h.plantable_copy ht hd)
  have hdistinct := hplants.wellFormed.distinct
  obtain ⟨φ, hcopy, hc⟩ := h.distinct.exists_moved_plant ht
  have hnew := descendants_moved hdistinct ht hc
  rw [hcopy] at hplants ⊢
  have hnodup := hdistinct.nodup_descendants (φ r)
  rw [hnew] at hnodup
  refine ⟨φ, hplants.wellFormed, rfl, hplants.parent?, fun x hx => ?_,
    fun x hx y hy => List.inj_on_of_nodup_map hnodup hx hy, hnew, fun x => get?_moved h hdistinct ht hc,
    fun x => children_moved h hdistinct ht hc, childAtPath?_moved h hdistinct ht hc (self_mem_descendants ht),
    fun x => ?_, hplants.tree?, hplants.ancestors, ?_⟩
  · exact hplants.fresh _ (hnew ▸ List.mem_map_of_mem hx)
  · rw [hplants.live, hnew, List.mem_map]
  · rw [hplants.len, length_descendants ht, ← Forest.length_toList, Forest.toList_map, List.length_map,
      Forest.length_toList]

/-! ## Copying -/

/-- No other tree has the document at its top. -/
theorem WellFormed.isDocument_tree? {tree : Node × Forest Node} (h : s.WellFormed) (ht : s.tree? r = some tree)
    (hr : r ≠ .root) : tree.1.data.isDocument = false := by
  obtain ⟨hm, href⟩ := mem_trees_of_tree? ht
  by_contra hdoc
  have hroot := h.onlyDocument tree.1 (Forest.mem_toList_of_mem_trees hm) (by simpa using hdoc)
  exact hr (href.symm.trans hroot)

/-- A node other than the document is copied. -/
theorem cloneSubtree_eq {tree : Node × Forest Node} (ht : s.tree? r = some tree)
    (hn : tree.1.data.isDocument = false) :
    cloneSubtree r s = .ok (s.copy tree.1 tree.2).1 (s.copy tree.1 tree.2).2 := by
  unfold cloneSubtree
  rw [get_bind_apply, ht]
  simp only [hn]
  rfl

/-! ### Node by node -/

/-- A node whose parent has a copy by then gets one that is put behind the children of that. -/
theorem copyNode_of_copied (hx : s.get? x = some data) (hp : s.parent? x = some q) (hq : copies.lookup q = some p)
    (hr : x ≠ r) (hnew : ¬ s.Live s.cells.draw.1) :
    copyNode r copies x s = .ok ((x, s.cells.draw.1) :: copies) (s.sprout p (.node data .nil .nil)) := by
  rw [← place_create_eq_sprout hnew p]
  unfold copyNode
  rw [bind_of_ok (require_of_get? hx), get_bind_apply]
  have hcreate : (modifyGet (·.create data) : StoreM NodeRef) s = .ok (s.create data).1 (s.create data).2 := rfl
  have habove : (some q).bind (List.lookup · copies) = some p := hq
  rw [bind_of_ok hcreate, hp, habove, if_pos hr]
  rfl

theorem lookup_cons_of_ne {a b : NodeRef} (h : x ≠ a) : ((a, b) :: copies).lookup x = copies.lookup x := by
  rw [List.lookup_cons, beq_false_of_ne h]

/-- A part of a store that is walked through below a node: trees of the store, which are next to each other. -/
structure Row (s : Store) (q : NodeRef) (k : Forest Node) : Prop where
  trees : ∀ v ∈ k.trees, v ∈ s.forest.trees
  parent? : ∀ m ∈ k.roots, s.parent? m.ref = some q
  nodup : (q :: k.toList.map (·.ref)).Nodup

namespace Row

variable {m : Node} {j l : Forest Node}

theorem tree? (h : s.WellFormed) (hk : s.Row q (.node m j l)) : s.tree? m.ref = some (m, j) :=
  h.tree?_eq_some (hk.trees (m, j) List.mem_cons_self)

theorem next (hk : s.Row q (.node m j l)) : s.Row q l where
  trees v hv := hk.trees v (List.mem_cons_of_mem _ (List.mem_append_right _ hv))
  parent? a ha := hk.parent? a (List.mem_cons_of_mem _ ha)
  nodup := by
    have hn := hk.nodup
    rw [Forest.toList_node] at hn
    refine hn.sublist (List.Sublist.cons_cons _ ?_)
    exact ((List.sublist_append_right j.toList l.toList).trans (List.sublist_cons_self _ _)).map _

end Row

/-- The children of a node are a part below it. -/
theorem WellFormed.row (h : s.WellFormed) (ht : s.tree? r = some (n, k)) : s.Row r k := by
  obtain ⟨htree, rfl⟩ := mem_trees_of_tree? ht
  refine ⟨fun v hv => Forest.mem_trees_of_mem_below htree hv, fun m hm => ?_, ?_⟩
  · rw [h.parent?_eq_some_iff, children_of_tree? ht]
    exact List.mem_map_of_mem hm
  · have hn := h.distinct.nodup_descendants n.ref
    rwa [descendants_of_tree? ht, Forest.labels_mk, List.map_cons] at hn

/-- **The copies of a part sprout under the copy of the node above it.** The table gains what the part holds. -/
theorem foldlM_copyNode (h₀ : s₀.WellFormed) (hk : s₀.Row q k) (hr : r ∉ k.toList.map (·.ref))
    (hd : ∀ m ∈ k.toList, m.data.isDocument = false) (hs : s₀.Grows s) (hq : copies.lookup q = some p)
    (hp : k.map (·.data) ≠ .nil → ∃ e, s.get? p = some (.element e)) :
    ∃ copies', (k.toList.map (·.ref)).foldlM (copyNode r) copies s = .ok copies' (s.sprout p (k.map (·.data))) ∧
      ∀ x ∉ k.toList.map (·.ref), copies'.lookup x = copies.lookup x := by
  induction k generalizing s q p copies with
  | nil =>
    rw [Forest.map, sprout_nil]
    exact ⟨copies, rfl, fun _ _ => rfl⟩
  | node m j l ihj ihl =>
    obtain ⟨e, he⟩ := hp (by simp [Forest.map])
    have ht := hk.tree? h₀
    have hget : s₀.get? m.ref = some m.data := by rw [get?, ht]; rfl
    have hlive : s₀.Live m.ref := live_of_tree? ht
    have hnew := hs.wellFormed.plant_notLive m.data .nil
    rw [Forest.toList_node, List.map_cons, List.map_append] at hr ⊢
    obtain ⟨hrm, hr⟩ := not_or.mp (List.mem_cons.not.mp hr)
    obtain ⟨hrj, hrl⟩ := not_or.mp (List.mem_append.not.mp hr)
    rw [Forest.toList_node, List.forall_mem_cons, List.forall_mem_append] at hd
    obtain ⟨hdm, hdj, hdl⟩ := hd
    have hplant := h₀.plantable_copy ht hdm
    -- the node itself
    have hstep := copyNode_of_copied (r := r) (hs.get?_of_some hget)
      ((hs.parent? _ hlive).trans (hk.parent? m List.mem_cons_self)) hq (fun he => hrm he.symm) hnew
    obtain ⟨-, hleaf, hcopy⟩ := hs.wellFormed.append_create he hdm
    -- what is below it
    have hlookup : ((m.ref, s.cells.draw.1) :: copies).lookup m.ref = some s.cells.draw.1 := by simp
    obtain ⟨copies₁, hbelow, hkeeps₁⟩ := ihj (h₀.row ht) hrj hdj (hs.trans hleaf) hlookup
      (hplant.exists_get? hcopy)
    have hgrown := hleaf.trans (hleaf.wellFormed.grows_sprout (hplant.exists_get? hcopy) hplant.growable)
    -- what is behind it
    obtain ⟨hqm, hqj, -⟩ : q ≠ m.ref ∧ q ∉ j.toList.map (·.ref) ∧ q ∉ l.toList.map (·.ref) := by
      simpa [not_or] using (List.nodup_cons.mp hk.nodup).1
    have hlookup₁ : copies₁.lookup q = some p := by rw [hkeeps₁ q hqj, lookup_cons_of_ne hqm, hq]
    obtain ⟨copies₂, hbehind, hkeeps₂⟩ := ihl hk.next hrl hdl (hs.trans hgrown) hlookup₁
      fun _ => ⟨e, hgrown.get?_of_some he⟩
    refine ⟨copies₂, ?_, fun x hx => ?_⟩
    · rw [List.foldlM_cons, bind_of_ok hstep, List.foldlM_append, bind_of_ok hbelow, hbehind, sprout_node hnew]
      rfl
    · obtain ⟨hxm, hx⟩ := not_or.mp (List.mem_cons.not.mp hx)
      obtain ⟨hxj, hxl⟩ := not_or.mp (List.mem_append.not.mp hx)
      rw [hkeeps₂ x hxl, hkeeps₁ x hxj, lookup_cons_of_ne hxm]

/-- **The walk plants a tree with the data of the original.** -/
theorem WellFormed.cloneByWalk_eq (h : s.WellFormed) (ht : s.tree? r = some (n, k)) (hd : n.data.isDocument = false) :
    cloneByWalk r s = .ok (s.plant n.data (k.map (·.data))).1 (s.plant n.data (k.map (·.data))).2 := by
  have hget : s.get? r = some n.data := by rw [get?, ht]; rfl
  have hself : n.ref = r := (mem_trees_of_tree? ht).2
  have hnodes : s.descendants r = r :: k.toList.map (·.ref) := by
    rw [descendants_of_tree? ht, Forest.labels_mk, List.map_cons, hself]
  have hrow := h.row ht
  have hfirst : copyNode r [] r s = .ok [(r, (s.create n.data).1)] (s.create n.data).2 := by
    unfold copyNode
    rw [bind_of_ok (require_of_get? hget), get_bind_apply]
    have hcreate : (modifyGet (·.create n.data) : StoreM NodeRef) s = .ok (s.create n.data).1 (s.create n.data).2 := rfl
    rw [bind_of_ok hcreate, if_neg (not_not.mpr rfl)]
    rfl
  have hbelow : ∀ m ∈ k.toList, m.data.isDocument = false := fun m hm =>
    h.isDocument_eq_false ht hd (List.mem_cons_of_mem n hm)
  have htable : [(r, (s.create n.data).1)].lookup r = some (s.create n.data).1 := List.lookup_cons_self
  obtain ⟨copies, hrest, hkeeps⟩ := foldlM_copyNode (r := r) h hrow (List.nodup_cons.mp hrow.nodup).1 hbelow
    (h.grows_create hd) htable ((h.plantable_copy ht hd).exists_get? (s.get?_create n.data))
  have hloop : (s.descendants r).foldlM (copyNode r) [] s = .ok copies (s.plant n.data (k.map (·.data))).2 := by
    rw [hnodes, List.foldlM_cons, bind_of_ok hfirst, hrest, plant_eq_sprout h]
  have hlookup : copies.lookup r = some (s.create n.data).1 := by
    rw [hkeeps r (List.nodup_cons.mp hrow.nodup).1, htable]
  unfold cloneByWalk
  rw [bind_of_ok (require_of_get? hget)]
  rw [if_neg (by simp [hd])]
  beta_reduce
  rw [get_bind_apply, bind_of_ok hloop, hlookup]
  rfl

/-- **The walk makes the same copy, and fails alike.** -/
theorem WellFormed.cloneByWalk_eq_cloneSubtree (h : s.WellFormed) (r : NodeRef) : cloneByWalk r s = cloneSubtree r s := by
  cases ht : s.tree? r with
  | none =>
    have hl : ¬ s.Live r := fun hl => by
      rw [← tree?_isSome_iff, ht] at hl
      cases hl
    unfold cloneByWalk cloneSubtree
    rw [bind_of_error (require_of_not_live hl), get_bind_apply, ht]
    rfl
  | some t =>
    obtain ⟨n, k⟩ := t
    have hget : s.get? r = some n.data := by rw [get?, ht]; rfl
    cases hd : n.data.isDocument with
    | false => rw [h.cloneByWalk_eq ht hd, cloneSubtree_eq ht hd, copy_eq_plant]
    | true =>
      unfold cloneByWalk cloneSubtree
      rw [bind_of_ok (require_of_get? hget), if_pos hd, get_bind_apply, ht]
      simp only [hd]
      rfl

/-- **Every live node other than the document has a copy**, and copying node by node makes the same one. -/
theorem WellFormed.cloneSubtree_copies (h : s.WellFormed) (hl : s.Live r) (hr : r ≠ .root) :
    ∃ c φ t, cloneSubtree r s = .ok c t ∧ cloneByWalk r s = .ok c t ∧ s.Copies r c φ t := by
  obtain ⟨n, k, ht⟩ := exists_tree? hl
  have hd := h.isDocument_tree? ht hr
  obtain ⟨φ, hφ⟩ := h.copies_plant ht hd
  exact ⟨_, φ, _, by rw [cloneSubtree_eq ht hd, copy_eq_plant], h.cloneByWalk_eq ht hd, hφ⟩

/-- An element is copied with what is below it, and the copy takes a cell that a freed node has left. -/
theorem exists_cloneSubtree_copies : ∃ s : Store, s.WellFormed ∧ ∃ r c φ t, s.Live r ∧ r ≠ .root ∧
    cloneSubtree r s = .ok c t ∧ cloneByWalk r s = .ok c t ∧ s.Copies r c φ t ∧
    s.descendants r = [.cell 1 0, .cell 2 0, .cell 3 0, .cell 5 0] ∧
    (s.descendants r).map φ = [.cell 4 1, .cell 6 0, .cell 7 0, .cell 8 0] := by
  obtain ⟨s, h, hl, hd, t, ht, hnew⟩ : ∃ s : Store, s.WellFormed ∧ s.Live (.cell 1 0) ∧
      s.descendants (.cell 1 0) = [.cell 1 0, .cell 2 0, .cell 3 0, .cell 5 0] ∧
      ∃ t, cloneSubtree (.cell 1 0) s = .ok (.cell 4 1) t ∧
        t.descendants (.cell 4 1) = [.cell 4 1, .cell 6 0, .cell 7 0, .cell 8 0] :=
    ⟨_, wellFormed_new.foldl_apply [.createElement "div", .createElement "b", .createText "x", .createComment "y",
      .createElement "i", .appendChild (.cell 1 0) (.cell 2 0), .appendChild (.cell 2 0) (.cell 3 0),
      .appendChild (.cell 1 0) (.cell 5 0), .freeSubtree (.cell 4 0)],
      by decide +kernel, by decide +kernel, _, rfl, by decide +kernel⟩
  obtain ⟨c, φ, t', hclone, hwalk, hcopies⟩ := h.cloneSubtree_copies hl (by decide)
  obtain ⟨rfl, rfl⟩ := EStateM.Result.ok.inj (ht.symm.trans hclone)
  exact ⟨s, h, _, _, φ, _, hl, by decide, ht, hwalk, hcopies, hd, hcopies.descendants.symm.trans hnew⟩

end Store

end DomHost
