import DomHost.Markup.Import
import DomHost.Proofs.Store.WellFormed

/-!
# Edits of well-formed stores

Every edit of the forest keeps a store well formed. An edit away from given top-level trees also leaves
these trees as they are, and no edit but a removal ends the life of a node.

* `Store.Guards`: a well-formed store with given top-level trees and given live nodes;
* **`Store.Guards.place`**, `Store.Guards.takeOut`, `Store.Guards.scatter`: moving trees;
* `Store.Guards.plant`, `Store.Guards.setData`: new trees and new data;
* **`Store.Guards.without`**: removing a tree;
* `Store.tree?_create`, `Store.cells_place`: a new node, and the cells after a move.
-/

namespace DomHost.Store

/-! ## Guarded trees -/

/-- The references of the nodes in trees. -/
def refsOf (ts : List (Node × Forest Node)) : List NodeRef :=
  ts.flatMap fun t => (Forest.labels t).map (·.ref)

/-- A well-formed store with some of its top-level trees and some of its live nodes. -/
structure Guards (ts : List (Node × Forest Node)) (held : List NodeRef) (s : Store) : Prop where
  wellFormed : s.WellFormed
  tops : ∀ t ∈ ts, t ∈ s.forest.tops
  live : ∀ r ∈ held, s.Live r

/-- A well-formed store without anything to guard. -/
theorem WellFormed.guards {s : Store} (h : s.WellFormed) : s.Guards [] [] := ⟨h, by simp, by simp⟩

variable {s : Store} {r p : NodeRef} {ts : List (Node × Forest Node)} {held : List NodeRef}

theorem mem_refsOf : r ∈ refsOf ts ↔ ∃ t ∈ ts, ∃ n ∈ Forest.labels t, n.ref = r := by
  simp [refsOf]

theorem notMem_refsOf_nil : r ∉ refsOf [] := List.not_mem_nil

theorem mem_refsOf_cons {t : Node × Forest Node} :
    r ∈ refsOf (t :: ts) ↔ r ∈ (Forest.labels t).map (·.ref) ∨ r ∈ refsOf ts := by
  rw [refsOf, List.flatMap_cons, List.mem_append]
  rfl

theorem refsOf_subset {ts' : List (Node × Forest Node)} (h : ts' ⊆ ts) : refsOf ts' ⊆ refsOf ts := by
  intro x hx
  obtain ⟨t, ht, hn⟩ := mem_refsOf.mp hx
  exact mem_refsOf.mpr ⟨t, h ht, hn⟩

theorem not_is_of_notMem_refsOf (hr : r ∉ refsOf ts) {t : Node × Forest Node} (ht : t ∈ ts) :
    ∀ n ∈ Forest.labels t, ¬ is r n = true :=
  fun n hn he => hr (mem_refsOf.mpr ⟨t, ht, n, hn, is_iff.mp he⟩)

/-- The children of the nodes in a tree are in the tree. -/
theorem WellFormed.child_mem_labels (h : s.WellFormed) {t : Node × Forest Node}
    (ht : t ∈ s.forest.trees) (hp : p ∈ (Forest.labels t).map (·.ref)) (hr : r ∈ s.children p) :
    r ∈ (Forest.labels t).map (·.ref) := by
  rw [Forest.labels_eq_map_trees, List.map_map] at hp
  obtain ⟨u, hu, hup⟩ := List.mem_map.mp hp
  obtain ⟨v, hv, hvp, n, hn, rfl, -⟩ := mem_children hr
  rcases List.mem_cons.mp hu with rfl | hu
  · obtain rfl := h.tree_eq ht hv (hup.trans hvp.symm)
    exact List.mem_map_of_mem (List.mem_cons_of_mem _ (Forest.mem_toList_of_mem_roots hn))
  · obtain rfl := h.tree_eq (Forest.mem_trees_of_mem_below ht hu) hv (hup.trans hvp.symm)
    refine List.mem_map_of_mem (List.mem_cons_of_mem _ (Forest.mem_toList_of_mem_labels hu ?_))
    exact List.mem_cons_of_mem _ (Forest.mem_toList_of_mem_roots hn)

/-- The parents of the nodes in a top-level tree are in the tree. -/
theorem WellFormed.parent_mem_labels (h : s.WellFormed) {t : Node × Forest Node}
    (ht : t ∈ s.forest.tops) (hr : r ∈ (Forest.labels t).map (·.ref)) (hp : r ∈ s.children p) :
    p ∈ (Forest.labels t).map (·.ref) := by
  have htr := Forest.mem_trees_of_mem_tops ht
  obtain ⟨v, hv, rfl, n, hn, rfl, -⟩ := mem_children hp
  obtain ⟨m, hm, hmr⟩ := List.mem_map.mp hr
  rcases List.mem_cons.mp hm with rfl | hm
  · have hroot : t.1 ∈ s.forest.roots := by
      rw [Forest.roots_eq_map_tops]
      exact List.mem_map_of_mem ht
    exact absurd hmr (h.not_child_of_root hroot hv hn)
  · rcases List.mem_append.mp ((Forest.perm_roots_trees t.2).mem_iff.mp hm) with hm | hm
    · obtain rfl := h.eq_of_common_child htr hm hv hn hmr
      exact List.mem_map_of_mem List.mem_cons_self
    · obtain ⟨u, hu, hm⟩ := List.mem_flatMap.mp hm
      obtain rfl := h.eq_of_common_child (Forest.mem_trees_of_mem_below htr hu) hm hv hn hmr
      exact List.mem_map_of_mem (List.mem_cons_of_mem _ (Forest.mem_toList_of_mem_trees hu))

/-- Different top-level trees have no node in common. -/
theorem WellFormed.top_eq (h : s.WellFormed) {t u : Node × Forest Node} (ht : t ∈ s.forest.tops)
    (hu : u ∈ s.forest.tops) (hr : r ∈ (Forest.labels t).map (·.ref))
    (hr' : r ∈ (Forest.labels u).map (·.ref)) : t = u := by
  by_contra hne
  have hd := h.nodup
  rw [refs, Forest.toList_eq_flatMap_tops, List.map_flatMap] at hd
  have hp := (List.nodup_flatMap.mp hd).2
  have : Std.Symm (Function.onFun List.Disjoint fun t : Node × Forest Node =>
      (Forest.labels t).map (·.ref)) := ⟨fun _ _ hd => List.Disjoint.symm hd⟩
  exact hp.forall ht hu hne hr hr'

namespace Guards

theorem child_notMem (h : s.Guards ts held) (hp : p ∉ refsOf ts) (hr : r ∈ s.children p) :
    r ∉ refsOf ts := by
  intro hm
  obtain ⟨t, ht, n, hn, rfl⟩ := mem_refsOf.mp hm
  obtain ⟨m, hm, rfl⟩ := List.mem_map.mp
    (h.wellFormed.parent_mem_labels (h.tops t ht) (List.mem_map_of_mem hn) hr)
  exact hp (mem_refsOf.mpr ⟨t, ht, m, hm, rfl⟩)

theorem parent_notMem (h : s.Guards ts held) (hr : r ∉ refsOf ts) (hp : s.parent? r = some p) :
    p ∉ refsOf ts := by
  intro hm
  obtain ⟨t, ht, n, hn, rfl⟩ := mem_refsOf.mp hm
  obtain ⟨m, hm, rfl⟩ := List.mem_map.mp
    (h.wellFormed.child_mem_labels (Forest.mem_trees_of_mem_tops (h.tops t ht))
      (List.mem_map_of_mem hn) (h.wellFormed.parent?_eq_some_iff.mp hp))
  exact hr (mem_refsOf.mpr ⟨t, ht, m, hm, rfl⟩)

theorem descendant_notMem (h : s.Guards ts held) (hp : p ∉ refsOf ts) (hr : r ∈ s.descendants p) :
    r ∉ refsOf ts := by
  intro hm
  obtain ⟨t, ht, n, hn, rfl⟩ := mem_refsOf.mp hm
  cases hu : s.tree? p with
  | none => simp [descendants, hu] at hr
  | some u =>
    rw [descendants_of_tree? hu] at hr
    obtain ⟨hut, rfl⟩ := mem_trees_of_tree? hu
    obtain ⟨v, hv, hsub⟩ := Forest.exists_top hut
    obtain ⟨m, hm, hmr⟩ := List.mem_map.mp hr
    obtain rfl := h.wellFormed.top_eq (h.tops t ht) hv (List.mem_map_of_mem hn)
      (hmr ▸ List.mem_map_of_mem (hsub m hm))
    exact hp (mem_refsOf.mpr ⟨t, ht, u.1, hsub u.1 List.mem_cons_self, rfl⟩)

theorem live_of_mem_refsOf (h : s.Guards ts held) (hr : r ∈ refsOf ts) : s.Live r := by
  obtain ⟨t, ht, n, hn, rfl⟩ := mem_refsOf.mp hr
  exact List.mem_map_of_mem (Forest.mem_toList_of_mem_tops (h.tops t ht) hn)

/-- The nodes below a live node outside the trees are live and outside them too. -/
theorem childAtPath?_spec (h : s.Guards ts held) (hp : s.Live p) (hn : p ∉ refsOf ts) {path : List Nat}
    (hr : s.childAtPath? p path = some r) : s.Live r ∧ r ∉ refsOf ts := by
  induction path generalizing p with
  | nil =>
    obtain rfl := Option.some.inj hr
    exact ⟨hp, hn⟩
  | cons i path ih =>
    obtain ⟨c, hc, hr⟩ := Option.bind_eq_some_iff.mp hr
    have hm : c ∈ s.children p := List.mem_of_getElem? hc
    exact ih (live_of_child hm).2 (h.child_notMem hn hm) hr

theorem weaken (h : s.Guards ts held) {ts' : List (Node × Forest Node)} {held' : List NodeRef}
    (ht : ts' ⊆ ts) (hl : held' ⊆ held) : s.Guards ts' held' :=
  ⟨h.wellFormed, fun t hm => h.tops t (ht hm), fun r hm => h.live r (hl hm)⟩

end Guards

/-! ## Moving trees -/

/-- The forest of a store may be put in another order. -/
theorem Guards.rearrange (h : s.Guards ts held) {f : Forest Node}
    (hp : f.toList.Perm s.forest.toList)
    (hb : f.BearsOnly fun n => n.data.isContainer = true)
    (hd : ⟨.root, .document⟩ ∈ f.roots) (ht : ∀ t ∈ ts, t ∈ f.tops) :
    ({ s with forest := f } : Store).Guards ts held where
  wellFormed :=
    { cells := h.wellFormed.cells.perm (hp.map fun n : Node => n.ref)
      bears := hb
      document := hd
      onlyDocument := fun n hn => h.wellFormed.onlyDocument n (hp.mem_iff.mp hn) }
  tops := ht
  live := fun r hr => (hp.map fun n : Node => n.ref).mem_iff.mpr (h.live r hr)

theorem document_mem_prune {f : Forest Node} (hd : ⟨.root, .document⟩ ∈ f.roots) (hr : r ≠ .root) :
    ⟨.root, .document⟩ ∈ (f.prune (is r)).roots := by
  rw [Forest.roots_prune]
  refine List.mem_filter.mpr ⟨hd, ?_⟩
  simp [is, hr.symm]

theorem WellFormed.parent?_document (h : s.WellFormed) : s.parent? .root = none :=
  h.parent?_root h.document

theorem WellFormed.ne_root_of_parent? (h : s.WellFormed) (hp : s.parent? r = some p) : r ≠ .root := by
  rintro rfl
  rw [h.parent?_document] at hp
  exact absurd hp (by simp)

theorem Distinct.perm_takeOut (h : s.Distinct) (r : NodeRef) :
    (s.takeOut r).forest.toList.Perm s.forest.toList := by
  unfold Store.takeOut
  split
  · rename_i p n c hp ht
    have hprune := Forest.perm_prune (h.countP_le_one r) ht
    rw [Forest.labels_mk, List.cons_append] at hprune
    rw [Forest.toList_node]
    exact hprune.symm
  · exact List.Perm.refl _

theorem Guards.takeOut (h : s.Guards ts held) (hr : r ∉ refsOf ts) : (s.takeOut r).Guards ts held := by
  have hperm := h.wellFormed.distinct.perm_takeOut r
  unfold Store.takeOut at hperm ⊢
  split
  · rename_i p n c hp ht
    have hne := h.wellFormed.ne_root_of_parent? hp
    have hb := h.wellFormed.bears.of_mem_trees (mem_trees_of_tree? ht).1
    rw [hp, ht] at hperm
    refine h.rearrange hperm ⟨hb.1, hb.2, h.wellFormed.bears.prune⟩ ?_ fun t htm => ?_
    · exact List.mem_cons_of_mem _ (document_mem_prune h.wellFormed.document hne)
    · refine List.mem_cons_of_mem _ (Forest.mem_tops_prune (h.tops t htm) ?_)
      exact not_is_of_notMem_refsOf hr htm
  · exact h

/-- A node may be put under a parent. -/
structure Insertable (s : Store) (parent child : NodeRef) : Prop where
  container : ∃ d, s.get? parent = some d ∧ d.isContainer = true
  movable : ∃ d, s.get? child = some d ∧ d.isDocument = false
  notAbove : child ∉ s.ancestors parent

theorem WellFormed.document_data (h : s.WellFormed) {d : NodeData} (hd : s.get? .root = some d) :
    d = .document := by
  have he := h.node_eq (h.get?_eq_some_iff.mp hd) (Forest.mem_toList_of_mem_roots h.document) rfl
  exact congrArg Node.data he

theorem WellFormed.ne_root (h : s.WellFormed) {d : NodeData} (hd : s.get? r = some d)
    (hn : d.isDocument = false) : r ≠ .root := by
  rintro rfl
  rw [h.document_data hd] at hn
  exact absurd hn (by simp [NodeData.isDocument])

/-- The labels of a forest stay when a tree moves under a node outside it. -/
theorem Distinct.perm_place (h : s.Distinct) {parent child : NodeRef} {n m : Node}
    {c d : Forest Node} (before : Node → Bool) (hc : s.tree? child = some (n, c))
    (hp : (s.forest.prune (is child)).find? (is parent) = some (m, d)) :
    ((s.forest.prune (is child)).editChildren (is parent) (·.adopt before (n, c))).toList.Perm
      s.forest.toList := by
  have hprune := Forest.perm_prune (h.countP_le_one child) hc
  have hle : (s.forest.prune (is child)).toList.countP (is parent) ≤ 1 := by
    have h1 := h.countP_le_one parent
    rw [hprune.countP_eq, List.countP_append] at h1
    omega
  have hedit := Forest.perm_editChildren (·.adopt before (n, c)) hle hp
  have hadopt := hedit.trans ((Forest.perm_adopt d before (n, c)).append_left _)
  rw [← List.append_assoc] at hadopt
  exact ((List.perm_append_right_iff _).mp hadopt).trans
    (List.perm_append_comm.trans hprune.symm)

/-- A node that is not below another survives the removal of that one's tree. -/
theorem Distinct.find?_prune (h : s.Distinct) {parent child : NodeRef} {t : Node × Forest Node}
    (hc : s.tree? child = some t) (hp : s.Live parent) (hn : child ∉ s.ancestors parent) :
    ∃ u, (s.forest.prune (is child)).find? (is parent) = some u ∧ u.1.ref = parent ∧
      u.1 ∈ s.forest.toList := by
  have hprune := Forest.perm_prune (h.countP_le_one child) hc
  obtain ⟨m, hm, rfl⟩ := List.mem_map.mp hp
  have hmem : m ∈ (s.forest.prune (is child)).toList := by
    rcases List.mem_append.mp (hprune.mem_iff.mp hm) with hl | hl
    · refine absurd (h.mem_ancestors ?_) hn
      rw [descendants_of_tree? hc]
      exact List.mem_map_of_mem hl
    · exact hl
  obtain ⟨u, hu⟩ := Forest.exists_find? hmem (is_iff.mpr rfl)
  obtain ⟨hut, hur⟩ := Forest.mem_trees_of_find? hu
  refine ⟨u, hu, is_iff.mp hur, hprune.mem_iff.mpr (List.mem_append_right _ ?_)⟩
  exact Forest.mem_toList_of_mem_trees hut

theorem Guards.place (h : s.Guards ts held) {parent child : NodeRef} (before : Option NodeRef)
    (hi : s.Insertable parent child) (hp : parent ∉ refsOf ts) (hc : child ∉ refsOf ts) :
    (s.place parent child before).Guards ts held := by
  obtain ⟨d, hd, hcont⟩ := hi.container
  obtain ⟨e, he, hdoc⟩ := hi.movable
  obtain ⟨c, hct⟩ := exists_tree?_of_get? he
  have hlive : s.Live parent := get?_isSome_iff.mp (by rw [hd]; rfl)
  obtain ⟨⟨m, k⟩, hu, hur, hum⟩ := h.wellFormed.distinct.find?_prune hct hlive hi.notAbove
  have hb := h.wellFormed.bears.of_mem_trees (mem_trees_of_tree? hct).1
  have hprune := Forest.perm_prune (h.wellFormed.countP_le_one child) hct
  unfold Store.place
  rw [hct]
  refine h.rearrange (h.wellFormed.distinct.perm_place _ hct hu) ?_ ?_ fun t ht => ?_
  · refine h.wellFormed.bears.prune.editChildren (fun f hf => hf.adopt hb.1 hb.2) fun n hn hnp _ _ => ?_
    have hmem := hprune.mem_iff.mpr (List.mem_append_right _ hn)
    rw [h.wellFormed.node_eq hmem (h.wellFormed.get?_eq_some_iff.mp hd) (is_iff.mp hnp)]
    exact hcont
  · rw [Forest.roots_editChildren]
    exact document_mem_prune h.wellFormed.document (h.wellFormed.ne_root he hdoc)
  · refine Forest.mem_tops_editChildren (Forest.mem_tops_prune (h.tops t ht) ?_) ?_
    · exact not_is_of_notMem_refsOf hc ht
    · exact not_is_of_notMem_refsOf hp ht

theorem Distinct.perm_scatter (h : s.Distinct) (r : NodeRef) :
    (s.scatter r).forest.toList.Perm s.forest.toList := by
  unfold Store.scatter
  split
  · rename_i n c ht
    have hedit := Forest.perm_editChildren (fun _ => .nil) (h.countP_le_one r) ht
    rw [Forest.toList_nil, List.append_nil] at hedit
    rw [Forest.toList_append]
    exact List.perm_append_comm.trans hedit
  · exact List.Perm.refl _

theorem Guards.scatter (h : s.Guards ts held) (hr : r ∉ refsOf ts) : (s.scatter r).Guards ts held := by
  have hperm := h.wellFormed.distinct.perm_scatter r
  unfold Store.scatter at hperm ⊢
  split
  · rename_i n c ht
    have hb := h.wellFormed.bears.of_mem_trees (mem_trees_of_tree? ht).1
    rw [ht] at hperm
    refine h.rearrange hperm (hb.2.append ?_) ?_ fun t ht => ?_
    · exact h.wellFormed.bears.editChildren (fun _ _ => trivial) fun _ _ _ _ hne => absurd rfl hne
    · rw [Forest.roots_eq_map_tops, Forest.tops_append, List.map_append, ← Forest.roots_eq_map_tops,
        ← Forest.roots_eq_map_tops, Forest.roots_editChildren]
      exact List.mem_append_right _ h.wellFormed.document
    · rw [Forest.tops_append]
      refine List.mem_append_right _ (Forest.mem_tops_editChildren (h.tops t ht) ?_)
      exact not_is_of_notMem_refsOf hr ht
  · exact h

/-! ## New trees -/

/-- New nodes take cells that no reference names. -/
theorem hold_rename {c : Cells} {refs : List NodeRef} (h : c.Hold refs) (f : Forest NodeData) :
    (f.rename embody c).2.Hold ((f.rename embody c).1.toList.map (·.ref) ++ refs) := by
  induction f generalizing c refs with
  | nil => exact h
  | node d k n ihk ihn =>
    have h1 := ihn (ihk h.draw)
    simp only [Forest.rename, embody, Forest.toList_node, List.map_cons, List.map_append]
    refine h1.perm ?_
    rw [List.cons_append, List.append_assoc]
    refine ((List.perm_append_comm_assoc _ _ _).cons _).trans ?_
    rw [← List.append_assoc, ← List.append_assoc]
    exact List.perm_middle.symm

theorem map_data_rename (f : Forest NodeData) (c : Cells) :
    (f.rename embody c).1.map (·.data) = f := by
  induction f generalizing c with
  | nil => rfl
  | node d k n ihk ihn => simp only [Forest.rename, Forest.map, ihk, ihn, embody]

/-- Data that new nodes may have: none is the document, and only elements have children. -/
def Plantable (data : NodeData) (children : Forest NodeData) : Prop :=
  (Forest.node data children .nil).BearsOnly (fun d => d.isContainer = true) ∧
    ∀ d ∈ data :: children.toList, d.isDocument = false

theorem refs_plant (s : Store) (data : NodeData) (children : Forest NodeData) :
    (s.plant data children).2.refs = (s.plant data children).1 ::
      ((children.rename embody s.cells.draw.2).1.toList.map (·.ref) ++ s.refs) := by
  simp [Store.plant, refs, embody]

theorem hold_plant (h : s.cells.Hold s.refs) (data : NodeData) (children : Forest NodeData) :
    (s.plant data children).2.cells.Hold (s.plant data children).2.refs := by
  refine (hold_rename h.draw children).perm ?_
  rw [refs_plant]
  exact List.perm_middle.symm

/-- **A new tree is a top-level tree of new nodes.** -/
theorem Guards.plant (h : s.Guards ts held) {data : NodeData} {children : Forest NodeData}
    (hp : Plantable data children) :
    (s.plant data children).2.Guards ts ((s.plant data children).1 :: held) where
  wellFormed := by
    obtain ⟨⟨hb, hbc, -⟩, hdoc⟩ := hp
    have hdata := map_data_rename children s.cells.draw.2
    refine ⟨hold_plant h.wellFormed.cells data children, ⟨fun hne => hb ?_, ?_, h.wellFormed.bears⟩,
      List.mem_cons_of_mem _ h.wellFormed.document, fun n hn hd => ?_⟩
    · rintro rfl
      exact hne rfl
    · rw [← hdata] at hbc
      exact Forest.BearsOnly.map_iff.mp hbc
    · rw [Store.plant, Forest.toList_node] at hn
      rcases List.mem_cons.mp hn with rfl | hn
      · exact absurd (hd.symm.trans (hdoc data List.mem_cons_self)) (by simp)
      · rcases List.mem_append.mp hn with hn | hn
        · have hmem : n.data ∈ children.toList := by
            rw [← hdata, Forest.toList_map]
            exact List.mem_map_of_mem hn
          rw [hdoc n.data (List.mem_cons_of_mem _ hmem)] at hd
          exact absurd hd (by simp)
        · exact h.wellFormed.onlyDocument n hn hd
  tops := fun t ht => List.mem_cons_of_mem _ (h.tops t ht)
  live := by
    intro r hr
    rw [Live, refs_plant]
    rcases List.mem_cons.mp hr with rfl | hr
    · exact List.mem_cons_self
    · exact List.mem_cons_of_mem _ (List.mem_append_right _ (h.live r hr))

theorem WellFormed.plant_notLive (h : s.WellFormed) (data : NodeData) (children : Forest NodeData) :
    ¬ s.Live (s.plant data children).1 := by
  have hn := (hold_plant h.cells data children).nodup
  rw [refs_plant] at hn
  exact fun hl => (List.nodup_cons.mp hn).1 (List.mem_append_right _ hl)

theorem create_eq_plant (s : Store) (data : NodeData) : s.create data = s.plant data .nil := rfl

theorem tree?_create (s : Store) (data : NodeData) :
    (s.create data).2.tree? (s.create data).1 = some (⟨(s.create data).1, data⟩, .nil) := by
  have hself : is (s.create data).1 (⟨(s.create data).1, data⟩ : Node) = true := is_iff.mpr rfl
  change (Forest.node ⟨(s.create data).1, data⟩ .nil s.forest).find? (is (s.create data).1) = _
  rw [Forest.find?_node, if_pos hself]

theorem get?_create (s : Store) (data : NodeData) : (s.create data).2.get? (s.create data).1 = some data := by
  rw [get?, tree?_create]
  rfl

theorem cells_place (s : Store) (p c : NodeRef) (before : Option NodeRef) : (s.place p c before).cells = s.cells := by
  unfold place
  split <;> rfl

theorem ancestors_create {data : NodeData} (hr : r ≠ (s.create data).1) :
    (s.create data).2.ancestors r = s.ancestors r := by
  have hi : ¬ is r ⟨(s.create data).1, data⟩ = true := fun he => hr (is_iff.mp he).symm
  have hp : (s.create data).2.forest.pathTo? (is r) [] = s.forest.pathTo? (is r) [] := by
    change (Forest.node ⟨(s.create data).1, data⟩ .nil s.forest).pathTo? (is r) [] = _
    rw [Forest.pathTo?_node, if_neg hi]
    rfl
  rw [ancestors, ancestors, hp]

theorem copy_eq_plant (s : Store) (n : Node) (c : Forest Node) :
    s.copy n c = s.plant n.data (c.map (·.data)) := by
  have hr : renew = fun n => embody n.data := rfl
  simp only [copy, Store.plant, Forest.rename_map, hr]

theorem plantable_leaf {data : NodeData} (h : data.isDocument = false) : Plantable data .nil := by
  refine ⟨⟨fun hne => absurd rfl hne, trivial, trivial⟩, fun d hd => ?_⟩
  rw [List.mem_singleton.mp hd]
  exact h

theorem WellFormed.insertable_create (h : s.WellFormed) {d data : NodeData} (hd : s.get? r = some d)
    (hc : d.isContainer = true) (hdata : data.isDocument = false) :
    (s.create data).2.Insertable r (s.create data).1 := by
  have hnew : (s.create data).2.WellFormed := (h.guards.plant (plantable_leaf hdata)).wellFormed
  have hnot : ¬ s.Live (s.create data).1 := h.plant_notLive data .nil
  have hlive : s.Live r := get?_isSome_iff.mp (by rw [hd]; rfl)
  refine ⟨⟨d, ?_, hc⟩, ⟨data, ?_, hdata⟩, ?_⟩
  · rw [hnew.get?_eq_some_iff]
    exact List.mem_cons_of_mem _ (h.get?_eq_some_iff.mp hd)
  · rw [hnew.get?_eq_some_iff]
    exact List.mem_cons_self
  · rw [ancestors_create fun he => hnot (he ▸ hlive)]
    exact fun ha => hnot (live_of_mem_ancestors ha)

/-- The document is above no other node. -/
theorem WellFormed.isDocument_eq_false (h : s.WellFormed) {t : Node × Forest Node}
    (ht : s.tree? r = some t) (hd : t.1.data.isDocument = false) {n : Node}
    (hn : n ∈ Forest.labels t) : n.data.isDocument = false := by
  obtain ⟨hm, rfl⟩ := mem_trees_of_tree? ht
  by_contra hdoc
  have hne : t.1.ref ≠ .root := by
    refine h.ne_root (d := t.1.data) ?_ hd
    rw [get?, ht]
    rfl
  have hroot := h.onlyDocument n (Forest.mem_toList_of_mem_labels hm hn) (by simpa using hdoc)
  have hanc : t.1.ref ∈ s.ancestors .root := by
    refine h.mem_ancestors ?_
    rw [descendants_of_tree? ht, ← hroot]
    exact List.mem_map_of_mem hn
  obtain ⟨m, path, hc, -, ha⟩ := exists_climb h.live_root
  have hp := h.parent?_document
  rw [parent?, ha] at hp
  cases path with
  | nil =>
    rw [ha] at hanc
    exact hne (List.mem_singleton.mp hanc)
  | cons b path => simp at hp

theorem WellFormed.plantable_copy (h : s.WellFormed) {t : Node × Forest Node}
    (ht : s.tree? r = some t) (hd : t.1.data.isDocument = false) :
    Plantable t.1.data (t.2.map (·.data)) := by
  have hb := h.bears.of_mem_trees (mem_trees_of_tree? ht).1
  refine ⟨⟨fun hne => hb.1 ?_, Forest.BearsOnly.map_iff.mpr hb.2, trivial⟩, fun d hm => ?_⟩
  · intro he
    rw [he] at hne
    exact hne rfl
  · rw [Forest.toList_map, ← List.map_cons] at hm
    obtain ⟨n, hn, rfl⟩ := List.mem_map.mp hm
    exact h.isDocument_eq_false ht hd hn

/-! ## New data -/

theorem refs_setData (s : Store) (r : NodeRef) (data : NodeData) : (s.setData r data).refs = s.refs := by
  rw [refs, refs, setData, Forest.toList_relabel, List.map_map]
  refine List.map_congr_left fun n _ => ?_
  simp only [Function.comp_apply]
  split <;> rfl

theorem Guards.setData (h : s.Guards ts held) {old data : NodeData} (hg : s.get? r = some old)
    (hc : data.isContainer = old.isContainer) (hd : data.isDocument = old.isDocument)
    (hr : r ∉ refsOf ts) : (s.setData r data).Guards ts held where
  wellFormed := by
    have hm := h.wellFormed.get?_eq_some_iff.mp hg
    have hold : ∀ n ∈ s.forest.toList, is r n = true → n = ⟨r, old⟩ := fun n hn he =>
      h.wellFormed.node_eq hn hm (is_iff.mp he)
    refine ⟨?_, h.wellFormed.bears.relabel fun n hn he hok => ?_, ?_, fun n hn hdoc => ?_⟩
    · rw [refs_setData]
      exact h.wellFormed.cells
    · rw [hold n hn he] at hok
      exact hc.trans hok
    · rw [Store.setData, Forest.roots_relabel]
      refine List.mem_map.mpr ⟨_, h.wellFormed.document, ?_⟩
      split
      · rename_i he
        have hroot := hold _ (Forest.mem_toList_of_mem_roots h.wellFormed.document) he
        rw [← (Node.mk.inj hroot).2] at hd
        cases data <;> simp_all [NodeData.isDocument]
      · rfl
    · rw [Store.setData, Forest.toList_relabel] at hn
      obtain ⟨m, hm, rfl⟩ := List.mem_map.mp hn
      split at hdoc
      · rename_i he
        obtain rfl := hold m hm he
        simp only [he, if_true]
        exact h.wellFormed.onlyDocument _ hm (hd.symm.trans hdoc)
      · rename_i he
        simp only [he]
        exact h.wellFormed.onlyDocument m hm hdoc
  tops := fun t ht => Forest.mem_tops_relabel (h.tops t ht) (not_is_of_notMem_refsOf hr ht)
  live := by
    intro x hx
    rw [Live, refs_setData]
    exact h.live x hx

/-! ## Removing a tree -/

/-- The store without a tree, whose cells are free. -/
def without (s : Store) (r : NodeRef) : Store :=
  ⟨(s.descendants r).foldl Cells.release s.cells, s.forest.prune (is r)⟩

theorem Distinct.perm_without (h : s.Distinct) (r : NodeRef) :
    s.refs.Perm (s.descendants r ++ (s.without r).refs) := by
  cases ht : s.tree? r with
  | none =>
    have hs : s.forest.prune (is r) = s.forest :=
      Forest.prune_eq_self (Forest.find?_eq_none.mp ht)
    rw [without, refs, refs, hs, descendants, ht]
    exact List.Perm.refl _
  | some t =>
    have hp := (Forest.perm_prune (h.countP_le_one r) ht).map fun n : Node => n.ref
    rw [List.map_append] at hp
    rw [descendants_of_tree? ht]
    exact hp

theorem Distinct.nodup_descendants (h : s.Distinct) (r : NodeRef) : (s.descendants r).Nodup :=
  (List.nodup_append.mp ((h.perm_without r).nodup_iff.mp h)).1

theorem Distinct.live_without (h : s.Distinct) {x : NodeRef} :
    (s.without r).Live x ↔ s.Live x ∧ x ∉ s.descendants r := by
  have hp := h.perm_without r
  have hn := hp.nodup_iff.mp h
  rw [Live, Live, hp.mem_iff, List.mem_append]
  constructor
  · exact fun hx => ⟨Or.inr hx, fun hd => (List.nodup_append.mp hn).2.2 x hd x hx rfl⟩
  · rintro ⟨hx | hx, hd⟩
    · exact absurd hx hd
    · exact hx

/-- **Without a tree the store is well formed, and has lost the nodes of the tree.** -/
theorem Guards.without (h : s.Guards ts held) (hne : r ≠ .root) (hr : r ∉ refsOf ts)
    (hl : ∀ x ∈ held, x ∉ s.descendants r) : (s.without r).Guards ts held where
  wellFormed :=
    { cells := (h.wellFormed.cells.perm (h.wellFormed.distinct.perm_without r).symm).releaseAll
      bears := h.wellFormed.bears.prune
      document := document_mem_prune h.wellFormed.document hne
      onlyDocument := by
        intro n hn
        have hs : n ∈ s.forest.toList := by
          cases ht : s.tree? r with
          | none =>
            rwa [Store.without, Forest.prune_eq_self (Forest.find?_eq_none.mp ht)] at hn
          | some t =>
            exact (Forest.perm_prune (h.wellFormed.countP_le_one r) ht).mem_iff.mpr
              (List.mem_append_right _ hn)
        exact h.wellFormed.onlyDocument n hs }
  tops := fun t ht => Forest.mem_tops_prune (h.tops t ht) (not_is_of_notMem_refsOf hr ht)
  live := fun x hx => h.wellFormed.distinct.live_without.mpr ⟨h.live x hx, hl x hx⟩

end DomHost.Store
